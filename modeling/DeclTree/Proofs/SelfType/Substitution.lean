import DeclTree.Proofs.Lowering.CarriesOut

/-!
# Resolving self types is a substitution

The pass finds the scope of a self type by searching the owner chain of the place where the type
stands. The substitution carries that scope down the tree: `standIn` says what a self type becomes
in a scope, and `Module.withoutSelfTypes` replaces every self type of a tree accordingly.
`outcome_lower_eq_withoutSelfTypes` says that the pass gives exactly the substituted tree.
-/

set_option autoImplicit false
set_option relaxedAutoImplicit false

namespace DeclTree

open SelfType (Scope)

/-- The type that stands in for a self type in a scope. A class, or an interface that was not
generated, is applied to its own type parameters and referred to; so is the receiver of a function,
with a reference to the function. In every other scope, and outside all scopes, the type above all
others stands in. -/
def standIn (top : Name) (scope : Option Scope) (nullable : Bool) (tags : Provenance) : Ty :=
  match scope with
  | some (.declared name typeParams uid) =>
    .named name (typeParams.map fun p ↦ .named p [] none false ⟨[]⟩) uid.reference? nullable
      (tags.add Provenance.selfType)
  | some (.receiver (some receiver) uid) =>
    .named receiver.name (receiver.typeParams.map fun p ↦ .named p [] none false ⟨[]⟩)
      uid.reference? nullable (tags.add Provenance.selfType)
  | some .generated => .named top [] none nullable (tags.add Provenance.selfType)
  | some (.receiver none _) => .named top [] none nullable (tags.add Provenance.selfType)
  | none => .named top [] none nullable (tags.add Provenance.selfType)

/-- The names that a scope can give to a self type: those of a declaration and its type parameters,
or of a receiver and its own. -/
def SelfType.namesOf : Option Scope → List Name
  | some (.declared name typeParams _) => name :: typeParams
  | some (.receiver (some receiver) _) => receiver.name :: receiver.typeParams
  | some .generated => []
  | some (.receiver none _) => []
  | none => []

/-- What stands in for a self type is a name applied to bare names, all of them names of the scope
or else the name of the type above all others. -/
theorem standIn_eq_named (top : Name) (scope : Option Scope) (nullable : Bool) (tags : Provenance) :
    ∃ name args uid, standIn top scope nullable tags =
        .named name (args.map Ty.bare) (Uid.reference? uid) nullable
          (tags.add Provenance.selfType) ∧
      ∀ x ∈ name :: args, x = top ∨ x ∈ SelfType.namesOf scope := by
  rcases scope with _ | (⟨name, typeParams, uid⟩ | _ | ⟨_ | receiver, uid⟩)
  · exact ⟨top, [], "", rfl, by simp⟩
  · exact ⟨name, typeParams, uid, rfl, fun x hx ↦ .inr hx⟩
  · exact ⟨top, [], "", rfl, by simp⟩
  · exact ⟨top, [], "", rfl, by simp⟩
  · exact ⟨receiver.name, receiver.typeParams, uid, rfl, fun x hx ↦ .inr hx⟩

/-- The substitution of self types: it changes no identifier and no token. -/
def Rewriting.selfTypes (top : Name) : Rewriting where
  rename := id
  token := id
  self := standIn top

/-- A tree with every self type replaced. No scope lies around the tree itself. -/
def Module.withoutSelfTypes (top : Name) (m : Module) : Module :=
  m.rewrite (.selfTypes top) none

namespace SelfType

/-- What the rule gives in a scope, reported or not, is the type that stands in. -/
theorem outcome_rule (top : Name) (nullable : Bool) (tags : Provenance) (o : Owner)
    (below : Unit → Run Node) :
    ((rule top (.type (.self nullable tags) :: o)).run below).outcome =
      .ok (.type (standIn top o.scope? nullable tags)) := by
  have hscope : List.findSome? scope? (.type (.self nullable tags) :: o) = o.scope? := rfl
  simp only [rule, Owner.node, List.head?_cons, Option.getD_some, hscope]
  rcases o.scope? with _ | (⟨name, typeParams, uid⟩ | _ | ⟨_ | receiver, uid⟩)
  · rfl
  · rfl
  · rfl
  · rfl
  · rfl

theorem carriesOut (top : Name) (workers verbosity : Int)
    (finishing : Owner → (n : Nat) → Finishing n) :
    ({ rules top workers verbosity with finishing } : Rules).CarriesOut (.selfTypes top) where
  rename := rfl
  passes kind o below hself _ := by
    have hnone : (rules top workers verbosity).rule? kind = none := if_neg hself
    rw [Rules.apply, hnone]
    rfl
  enum o e below hbelow := by
    have htokens : e.tokens.map (Token.rewrite (.selfTypes top)) = e.tokens := List.map_id _
    rw [htokens]
    exact hbelow
  self nullable tags o below _ := outcome_rule top nullable tags o below

/-- Resolving self types gives exactly the substituted tree, for every known tree, every name of
the type above all others, and every number of workers in whatever order they finish. -/
theorem outcome_lower_eq_withoutSelfTypes (top : Name) (workers verbosity : Int)
    (finishing : Owner → (n : Nat) → Finishing n) {m : Module} (hknown : m.IsKnown) :
    (({ rules top workers verbosity with finishing } : Rules).pass.lower (some m)).outcome =
      .ok (some (m.withoutSelfTypes top)) :=
  Run.outcome_map_of_ok ((carriesOut top workers verbosity finishing).outcome_lower hknown) some

/-- A class whose object holds a property that may be the class itself, and a submodule with a
variable that stands in no scope. -/
def boxTree (inside outside : Ty) : Module :=
  ⟨⟨some (.ident "lib"), none, "", [], []⟩,
    [.classLike ⟨.cls false [⟨.ident "T", [], none⟩], .ident "Box", [], true, "class:Box", ⟨[]⟩⟩
      [.classLike ⟨.object, .ident "Companion", [], false, "object:Companion", ⟨[]⟩⟩
        [.property ⟨"owner", [], some (.union [inside] false ⟨[]⟩), true, false, true, false,
          false⟩]]],
    [⟨⟨some (.ident "sub"), none, "", [], []⟩,
      [.var ⟨.ident "it", some outside, none, true, false, false, ⟨[]⟩⟩], []⟩]⟩

theorem outcome_lower_boxTree :
    (boxTree (.self true ⟨["origin"]⟩) (.self false ⟨[]⟩)).IsKnown ∧
      (({ rules (.ident "Any") 4 0 with finishing := fun _ ↦ Finishing.backwards } :
        Rules).pass.lower (some (boxTree (.self true ⟨["origin"]⟩) (.self false ⟨[]⟩)))).outcome =
      .ok (some (boxTree
        (.named (.ident "Box") [.named (.ident "T") [] none false ⟨[]⟩] (some "class:Box") true
          ⟨["origin", "this_type"]⟩)
        (.named (.ident "Any") [] none false ⟨["this_type"]⟩))) :=
  ⟨by decide, outcome_lower_eq_withoutSelfTypes (.ident "Any") 4 0
    (fun _ ↦ Finishing.backwards) (by decide)⟩

end SelfType

end DeclTree
