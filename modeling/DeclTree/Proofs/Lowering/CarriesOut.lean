import DeclTree.Proofs.Lowering.Completion
import DeclTree.Proofs.Lowering.Rewriting
import DeclTree.Proofs.Tree.Every
import DeclTree.Proofs.Tree.Induction

/-!
# Registries that carry out rewritings

A registry carries out a rewriting when it renames identifiers as the rewriting does, passes over
every node but enumerations and self types, and does at those what the rewriting says. Then
lowering a known tree succeeds and gives the rewritten tree, `Rules.CarriesOut.outcome_lower`.

The proof goes up the storeys of the tree. At every place the owner chain is tied to the scope that
the rewriting carries down by `Owner.scope?`.
-/

set_option autoImplicit false
set_option relaxedAutoImplicit false

namespace DeclTree

open SelfType (Scope scope?)

/-- The innermost scope of self types in an owner chain. -/
def Owner.scope? (o : Owner) : Option Scope := o.findSome? SelfType.scope?

/-- What a registry has to do at single nodes to carry out a rewriting. -/
structure Rules.CarriesOut (r : Rules) (w : Rewriting) : Prop where
  rename : r.rename = w.rename
  /-- No rule stands in the way of going on below a node. -/
  passes : ∀ (kind : Kind) (o : Owner) (below : Unit → Run Node), kind ≠ .selfType →
    kind ≠ .enumDecl → (r.apply kind o below).outcome = (below ()).outcome
  enum : ∀ (o : Owner) (e : Enum) (below : Unit → Run Node),
    (below ()).outcome = .ok (.enum e) →
      (r.apply .enumDecl o below).outcome =
        .ok (.enum { e with tokens := e.tokens.map (Token.rewrite w) })
  self : ∀ (nullable : Bool) (tags : Provenance) (o : Owner) (below : Unit → Run Node),
    (below ()).outcome = .ok (.type (.self nullable tags)) →
      (r.apply .selfType (.type (.self nullable tags) :: o) below).outcome =
        .ok (.type (w.self o.scope? nullable tags))

/-! ### Scopes along owner chains -/

/-- The scope inside a node: the one that it opens, or else the one around it. -/
def Node.inner (n : Node) (scope : Option Scope) : Option Scope := (SelfType.scope? n).or scope

theorem Owner.scope?_cons (n : Node) (o : Owner) : Owner.scope? (n :: o) = n.inner o.scope? := by
  rw [Owner.scope?, List.findSome?_cons, Node.inner]
  cases SelfType.scope? n with
  | none => rfl
  | some s => rfl

/-- A class-like declaration opens the scope that the rewriting gives it. Every other node either
opens none or is a function, and there both sides agree by definition. -/
theorem Node.inner_classLike (head : ClassHead) (members : List Member) (scope : Option Scope) :
    (Node.classLike head members).inner scope = head.inner scope := by
  obtain ⟨form, name, parents, isExported, uid, tags⟩ := head
  cases form with
  | cls isAbstract typeParams => rfl
  | interface isGenerated typeParams =>
    cases isGenerated with
    | false => rfl
    | true => rfl
  | object => rfl

namespace Rules.CarriesOut

variable {r : Rules} {w : Rewriting}

/-! ### One node -/

/-- A node becomes what its rule gives, where that fits; `node` puts what fits the slot back among
the nodes. -/
theorem visit_of_apply {α : Type} (kind : Kind) (node : α → Node) {n : Node} {a : α} {o : Owner}
    {fits : Node → Option α} {below : Owner → Run Node} (hkind : n.kind? = some kind)
    (hfits : fits (node a) = some a)
    (happly : (r.apply kind (n :: o) fun _ ↦ below (n :: o)).outcome = .ok (node a)) :
    (r.visit n o fits below).outcome = .ok a := by
  simp only [Rules.visit, hkind]
  rw [Run.outcome_bind_of_ok (a := ()) rfl, Run.outcome_bind_of_ok happly, Rules.take, hfits]
  rfl

/-- A node that is passed over becomes what going on below it gives. -/
theorem visit_passes {α : Type} (h : r.CarriesOut w) (kind : Kind) (node : α → Node) {n : Node}
    {a : α} {o : Owner} {fits : Node → Option α} {below : Owner → Run Node}
    (hkind : n.kind? = some kind) (hself : kind ≠ .selfType) (henum : kind ≠ .enumDecl)
    (hfits : fits (node a) = some a) (hbelow : (below (n :: o)).outcome = .ok (node a)) :
    (r.visit n o fits below).outcome = .ok a := by
  refine visit_of_apply kind node hkind hfits ?_
  rw [h.passes kind _ _ hself henum, hbelow]

/-! ### Types -/

theorem outcome_types {o : Owner} {ts : List Ty} {scope : Option Scope}
    (hts : ∀ t ∈ ts, (t.lower r o).outcome = .ok (t.rewrite w scope)) :
    (Ty.lowerAll r o ts).outcome = .ok (ts.map (Ty.rewrite w scope)) := by
  rw [Ty.lowerAll_eq_sequence]
  exact Run.outcome_sequence_map hts

theorem outcome_params {o : Owner} {ps : List Param} {scope : Option Scope}
    (hps : ∀ p ∈ ps, (p.lower r o).outcome = .ok (p.rewrite w scope)) :
    (Param.lowerAll r o ps).outcome = .ok (ps.map (Param.rewrite w scope)) := by
  rw [Param.lowerAll_eq_sequence]
  exact Run.outcome_sequence_map hps

theorem outcome_typeParams {o : Owner} {ps : List TypeParam} {scope : Option Scope}
    (hps : ∀ p ∈ ps, (p.lower r o).outcome = .ok (p.rewrite w scope)) :
    (TypeParam.lowerAll r o ps).outcome = .ok (ps.map (TypeParam.rewrite w scope)) := by
  rw [TypeParam.lowerAll_eq_sequence]
  exact Run.outcome_sequence_map hps

theorem lowers_types (h : r.CarriesOut w) :
    TypeStorey
      (fun t ↦ ∀ o : Owner, t.Every (fun n ↦ n.isKnown) →
        (t.lower r o).outcome = .ok (t.rewrite w o.scope?))
      (fun p ↦ ∀ o : Owner, p.Every (fun n ↦ n.isKnown) →
        (p.lower r o).outcome = .ok (p.rewrite w o.scope?))
      (fun p ↦ ∀ o : Owner, p.Every (fun n ↦ n.isKnown) →
        (p.lower r o).outcome = .ok (p.rewrite w o.scope?)) where
  named name args target nullable tags hargs o hknown := by
    obtain ⟨-, hknown⟩ := Ty.every_named.mp hknown
    refine h.visit_passes .namedType Node.type rfl (by decide) (by decide) rfl ?_
    rw [Ty.descend, Run.outcome_bind_of_ok (outcome_types fun t ht ↦ hargs t ht _ (hknown t ht)),
      Ty.rewrite, Ty.rewriteAll_eq_map, h.rename]
    rfl
  function params result nullable tags hparams hresult o hknown := by
    obtain ⟨-, hknownParams, hknownResult⟩ := Ty.every_function.mp hknown
    refine h.visit_passes .functionType Node.type rfl (by decide) (by decide) rfl ?_
    rw [Ty.descend,
      Run.outcome_bind_of_ok (outcome_params fun p hp ↦ hparams p hp _ (hknownParams p hp)),
      Run.outcome_bind_of_ok (Ty.outcome_lowerSlot fun t ht ↦ hresult t ht _ (hknownResult t ht)),
      Ty.rewrite, Param.rewriteAll_eq_map, Ty.rewriteSlot_eq_map]
    rfl
  union alternatives nullable tags halternatives o hknown := by
    obtain ⟨-, hknown⟩ := Ty.every_union.mp hknown
    refine h.visit_passes .unionType Node.type rfl (by decide) (by decide) rfl ?_
    rw [Ty.descend,
      Run.outcome_bind_of_ok (outcome_types fun t ht ↦ halternatives t ht _ (hknown t ht)),
      Ty.rewrite, Ty.rewriteAll_eq_map]
    rfl
  self nullable tags o _ := by
    have happly := h.self nullable tags o
      (fun _ ↦ (Ty.self nullable tags).descend r (.type (.self nullable tags) :: o)) rfl
    exact visit_of_apply .selfType Node.type rfl rfl happly
  generated name typeParams target nullable tags htypeParams o hknown := by
    obtain ⟨-, hknown⟩ := Ty.every_generated.mp hknown
    refine h.visit_passes .generatedType Node.type rfl (by decide) (by decide) rfl ?_
    rw [Ty.descend,
      Run.outcome_bind_of_ok (outcome_typeParams fun p hp ↦ htypeParams p hp _ (hknown p hp)),
      Ty.rewrite, TypeParam.rewriteAll_eq_map, h.rename]
    rfl
  foreign label o hknown := nomatch Ty.every_foreign.mp hknown
  param name type isOptional isVararg htype o hknown := by
    obtain ⟨-, hknown⟩ := Param.every_iff.mp hknown
    refine h.visit_passes .param Node.param rfl (by decide) (by decide) rfl ?_
    rw [Param.descend,
      Run.outcome_bind_of_ok (Ty.outcome_lowerSlot fun t ht ↦ htype t ht _ (hknown t ht)),
      Param.rewrite, Ty.rewriteSlot_eq_map, h.rename]
    rfl
  typeParam name constraints default hconstraints hdefault o hknown := by
    obtain ⟨-, hknownConstraints, hknownDefault⟩ := TypeParam.every_iff.mp hknown
    refine h.visit_passes .typeParam Node.typeParam rfl (by decide) (by decide) rfl ?_
    rw [TypeParam.descend,
      Run.outcome_bind_of_ok
        (outcome_types fun t ht ↦ hconstraints t ht _ (hknownConstraints t ht)),
      Run.outcome_bind_of_ok (Ty.outcome_lowerSlot fun t ht ↦ hdefault t ht _ (hknownDefault t ht)),
      TypeParam.rewrite, Ty.rewriteAll_eq_map, Ty.rewriteSlot_eq_map, h.rename]
    rfl

theorem outcome_types_of_known (h : r.CarriesOut w) {o : Owner} {ts : List Ty}
    (hknown : ∀ t ∈ ts, t.Every fun n ↦ n.isKnown) :
    (Ty.lowerAll r o ts).outcome = .ok (ts.map (Ty.rewrite w o.scope?)) :=
  outcome_types fun t ht ↦ h.lowers_types.forType t o (hknown t ht)

theorem outcome_slot_of_known (h : r.CarriesOut w) {o : Owner} {slot : Option Ty}
    (hknown : ∀ t ∈ slot, t.Every fun n ↦ n.isKnown) :
    (Ty.lowerSlot r o slot).outcome = .ok (slot.map (Ty.rewrite w o.scope?)) :=
  Ty.outcome_lowerSlot fun t ht ↦ h.lowers_types.forType t o (hknown t ht)

theorem outcome_params_of_known (h : r.CarriesOut w) {o : Owner} {ps : List Param}
    (hknown : ∀ p ∈ ps, p.Every fun n ↦ n.isKnown) :
    (Param.lowerAll r o ps).outcome = .ok (ps.map (Param.rewrite w o.scope?)) :=
  outcome_params fun p hp ↦ h.lowers_types.forParam p o (hknown p hp)

theorem outcome_typeParams_of_known (h : r.CarriesOut w) {o : Owner} {ps : List TypeParam}
    (hknown : ∀ p ∈ ps, p.Every fun n ↦ n.isKnown) :
    (TypeParam.lowerAll r o ps).outcome = .ok (ps.map (TypeParam.rewrite w o.scope?)) :=
  outcome_typeParams fun p hp ↦ h.lowers_types.forTypeParam p o (hknown p hp)

/-! ### Members -/

theorem outcome_heritage (h : r.CarriesOut w) {x : Heritage} (o : Owner)
    (hknown : x.Every fun n ↦ n.isKnown) :
    (x.lower r o).outcome = .ok (x.rewrite w o.scope?) := by
  obtain ⟨-, hknown⟩ := Heritage.every_iff.mp hknown
  refine h.visit_passes .heritage Node.heritage rfl (by decide) (by decide) rfl ?_
  rw [Heritage.descend, Run.outcome_bind_of_ok (h.outcome_types_of_known hknown), h.rename]
  rfl

theorem descend_function (h : r.CarriesOut w) {f : Function} (o : Owner)
    (hknown : f.Every fun n ↦ n.isKnown) :
    (f.descend r (.function f :: o)).outcome = .ok (.function (f.rewrite w)) := by
  obtain ⟨-, htypeParams, hparams, hresult⟩ := Function.every_iff.mp hknown
  rw [Function.descend, Run.outcome_bind_of_ok (h.outcome_typeParams_of_known htypeParams),
    Run.outcome_bind_of_ok (h.outcome_params_of_known hparams),
    Run.outcome_bind_of_ok (h.outcome_slot_of_known hresult), h.rename]
  rfl

/-- The head of a class-like declaration is lowered inside the scope that it opens. -/
theorem outcome_head (h : r.CarriesOut w) {head : ClassHead} {members : List Member} (o : Owner)
    (htypeParams : ∀ p ∈ head.typeParams, p.Every fun n ↦ n.isKnown)
    (hparents : ∀ x ∈ head.parents, x.Every fun n ↦ n.isKnown) :
    (head.lower r (.classLike head members :: o)).outcome = .ok (head.rewrite w o.scope?) := by
  have hlist : (Heritage.lowerAll r (.classLike head members :: o) head.parents).outcome =
      .ok (head.parents.map
        (Heritage.rewrite w (Owner.scope? (.classLike head members :: o)))) := by
    rw [Heritage.lowerAll_eq_sequence]
    exact Run.outcome_sequence_map fun x hx ↦ h.outcome_heritage _ (hparents x hx)
  rw [ClassHead.lower, Run.outcome_bind_of_ok (h.outcome_typeParams_of_known htypeParams),
    Run.outcome_bind_of_ok hlist, Owner.scope?_cons, Node.inner_classLike, h.rename]
  rfl

theorem descend_classLike (h : r.CarriesOut w) {head : ClassHead} {members : List Member}
    (o : Owner) (hknown : (Member.classLike head members).Every fun n ↦ n.isKnown)
    (hmembers : ∀ m ∈ members, ∀ o : Owner, m.Every (fun n ↦ n.isKnown) →
      (m.lower r o).outcome = .ok (m.rewrite w o.scope?)) :
    ((Member.classLike head members).descend r (.classLike head members :: o)).outcome =
      .ok ((Member.classLike head members).rewrite w o.scope?).node := by
  obtain ⟨-, htypeParams, hparents, hknown⟩ := Member.every_classLike.mp hknown
  have hlist : (Member.lowerAll r (.classLike head members :: o) members).outcome =
      .ok (members.map (Member.rewrite w (Owner.scope? (.classLike head members :: o)))) := by
    rw [Member.lowerAll_eq_sequence]
    exact Run.outcome_sequence_map fun m hm ↦ hmembers m hm _ (hknown m hm)
  rw [Member.descend, Run.outcome_bind_of_ok (h.outcome_head o htypeParams hparents),
    Run.outcome_bind_of_ok hlist, Owner.scope?_cons, Node.inner_classLike, Member.rewrite,
    Member.rewriteAll_eq_map]
  rfl

theorem lowers_members (h : r.CarriesOut w) :
    MemberStorey fun m ↦ ∀ o : Owner, m.Every (fun n ↦ n.isKnown) →
      (m.lower r o).outcome = .ok (m.rewrite w o.scope?) where
  method m o hknown := by
    obtain ⟨-, htypeParams, hparams, hresult⟩ := Member.every_method.mp hknown
    refine h.visit_passes .method Member.node rfl (by decide) (by decide)
      (Member.replacesMember?_rewrite _) ?_
    rw [Member.descend, Method.descend,
      Run.outcome_bind_of_ok (h.outcome_typeParams_of_known htypeParams),
      Run.outcome_bind_of_ok (h.outcome_params_of_known hparams),
      Run.outcome_bind_of_ok (h.outcome_slot_of_known hresult), h.rename]
    rfl
  property p o hknown := by
    obtain ⟨-, htypeParams, htype⟩ := Member.every_property.mp hknown
    refine h.visit_passes .property Member.node rfl (by decide) (by decide)
      (Member.replacesMember?_rewrite _) ?_
    rw [Member.descend, Property.descend,
      Run.outcome_bind_of_ok (h.outcome_typeParams_of_known htypeParams),
      Run.outcome_bind_of_ok (h.outcome_slot_of_known htype), h.rename]
    rfl
  constructor c o hknown := by
    obtain ⟨-, htypeParams, hparams⟩ := Member.every_constructor.mp hknown
    refine h.visit_passes .constructor Member.node rfl (by decide) (by decide)
      (Member.replacesMember?_rewrite _) ?_
    rw [Member.descend, Constructor.descend,
      Run.outcome_bind_of_ok (h.outcome_typeParams_of_known htypeParams),
      Run.outcome_bind_of_ok (h.outcome_params_of_known hparams)]
    rfl
  function f o hknown := by
    refine h.visit_passes .functionDecl Member.node rfl (by decide) (by decide)
      (Member.replacesMember?_rewrite _) ?_
    exact h.descend_function o (Member.every_function.mp hknown)
  classLike head members hmembers o hknown := by
    refine h.visit_passes head.form.kind Member.node rfl head.form.kind_ne_selfType
      head.form.kind_ne_enumDecl (Member.replacesMember?_rewrite _) ?_
    exact h.descend_classLike o hknown hmembers

/-! ### Declarations and modules -/

/-- An enumeration is renamed on the way down and its tokens are rewritten by its rule. -/
theorem outcome_enum (h : r.CarriesOut w) (e : Enum) (o : Owner) :
    ((Decl.enum e).lower r o).outcome = .ok (.enum (e.rewrite w)) := by
  have hbelow : (e.descend r).outcome = .ok (.enum { e with name := e.name.map w.rename }) := by
    rw [Enum.descend, h.rename]
    rfl
  exact visit_of_apply .enumDecl Decl.node rfl rfl
    (h.enum (.enum e :: o) _ (fun _ ↦ e.descend r) hbelow)

theorem lowers_modules (h : r.CarriesOut w) :
    ModuleStorey
      (fun d ↦ ∀ o : Owner, d ≠ .missing → d.Every (fun n ↦ n.isKnown) →
        (d.lower r o).outcome = .ok (d.rewrite w o.scope?))
      (fun m ↦ ∀ o : Owner, m.Every (fun n ↦ n.isKnown) →
        (m.descend r (.module m :: o)).outcome = .ok (.module (m.rewrite w o.scope?))) where
  module m hm o hd hknown := by
    refine h.visit_passes .moduleDecl Decl.node rfl (by decide) (by decide)
      (Decl.replacesDecl?_rewrite hd) ?_
    exact hm o (Decl.every_module.mp hknown)
  classLike head members o hd hknown := by
    refine h.visit_passes head.form.kind Decl.node rfl head.form.kind_ne_selfType
      head.form.kind_ne_enumDecl (Decl.replacesDecl?_rewrite hd) ?_
    exact h.descend_classLike o (Decl.every_classLike.mp hknown)
      fun m _ ↦ h.lowers_members.forMember m
  function f o hd hknown := by
    refine h.visit_passes .functionDecl Decl.node rfl (by decide) (by decide)
      (Decl.replacesDecl?_rewrite hd) ?_
    exact h.descend_function o (Decl.every_function.mp hknown)
  var v o hd hknown := by
    obtain ⟨-, htype⟩ := Decl.every_var.mp hknown
    refine h.visit_passes .variableDecl Decl.node rfl (by decide) (by decide)
      (Decl.replacesDecl?_rewrite hd) ?_
    rw [Decl.descend, Variable.descend, Run.outcome_bind_of_ok (h.outcome_slot_of_known htype),
      h.rename]
    rfl
  typeAlias a o hd hknown := by
    obtain ⟨-, htypeParams, htype⟩ := Decl.every_typeAlias.mp hknown
    refine h.visit_passes .aliasDecl Decl.node rfl (by decide) (by decide)
      (Decl.replacesDecl?_rewrite hd) ?_
    rw [Decl.descend, TypeAlias.descend,
      Run.outcome_bind_of_ok (h.outcome_typeParams_of_known htypeParams),
      Run.outcome_bind_of_ok (h.outcome_slot_of_known htype), h.rename]
    rfl
  enum e o _ _ := h.outcome_enum e o
  foreign label o _ hknown := nomatch Decl.every_foreign.mp hknown
  missing o hd _ := absurd rfl hd
  node head declarations submodules hdeclarations hsubmodules o hknown := by
    obtain ⟨hpresent, hknownDeclarations, hknownSubmodules⟩ := Module.every_iff.mp hknown
    have hdecls := r.outcome_gather_map .missing (.module ⟨head, declarations, submodules⟩ :: o)
      fun d hd ↦ hdeclarations d hd (.module ⟨head, declarations, submodules⟩ :: o)
        (ne_missing_of_isKnown hpresent hd) (hknownDeclarations d hd)
    have hmods : (Module.lowerAll r (.module ⟨head, declarations, submodules⟩ :: o)
        submodules).outcome = .ok (submodules.map (Module.rewrite w o.scope?)) := by
      rw [Module.lowerAll_eq_sequence]
      refine Run.outcome_sequence_map fun m hm ↦ ?_
      refine h.visit_passes .moduleDecl Node.module rfl (by decide) (by decide) rfl ?_
      exact hsubmodules m hm _ (hknownSubmodules m hm)
    rw [Module.descend, Decl.lowerEach_eq_map, Run.outcome_bind_of_ok hdecls,
      Run.outcome_bind_of_ok hmods, h.rename, Module.rewrite, Decl.rewriteAll_eq_map,
      Module.rewriteAll_eq_map]
    rfl

/-- A registry that carries out a rewriting takes every known tree to the rewritten tree, whatever
its number of workers and the order in which they finish. -/
theorem outcome_lower (h : r.CarriesOut w) {m : Module} (hknown : m.IsKnown) :
    (r.lower (some m)).outcome = .ok (m.rewrite w none) := by
  rw [Rules.lower, Run.outcome_traced]
  refine h.visit_passes .moduleDecl Node.module rfl (by decide) (by decide) rfl ?_
  exact h.lowers_modules.forModule m [] hknown

end Rules.CarriesOut

end DeclTree
