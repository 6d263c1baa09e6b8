import DeclTree.Proofs.Tree.Induction

/-!
# Properties of every node

A condition on single nodes, asked of every node that a walk lists. `Ty.every_named`,
`Member.every_classLike`, `Module.every_iff` and the equivalences beside them say what the
condition means for a node and for what it holds, so that no later proof opens a walk.

`Module.IsKnown` is the first such condition: a tree of nodes that the traversal knows, with no
declaration missing.
-/

set_option autoImplicit false
set_option relaxedAutoImplicit false

namespace DeclTree

/-! ### Walks that enter every node -/

theorem Ty.walkAll_eq_flatMap (enter : Node → Bool) (ts : List Ty) :
    Ty.walkAll enter ts = ts.flatMap (Ty.walk enter) := by
  induction ts with
  | nil => rfl
  | cons t ts ih =>
    show Ty.walk enter t ++ Ty.walkAll enter ts = _
    rw [ih, List.flatMap_cons]

theorem Param.walkAll_eq_flatMap (enter : Node → Bool) (ps : List Param) :
    Param.walkAll enter ps = ps.flatMap (Param.walk enter) := by
  induction ps with
  | nil => rfl
  | cons p ps ih =>
    show Param.walk enter p ++ Param.walkAll enter ps = _
    rw [ih, List.flatMap_cons]

theorem TypeParam.walkAll_eq_flatMap (enter : Node → Bool) (ps : List TypeParam) :
    TypeParam.walkAll enter ps = ps.flatMap (TypeParam.walk enter) := by
  induction ps with
  | nil => rfl
  | cons p ps ih =>
    show TypeParam.walk enter p ++ TypeParam.walkAll enter ps = _
    rw [ih, List.flatMap_cons]

theorem Member.walkAll_eq_flatMap (enter : Node → Bool) (ms : List Member) :
    Member.walkAll enter ms = ms.flatMap (Member.walk enter) := by
  induction ms with
  | nil => rfl
  | cons m ms ih =>
    show Member.walk enter m ++ Member.walkAll enter ms = _
    rw [ih, List.flatMap_cons]

theorem Decl.walkAll_eq_flatMap (enter : Node → Bool) (ds : List Decl) :
    Decl.walkAll enter ds = ds.flatMap (Decl.walk enter) := by
  induction ds with
  | nil => rfl
  | cons d ds ih =>
    show Decl.walk enter d ++ Decl.walkAll enter ds = _
    rw [ih, List.flatMap_cons]

theorem Module.walkAll_eq_flatMap (enter : Node → Bool) (ms : List Module) :
    Module.walkAll enter ms = ms.flatMap (Module.walk enter) := by
  induction ms with
  | nil => rfl
  | cons m ms ih =>
    show Module.walk enter m ++ Module.walkAll enter ms = _
    rw [ih, List.flatMap_cons]

section Walks

variable {enter : Node → Bool}

theorem Ty.walk_named (name : Name) (args : List Ty) (target : Option Uid) (nullable : Bool)
    (tags : Provenance) :
    (Ty.named name args target nullable tags).walk (fun _ ↦ true) =
      .type (.named name args target nullable tags) :: Ty.walkAll (fun _ ↦ true) args := rfl

theorem Ty.walk_function (params : List Param) (result : Option Ty) (nullable : Bool)
    (tags : Provenance) :
    (Ty.function params result nullable tags).walk (fun _ ↦ true) =
      .type (.function params result nullable tags) ::
        (Param.walkAll (fun _ ↦ true) params ++ Ty.walkSlot (fun _ ↦ true) result) := rfl

theorem Ty.walk_union (alternatives : List Ty) (nullable : Bool) (tags : Provenance) :
    (Ty.union alternatives nullable tags).walk (fun _ ↦ true) =
      .type (.union alternatives nullable tags) :: Ty.walkAll (fun _ ↦ true) alternatives := rfl

theorem Ty.walk_self (nullable : Bool) (tags : Provenance) :
    (Ty.self nullable tags).walk (fun _ ↦ true) = [.type (.self nullable tags)] := rfl

theorem Ty.walk_generated (name : Name) (typeParams : List TypeParam) (target : Option Uid)
    (nullable : Bool) (tags : Provenance) :
    (Ty.generated name typeParams target nullable tags).walk (fun _ ↦ true) =
      .type (.generated name typeParams target nullable tags) ::
        TypeParam.walkAll (fun _ ↦ true) typeParams := rfl

theorem Ty.walk_foreign (label : String) :
    (Ty.foreign label).walk (fun _ ↦ true) = [.type (.foreign label)] := rfl

theorem Param.walk_mk (name : String) (type : Option Ty) (isOptional isVararg : Bool) :
    (Param.mk name type isOptional isVararg).walk (fun _ ↦ true) =
      .param ⟨name, type, isOptional, isVararg⟩ :: Ty.walkSlot (fun _ ↦ true) type := rfl

theorem TypeParam.walk_mk (name : Name) (constraints : List Ty) (default : Option Ty) :
    (TypeParam.mk name constraints default).walk (fun _ ↦ true) =
      .typeParam ⟨name, constraints, default⟩ ::
        (Ty.walkAll (fun _ ↦ true) constraints ++ Ty.walkSlot (fun _ ↦ true) default) := rfl

theorem Heritage.walk_eq (h : Heritage) :
    h.walk (fun _ ↦ true) = .heritage h :: Ty.walkAll (fun _ ↦ true) h.args := rfl

theorem Function.walk_eq (f : Function) :
    f.walk (fun _ ↦ true) = .function f ::
      (TypeParam.walkAll (fun _ ↦ true) f.typeParams ++ Param.walkAll (fun _ ↦ true) f.params ++
        Ty.walkSlot (fun _ ↦ true) f.result) := rfl

theorem Member.walk_method (m : Method) :
    (Member.method m).walk (fun _ ↦ true) = .method m ::
      (TypeParam.walkAll (fun _ ↦ true) m.typeParams ++ Param.walkAll (fun _ ↦ true) m.params ++
        Ty.walkSlot (fun _ ↦ true) m.result) := rfl

theorem Member.walk_property (p : Property) :
    (Member.property p).walk (fun _ ↦ true) = .property p ::
      (TypeParam.walkAll (fun _ ↦ true) p.typeParams ++ Ty.walkSlot (fun _ ↦ true) p.type) := rfl

theorem Member.walk_constructor (c : Constructor) :
    (Member.constructor c).walk (fun _ ↦ true) = .constructor c ::
      (TypeParam.walkAll (fun _ ↦ true) c.typeParams ++
        Param.walkAll (fun _ ↦ true) c.params) := rfl

theorem Member.walk_function (f : Function) :
    (Member.function f).walk enter = f.walk enter := rfl

theorem Member.walk_classLike (head : ClassHead) (members : List Member) :
    (Member.classLike head members).walk (fun _ ↦ true) = .classLike head members ::
      (TypeParam.walkAll (fun _ ↦ true) head.typeParams ++
        head.parents.flatMap (Heritage.walk fun _ ↦ true) ++
        Member.walkAll (fun _ ↦ true) members) := rfl

theorem Decl.walk_module (m : Module) : (Decl.module m).walk enter = m.walk enter := rfl

theorem Decl.walk_classLike (head : ClassHead) (members : List Member) :
    (Decl.classLike head members).walk enter = (Member.classLike head members).walk enter := rfl

theorem Decl.walk_function (f : Function) :
    (Decl.function f).walk enter = f.walk enter := rfl

theorem Decl.walk_var (v : Variable) :
    (Decl.var v).walk (fun _ ↦ true) = .var v :: Ty.walkSlot (fun _ ↦ true) v.type := rfl

theorem Decl.walk_typeAlias (a : TypeAlias) :
    (Decl.typeAlias a).walk (fun _ ↦ true) = .typeAlias a ::
      (TypeParam.walkAll (fun _ ↦ true) a.typeParams ++ Ty.walkSlot (fun _ ↦ true) a.type) := rfl

theorem Decl.walk_enum (e : Enum) : (Decl.enum e).walk (fun _ ↦ true) = [.enum e] := rfl

theorem Decl.walk_foreign (label : String) :
    (Decl.foreign label).walk (fun _ ↦ true) = [.foreign label] := rfl

theorem Module.walk_mk (head : ModuleHead) (declarations : List Decl) (submodules : List Module) :
    (Module.mk head declarations submodules).walk (fun _ ↦ true) =
      .module ⟨head, declarations, submodules⟩ ::
        (Decl.walkAll (fun _ ↦ true) declarations ++ Module.walkAll (fun _ ↦ true) submodules) := rfl

end Walks

/-! ### A condition on every node -/

/-- The condition holds of every node of a type. -/
def Ty.Every (P : Node → Prop) (t : Ty) : Prop := ∀ n ∈ t.walk fun _ ↦ true, P n

def Param.Every (P : Node → Prop) (p : Param) : Prop := ∀ n ∈ p.walk fun _ ↦ true, P n

def TypeParam.Every (P : Node → Prop) (p : TypeParam) : Prop := ∀ n ∈ p.walk fun _ ↦ true, P n

def Heritage.Every (P : Node → Prop) (h : Heritage) : Prop := ∀ n ∈ h.walk fun _ ↦ true, P n

def Function.Every (P : Node → Prop) (f : Function) : Prop := ∀ n ∈ f.walk fun _ ↦ true, P n

def Member.Every (P : Node → Prop) (m : Member) : Prop := ∀ n ∈ m.walk fun _ ↦ true, P n

def Decl.Every (P : Node → Prop) (d : Decl) : Prop := ∀ n ∈ d.walk fun _ ↦ true, P n

/-- The condition holds of every node of a tree. -/
def Module.Every (P : Node → Prop) (m : Module) : Prop := ∀ n ∈ m.nodes, P n

variable {P : Node → Prop}

/-- A condition on the nodes that the walks of a list give is a condition on each entry. -/
theorem forall_mem_flatMap_walk {α : Type} (walk : α → List Node) (as : List α) :
    (∀ n ∈ as.flatMap walk, P n) ↔ ∀ a ∈ as, ∀ n ∈ walk a, P n := by
  simp only [List.mem_flatMap, forall_exists_index, and_imp]
  exact ⟨fun h a ha n hn ↦ h n a ha hn, fun h n a ha hn ↦ h a ha n hn⟩

theorem Ty.forall_mem_walkAll {ts : List Ty} :
    (∀ n ∈ Ty.walkAll (fun _ ↦ true) ts, P n) ↔ ∀ t ∈ ts, t.Every P := by
  rw [Ty.walkAll_eq_flatMap]
  exact forall_mem_flatMap_walk _ ts

theorem Ty.forall_mem_walkSlot {slot : Option Ty} :
    (∀ n ∈ Ty.walkSlot (fun _ ↦ true) slot, P n) ↔ ∀ t ∈ slot, t.Every P := by
  cases slot with
  | none => simp [Ty.walkSlot]
  | some t => simp [Ty.walkSlot, Ty.Every]

theorem Param.forall_mem_walkAll {ps : List Param} :
    (∀ n ∈ Param.walkAll (fun _ ↦ true) ps, P n) ↔ ∀ p ∈ ps, p.Every P := by
  rw [Param.walkAll_eq_flatMap]
  exact forall_mem_flatMap_walk _ ps

theorem TypeParam.forall_mem_walkAll {ps : List TypeParam} :
    (∀ n ∈ TypeParam.walkAll (fun _ ↦ true) ps, P n) ↔ ∀ p ∈ ps, p.Every P := by
  rw [TypeParam.walkAll_eq_flatMap]
  exact forall_mem_flatMap_walk _ ps

theorem Heritage.forall_mem_flatMap {hs : List Heritage} :
    (∀ n ∈ hs.flatMap (Heritage.walk fun _ ↦ true), P n) ↔ ∀ h ∈ hs, h.Every P :=
  forall_mem_flatMap_walk _ hs

theorem Member.forall_mem_walkAll {ms : List Member} :
    (∀ n ∈ Member.walkAll (fun _ ↦ true) ms, P n) ↔ ∀ m ∈ ms, m.Every P := by
  rw [Member.walkAll_eq_flatMap]
  exact forall_mem_flatMap_walk _ ms

theorem Decl.forall_mem_walkAll {ds : List Decl} :
    (∀ n ∈ Decl.walkAll (fun _ ↦ true) ds, P n) ↔ ∀ d ∈ ds, d.Every P := by
  rw [Decl.walkAll_eq_flatMap]
  exact forall_mem_flatMap_walk _ ds

theorem Module.forall_mem_walkAll {ms : List Module} :
    (∀ n ∈ Module.walkAll (fun _ ↦ true) ms, P n) ↔ ∀ m ∈ ms, m.Every P := by
  rw [Module.walkAll_eq_flatMap]
  exact forall_mem_flatMap_walk _ ms

/-! ### The condition node by node -/

theorem Ty.every_named {name : Name} {args : List Ty} {target : Option Uid} {nullable : Bool}
    {tags : Provenance} :
    (Ty.named name args target nullable tags).Every P ↔
      P (.type (.named name args target nullable tags)) ∧ ∀ t ∈ args, t.Every P := by
  rw [Ty.Every, Ty.walk_named, List.forall_mem_cons, Ty.forall_mem_walkAll]

theorem Ty.every_function {params : List Param} {result : Option Ty} {nullable : Bool}
    {tags : Provenance} :
    (Ty.function params result nullable tags).Every P ↔
      P (.type (.function params result nullable tags)) ∧ (∀ p ∈ params, p.Every P) ∧
        ∀ t ∈ result, t.Every P := by
  rw [Ty.Every, Ty.walk_function, List.forall_mem_cons, List.forall_mem_append,
    Param.forall_mem_walkAll, Ty.forall_mem_walkSlot]

theorem Ty.every_union {alternatives : List Ty} {nullable : Bool} {tags : Provenance} :
    (Ty.union alternatives nullable tags).Every P ↔
      P (.type (.union alternatives nullable tags)) ∧ ∀ t ∈ alternatives, t.Every P := by
  rw [Ty.Every, Ty.walk_union, List.forall_mem_cons, Ty.forall_mem_walkAll]

theorem Ty.every_self {nullable : Bool} {tags : Provenance} :
    (Ty.self nullable tags).Every P ↔ P (.type (.self nullable tags)) := by
  rw [Ty.Every, Ty.walk_self, List.forall_mem_singleton]

theorem Ty.every_generated {name : Name} {typeParams : List TypeParam} {target : Option Uid}
    {nullable : Bool} {tags : Provenance} :
    (Ty.generated name typeParams target nullable tags).Every P ↔
      P (.type (.generated name typeParams target nullable tags)) ∧
        ∀ p ∈ typeParams, p.Every P := by
  rw [Ty.Every, Ty.walk_generated, List.forall_mem_cons, TypeParam.forall_mem_walkAll]

theorem Ty.every_foreign {label : String} :
    (Ty.foreign label).Every P ↔ P (.type (.foreign label)) := by
  rw [Ty.Every, Ty.walk_foreign, List.forall_mem_singleton]

theorem Param.every_iff {p : Param} :
    p.Every P ↔ P (.param p) ∧ ∀ t ∈ p.type, t.Every P := by
  cases p
  rw [Param.Every, Param.walk_mk, List.forall_mem_cons, Ty.forall_mem_walkSlot]

theorem TypeParam.every_iff {p : TypeParam} :
    p.Every P ↔ P (.typeParam p) ∧ (∀ t ∈ p.constraints, t.Every P) ∧
      ∀ t ∈ p.default, t.Every P := by
  cases p
  rw [TypeParam.Every, TypeParam.walk_mk, List.forall_mem_cons,
    List.forall_mem_append, Ty.forall_mem_walkAll, Ty.forall_mem_walkSlot]

theorem Heritage.every_iff {h : Heritage} :
    h.Every P ↔ P (.heritage h) ∧ ∀ t ∈ h.args, t.Every P := by
  rw [Heritage.Every, Heritage.walk_eq, List.forall_mem_cons, Ty.forall_mem_walkAll]

theorem Function.every_iff {f : Function} :
    f.Every P ↔ P (.function f) ∧ (∀ p ∈ f.typeParams, p.Every P) ∧
      (∀ p ∈ f.params, p.Every P) ∧ ∀ t ∈ f.result, t.Every P := by
  rw [Function.Every, Function.walk_eq, List.forall_mem_cons, List.forall_mem_append,
    List.forall_mem_append, TypeParam.forall_mem_walkAll, Param.forall_mem_walkAll,
    Ty.forall_mem_walkSlot, and_assoc]

theorem Member.every_method {m : Method} :
    (Member.method m).Every P ↔ P (.method m) ∧ (∀ p ∈ m.typeParams, p.Every P) ∧
      (∀ p ∈ m.params, p.Every P) ∧ ∀ t ∈ m.result, t.Every P := by
  rw [Member.Every, Member.walk_method, List.forall_mem_cons, List.forall_mem_append,
    List.forall_mem_append, TypeParam.forall_mem_walkAll, Param.forall_mem_walkAll,
    Ty.forall_mem_walkSlot, and_assoc]

theorem Member.every_property {p : Property} :
    (Member.property p).Every P ↔ P (.property p) ∧ (∀ q ∈ p.typeParams, q.Every P) ∧
      ∀ t ∈ p.type, t.Every P := by
  rw [Member.Every, Member.walk_property, List.forall_mem_cons, List.forall_mem_append,
    TypeParam.forall_mem_walkAll, Ty.forall_mem_walkSlot]

theorem Member.every_constructor {c : Constructor} :
    (Member.constructor c).Every P ↔ P (.constructor c) ∧ (∀ p ∈ c.typeParams, p.Every P) ∧
      ∀ p ∈ c.params, p.Every P := by
  rw [Member.Every, Member.walk_constructor, List.forall_mem_cons, List.forall_mem_append,
    TypeParam.forall_mem_walkAll, Param.forall_mem_walkAll]

theorem Member.every_function {f : Function} : (Member.function f).Every P ↔ f.Every P := by
  rw [Member.Every, Member.walk_function, Function.Every]

theorem Member.every_classLike {head : ClassHead} {members : List Member} :
    (Member.classLike head members).Every P ↔
      P (.classLike head members) ∧ (∀ p ∈ head.typeParams, p.Every P) ∧
        (∀ h ∈ head.parents, h.Every P) ∧ ∀ m ∈ members, m.Every P := by
  rw [Member.Every, Member.walk_classLike, List.forall_mem_cons, List.forall_mem_append,
    List.forall_mem_append, TypeParam.forall_mem_walkAll, Heritage.forall_mem_flatMap,
    Member.forall_mem_walkAll, and_assoc]

theorem Decl.every_module {m : Module} : (Decl.module m).Every P ↔ m.Every P := by
  rw [Decl.Every, Decl.walk_module, Module.Every, Module.nodes]

theorem Decl.every_classLike {head : ClassHead} {members : List Member} :
    (Decl.classLike head members).Every P ↔ (Member.classLike head members).Every P := by
  rw [Decl.Every, Decl.walk_classLike, Member.Every]

theorem Decl.every_function {f : Function} : (Decl.function f).Every P ↔ f.Every P := by
  rw [Decl.Every, Decl.walk_function, Function.Every]

theorem Decl.every_var {v : Variable} :
    (Decl.var v).Every P ↔ P (.var v) ∧ ∀ t ∈ v.type, t.Every P := by
  rw [Decl.Every, Decl.walk_var, List.forall_mem_cons, Ty.forall_mem_walkSlot]

theorem Decl.every_typeAlias {a : TypeAlias} :
    (Decl.typeAlias a).Every P ↔ P (.typeAlias a) ∧ (∀ p ∈ a.typeParams, p.Every P) ∧
      ∀ t ∈ a.type, t.Every P := by
  rw [Decl.Every, Decl.walk_typeAlias, List.forall_mem_cons, List.forall_mem_append,
    TypeParam.forall_mem_walkAll, Ty.forall_mem_walkSlot]

theorem Decl.every_enum {e : Enum} : (Decl.enum e).Every P ↔ P (.enum e) := by
  rw [Decl.Every, Decl.walk_enum, List.forall_mem_singleton]

theorem Decl.every_foreign {label : String} :
    (Decl.foreign label).Every P ↔ P (.foreign label) := by
  rw [Decl.Every, Decl.walk_foreign, List.forall_mem_singleton]

theorem Module.every_iff {m : Module} :
    m.Every P ↔ P (.module m) ∧ (∀ d ∈ m.declarations, d.Every P) ∧
      ∀ s ∈ m.submodules, s.Every P := by
  cases m
  rw [Module.Every, Module.nodes, Module.walk_mk, List.forall_mem_cons,
    List.forall_mem_append, Decl.forall_mem_walkAll, Module.forall_mem_walkAll]

/-! ### Everything below a node -/

/-- The condition holds of a node and of everything below it. -/
def Node.Every (P : Node → Prop) : Node → Prop
  | .module m => m.Every P
  | .classLike head members => (Member.classLike head members).Every P
  | .function f => f.Every P
  | .var v => (Decl.var v).Every P
  | .typeAlias a => (Decl.typeAlias a).Every P
  | .enum e => (Decl.enum e).Every P
  | .foreign label => P (.foreign label)
  | .method m => (Member.method m).Every P
  | .property p => (Member.property p).Every P
  | .constructor c => (Member.constructor c).Every P
  | .type t => t.Every P
  | .param p => p.Every P
  | .typeParam p => p.Every P
  | .heritage h => h.Every P
  | .missing => P .missing

theorem types_every_every :
    TypeStorey (fun t ↦ t.Every P → t.Every (Node.Every P))
      (fun p ↦ p.Every P → p.Every (Node.Every P))
      (fun p ↦ p.Every P → p.Every (Node.Every P)) where
  named name args target nullable tags hargs h := by
    have hbelow := (Ty.every_named.mp h).2
    exact Ty.every_named.mpr ⟨h, fun t ht ↦ hargs t ht (hbelow t ht)⟩
  function params result nullable tags hparams hresult h := by
    obtain ⟨-, hbelowParams, hbelowResult⟩ := Ty.every_function.mp h
    exact Ty.every_function.mpr ⟨h, fun p hp ↦ hparams p hp (hbelowParams p hp),
      fun t ht ↦ hresult t ht (hbelowResult t ht)⟩
  union alternatives nullable tags halternatives h := by
    have hbelow := (Ty.every_union.mp h).2
    exact Ty.every_union.mpr ⟨h, fun t ht ↦ halternatives t ht (hbelow t ht)⟩
  self nullable tags h := Ty.every_self.mpr h
  generated name typeParams target nullable tags htypeParams h := by
    have hbelow := (Ty.every_generated.mp h).2
    exact Ty.every_generated.mpr ⟨h, fun p hp ↦ htypeParams p hp (hbelow p hp)⟩
  foreign label h := Ty.every_foreign.mpr h
  param name type isOptional isVararg htype h := by
    have hbelow := (Param.every_iff.mp h).2
    exact Param.every_iff.mpr ⟨h, fun t ht ↦ htype t ht (hbelow t ht)⟩
  typeParam name constraints default hconstraints hdefault h := by
    obtain ⟨-, hbelowConstraints, hbelowDefault⟩ := TypeParam.every_iff.mp h
    exact TypeParam.every_iff.mpr ⟨h, fun t ht ↦ hconstraints t ht (hbelowConstraints t ht),
      fun t ht ↦ hdefault t ht (hbelowDefault t ht)⟩

theorem Ty.every_every {t : Ty} : t.Every P → t.Every (Node.Every P) :=
  types_every_every.forType t

theorem Param.every_every {p : Param} : p.Every P → p.Every (Node.Every P) :=
  types_every_every.forParam p

theorem TypeParam.every_every {p : TypeParam} : p.Every P → p.Every (Node.Every P) :=
  types_every_every.forTypeParam p

theorem Heritage.every_every {x : Heritage} (h : x.Every P) : x.Every (Node.Every P) := by
  have hbelow := (Heritage.every_iff.mp h).2
  exact Heritage.every_iff.mpr ⟨h, fun t ht ↦ Ty.every_every (hbelow t ht)⟩

theorem Function.every_every {f : Function} (h : f.Every P) : f.Every (Node.Every P) := by
  obtain ⟨-, htypeParams, hparams, hresult⟩ := Function.every_iff.mp h
  exact Function.every_iff.mpr ⟨h, fun p hp ↦ TypeParam.every_every (htypeParams p hp),
    fun p hp ↦ Param.every_every (hparams p hp), fun t ht ↦ Ty.every_every (hresult t ht)⟩

theorem members_every_every : MemberStorey fun m ↦ m.Every P → m.Every (Node.Every P) where
  method m h := by
    obtain ⟨-, htypeParams, hparams, hresult⟩ := Member.every_method.mp h
    exact Member.every_method.mpr ⟨h, fun p hp ↦ TypeParam.every_every (htypeParams p hp),
      fun p hp ↦ Param.every_every (hparams p hp), fun t ht ↦ Ty.every_every (hresult t ht)⟩
  property p h := by
    obtain ⟨-, htypeParams, htype⟩ := Member.every_property.mp h
    exact Member.every_property.mpr ⟨h, fun q hq ↦ TypeParam.every_every (htypeParams q hq),
      fun t ht ↦ Ty.every_every (htype t ht)⟩
  constructor c h := by
    obtain ⟨-, htypeParams, hparams⟩ := Member.every_constructor.mp h
    exact Member.every_constructor.mpr ⟨h, fun p hp ↦ TypeParam.every_every (htypeParams p hp),
      fun p hp ↦ Param.every_every (hparams p hp)⟩
  function f h := Member.every_function.mpr (Function.every_every (Member.every_function.mp h))
  classLike head members hmembers h := by
    obtain ⟨-, htypeParams, hparents, hbelow⟩ := Member.every_classLike.mp h
    exact Member.every_classLike.mpr ⟨h, fun p hp ↦ TypeParam.every_every (htypeParams p hp),
      fun x hx ↦ Heritage.every_every (hparents x hx), fun m hm ↦ hmembers m hm (hbelow m hm)⟩

theorem modules_every_every :
    ModuleStorey (fun d ↦ d.Every P → d.Every (Node.Every P))
      (fun m ↦ m.Every P → m.Every (Node.Every P)) where
  module m hm h := Decl.every_module.mpr (hm (Decl.every_module.mp h))
  classLike head members h :=
    Decl.every_classLike.mpr (members_every_every.forMember _ (Decl.every_classLike.mp h))
  function f h := Decl.every_function.mpr (Function.every_every (Decl.every_function.mp h))
  var v h := by
    have htype := (Decl.every_var.mp h).2
    exact Decl.every_var.mpr ⟨h, fun t ht ↦ Ty.every_every (htype t ht)⟩
  typeAlias a h := by
    obtain ⟨-, htypeParams, htype⟩ := Decl.every_typeAlias.mp h
    exact Decl.every_typeAlias.mpr ⟨h, fun p hp ↦ TypeParam.every_every (htypeParams p hp),
      fun t ht ↦ Ty.every_every (htype t ht)⟩
  enum e h := Decl.every_enum.mpr h
  foreign label h := by
    have hlabel : P (.foreign label) := Decl.every_foreign.mp h
    exact Decl.every_foreign.mpr hlabel
  missing _ := nofun
  node head declarations submodules hdeclarations hsubmodules h := by
    obtain ⟨-, hbelowDecls, hbelowModules⟩ := Module.every_iff.mp h
    exact Module.every_iff.mpr ⟨h, fun d hd ↦ hdeclarations d hd (hbelowDecls d hd),
      fun m hm ↦ hsubmodules m hm (hbelowModules m hm)⟩

/-- What holds of every node of a tree holds of everything below each of them. -/
theorem Module.every_every {m : Module} : m.Every P → m.Every (Node.Every P) :=
  modules_every_every.forModule m

/-! ### Known trees -/

/-- Whether the traversal knows a node: it is not from outside, and no declaration of it is
missing. -/
def Node.isKnown : Node → Bool
  | .module m => m.declarations.all fun
    | .missing => false
    | _ => true
  | .foreign _ => false
  | .type (.foreign _) => false
  | .missing => false
  | _ => true

theorem ne_missing_of_isKnown {m : Module} {d : Decl} (hm : (Node.module m).isKnown)
    (hd : d ∈ m.declarations) : d ≠ .missing := by
  rintro rfl
  have := List.all_eq_true.mp hm _ hd
  contradiction

theorem isKnown_of_ne_missing {m : Module} (hm : ∀ d ∈ m.declarations, d ≠ .missing) :
    (Node.module m).isKnown := by
  refine List.all_eq_true.mpr fun d hd ↦ ?_
  cases d with
  | missing => exact absurd rfl (hm _ hd)
  | _ => rfl

instance [DecidablePred P] (m : Module) : Decidable (m.Every P) :=
  inferInstanceAs (Decidable (∀ n ∈ m.nodes, P n))

/-- Every node of the tree is one that the traversal knows. -/
def Module.IsKnown (m : Module) : Prop := m.Every fun n ↦ n.isKnown

instance (m : Module) : Decidable m.IsKnown :=
  inferInstanceAs (Decidable (m.Every fun n ↦ n.isKnown))

end DeclTree
