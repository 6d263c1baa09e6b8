import DeclTree.Tree.Node

/-!
# Induction over declaration trees

The tree has three storeys, and each of them nests its own nodes in lists. An induction over a
storey is packaged once, as a structure whose fields are the cases: a node may assume the property
of every node that its lists and slots hold. `TypeStorey.forType`, `MemberStorey.forMember` and
`ModuleStorey.forModule` draw the conclusions.
-/

set_option autoImplicit false
set_option relaxedAutoImplicit false

namespace DeclTree

/-! ### Types, parameters and type parameters -/

/-- The cases of an induction over types, parameters and type parameters. -/
structure TypeStorey (P : Ty → Prop) (Q : Param → Prop) (R : TypeParam → Prop) : Prop where
  named : ∀ name args target nullable tags, (∀ t ∈ args, P t) →
    P (.named name args target nullable tags)
  function : ∀ params result nullable tags, (∀ p ∈ params, Q p) → (∀ t ∈ result, P t) →
    P (.function params result nullable tags)
  union : ∀ alternatives nullable tags, (∀ t ∈ alternatives, P t) →
    P (.union alternatives nullable tags)
  self : ∀ nullable tags, P (.self nullable tags)
  generated : ∀ name typeParams target nullable tags, (∀ p ∈ typeParams, R p) →
    P (.generated name typeParams target nullable tags)
  foreign : ∀ label, P (.foreign label)
  param : ∀ name type isOptional isVararg, (∀ t ∈ type, P t) →
    Q ⟨name, type, isOptional, isVararg⟩
  typeParam : ∀ name constraints default, (∀ t ∈ constraints, P t) → (∀ t ∈ default, P t) →
    R ⟨name, constraints, default⟩

namespace TypeStorey

variable {P : Ty → Prop} {Q : Param → Prop} {R : TypeParam → Prop}

mutual

theorem forType (h : TypeStorey P Q R) : ∀ t, P t
  | .named name args target nullable tags =>
    h.named name args target nullable tags (forTypes h args)
  | .function params result nullable tags =>
    h.function params result nullable tags (forParams h params) (forSlot h result)
  | .union alternatives nullable tags =>
    h.union alternatives nullable tags (forTypes h alternatives)
  | .self nullable tags => h.self nullable tags
  | .generated name typeParams target nullable tags =>
    h.generated name typeParams target nullable tags (forTypeParams h typeParams)
  | .foreign label => h.foreign label

theorem forTypes (h : TypeStorey P Q R) : ∀ ts : List Ty, ∀ t ∈ ts, P t
  | [] => List.forall_mem_nil P
  | t :: ts => List.forall_mem_cons.mpr ⟨forType h t, forTypes h ts⟩

theorem forSlot (h : TypeStorey P Q R) : ∀ slot : Option Ty, ∀ t ∈ slot, P t
  | none => fun _ ht ↦ nomatch ht
  | some t => fun _ ht ↦ Option.mem_some.mp ht ▸ forType h t

theorem forParam (h : TypeStorey P Q R) : ∀ p, Q p
  | ⟨name, type, isOptional, isVararg⟩ => h.param name type isOptional isVararg (forSlot h type)

theorem forParams (h : TypeStorey P Q R) : ∀ ps : List Param, ∀ p ∈ ps, Q p
  | [] => List.forall_mem_nil Q
  | p :: ps => List.forall_mem_cons.mpr ⟨forParam h p, forParams h ps⟩

theorem forTypeParam (h : TypeStorey P Q R) : ∀ p, R p
  | ⟨name, constraints, default⟩ =>
    h.typeParam name constraints default (forTypes h constraints) (forSlot h default)

theorem forTypeParams (h : TypeStorey P Q R) : ∀ ps : List TypeParam, ∀ p ∈ ps, R p
  | [] => List.forall_mem_nil R
  | p :: ps => List.forall_mem_cons.mpr ⟨forTypeParam h p, forTypeParams h ps⟩

end

end TypeStorey

/-! ### Members -/

/-- The cases of an induction over members; only class-like declarations hold members again. -/
structure MemberStorey (P : Member → Prop) : Prop where
  method : ∀ m, P (.method m)
  property : ∀ p, P (.property p)
  constructor : ∀ c, P (.constructor c)
  function : ∀ f, P (.function f)
  classLike : ∀ head members, (∀ m ∈ members, P m) → P (.classLike head members)

namespace MemberStorey

variable {P : Member → Prop}

mutual

theorem forMember (h : MemberStorey P) : ∀ m, P m
  | .method m => h.method m
  | .property p => h.property p
  | .constructor c => h.constructor c
  | .function f => h.function f
  | .classLike head members => h.classLike head members (forMembers h members)

theorem forMembers (h : MemberStorey P) : ∀ ms : List Member, ∀ m ∈ ms, P m
  | [] => List.forall_mem_nil P
  | m :: ms => List.forall_mem_cons.mpr ⟨forMember h m, forMembers h ms⟩

end

end MemberStorey

/-! ### Declarations and modules -/

/-- The cases of an induction over declarations and modules. -/
structure ModuleStorey (P : Decl → Prop) (Q : Module → Prop) : Prop where
  module : ∀ m, Q m → P (.module m)
  classLike : ∀ head members, P (.classLike head members)
  function : ∀ f, P (.function f)
  var : ∀ v, P (.var v)
  typeAlias : ∀ a, P (.typeAlias a)
  enum : ∀ e, P (.enum e)
  foreign : ∀ label, P (.foreign label)
  missing : P .missing
  node : ∀ head declarations submodules, (∀ d ∈ declarations, P d) → (∀ m ∈ submodules, Q m) →
    Q ⟨head, declarations, submodules⟩

namespace ModuleStorey

variable {P : Decl → Prop} {Q : Module → Prop}

mutual

theorem forDecl (h : ModuleStorey P Q) : ∀ d, P d
  | .module m => h.module m (forModule h m)
  | .classLike head members => h.classLike head members
  | .function f => h.function f
  | .var v => h.var v
  | .typeAlias a => h.typeAlias a
  | .enum e => h.enum e
  | .foreign label => h.foreign label
  | .missing => h.missing

theorem forDecls (h : ModuleStorey P Q) : ∀ ds : List Decl, ∀ d ∈ ds, P d
  | [] => List.forall_mem_nil P
  | d :: ds => List.forall_mem_cons.mpr ⟨forDecl h d, forDecls h ds⟩

theorem forModule (h : ModuleStorey P Q) : ∀ m, Q m
  | ⟨head, declarations, submodules⟩ =>
    h.node head declarations submodules (forDecls h declarations) (forModules h submodules)

theorem forModules (h : ModuleStorey P Q) : ∀ ms : List Module, ∀ m ∈ ms, Q m
  | [] => List.forall_mem_nil Q
  | m :: ms => List.forall_mem_cons.mpr ⟨forModule h m, forModules h ms⟩

end

end ModuleStorey

end DeclTree
