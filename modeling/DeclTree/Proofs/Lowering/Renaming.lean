import DeclTree.Proofs.Lowering.Composition

/-!
# Renamings

A renaming is a rewriting that treats identifiers and tokens alike and keeps self types. It does
not look at the scope, so `Module.renamed` and its companions leave the scope out;
`Ty.renamed_named`, `Member.renamed_classLike`, `Module.renamed_mk` and the equations beside them
say what they do at a node. Renaming twice is renaming once, a case of
`Module.rewrite_rewrite_eq_iff`, and the nodes of a renamed tree are the nodes of the tree, each
renamed.
-/

set_option autoImplicit false
set_option relaxedAutoImplicit false

namespace DeclTree

open SelfType (Scope)

/-- The rewriting that changes identifiers and tokens by one function, and nothing else. -/
def Rewriting.renaming (f : String → String) : Rewriting where
  rename := f
  token := f
  self := fun _ nullable tags ↦ .self nullable tags

def Ty.renamed (f : String → String) (t : Ty) : Ty := t.rewrite (.renaming f) none

def Param.renamed (f : String → String) (p : Param) : Param := p.rewrite (.renaming f) none

def TypeParam.renamed (f : String → String) (p : TypeParam) : TypeParam :=
  p.rewrite (.renaming f) none

def Heritage.renamed (f : String → String) (h : Heritage) : Heritage :=
  h.rewrite (.renaming f) none

def Function.renamed (f : String → String) (x : Function) : Function := x.rewrite (.renaming f)

def Variable.renamed (f : String → String) (v : Variable) : Variable :=
  v.rewrite (.renaming f) none

def TypeAlias.renamed (f : String → String) (a : TypeAlias) : TypeAlias :=
  a.rewrite (.renaming f) none

def Enum.renamed (f : String → String) (e : Enum) : Enum := e.rewrite (.renaming f)

def Method.renamed (f : String → String) (m : Method) : Method := m.rewrite (.renaming f) none

def Property.renamed (f : String → String) (p : Property) : Property :=
  p.rewrite (.renaming f) none

def Constructor.renamed (f : String → String) (c : Constructor) : Constructor :=
  c.rewrite (.renaming f) none

def ClassHead.renamed (f : String → String) (head : ClassHead) : ClassHead :=
  head.rewrite (.renaming f) none

def Member.renamed (f : String → String) (m : Member) : Member := m.rewrite (.renaming f) none

def Decl.renamed (f : String → String) (d : Decl) : Decl := d.rewrite (.renaming f) none

/-- The tree with every identifier and every token changed by one function. -/
def Module.renamed (f : String → String) (m : Module) : Module := m.rewrite (.renaming f) none

variable {f : String → String}

/-! ### The scope does not matter -/

theorem types_rewrite_renaming (f : String → String) :
    TypeStorey
      (fun t ↦ ∀ scope, t.rewrite (.renaming f) scope = t.renamed f)
      (fun p ↦ ∀ scope, p.rewrite (.renaming f) scope = p.renamed f)
      (fun p ↦ ∀ scope, p.rewrite (.renaming f) scope = p.renamed f) where
  named name args target nullable tags hargs scope := by
    have hlist := List.map_congr_left fun t ht ↦ hargs t ht scope
    rw [Ty.renamed, Ty.rewrite, Ty.rewrite, Ty.rewriteAll_eq_map, Ty.rewriteAll_eq_map, hlist]
    rfl
  function params result nullable tags hparams hresult scope := by
    have hlist := List.map_congr_left fun p hp ↦ hparams p hp scope
    have hslot := Option.map_congr fun t ht ↦ hresult t ht scope
    rw [Ty.renamed, Ty.rewrite, Ty.rewrite, Param.rewriteAll_eq_map, Param.rewriteAll_eq_map,
      Ty.rewriteSlot_eq_map, Ty.rewriteSlot_eq_map, hlist, hslot]
    rfl
  union alternatives nullable tags halternatives scope := by
    have hlist := List.map_congr_left fun t ht ↦ halternatives t ht scope
    rw [Ty.renamed, Ty.rewrite, Ty.rewrite, Ty.rewriteAll_eq_map, Ty.rewriteAll_eq_map, hlist]
    rfl
  self nullable tags scope := rfl
  generated name typeParams target nullable tags htypeParams scope := by
    have hlist := List.map_congr_left fun p hp ↦ htypeParams p hp scope
    rw [Ty.renamed, Ty.rewrite, Ty.rewrite, TypeParam.rewriteAll_eq_map,
      TypeParam.rewriteAll_eq_map, hlist]
    rfl
  foreign label scope := rfl
  param name type isOptional isVararg htype scope := by
    have hslot := Option.map_congr fun t ht ↦ htype t ht scope
    rw [Param.renamed, Param.rewrite, Param.rewrite, Ty.rewriteSlot_eq_map,
      Ty.rewriteSlot_eq_map, hslot]
    rfl
  typeParam name constraints default hconstraints hdefault scope := by
    have hlist := List.map_congr_left fun t ht ↦ hconstraints t ht scope
    have hslot := Option.map_congr fun t ht ↦ hdefault t ht scope
    rw [TypeParam.renamed, TypeParam.rewrite, TypeParam.rewrite, Ty.rewriteAll_eq_map,
      Ty.rewriteAll_eq_map, Ty.rewriteSlot_eq_map, Ty.rewriteSlot_eq_map, hlist, hslot]
    rfl

theorem Ty.rewrite_renaming (scope : Option Scope) :
    Ty.rewrite (.renaming f) scope = Ty.renamed f :=
  funext fun t ↦ (types_rewrite_renaming f).forType t scope

theorem Param.rewrite_renaming (scope : Option Scope) :
    Param.rewrite (.renaming f) scope = Param.renamed f :=
  funext fun p ↦ (types_rewrite_renaming f).forParam p scope

theorem TypeParam.rewrite_renaming (scope : Option Scope) :
    TypeParam.rewrite (.renaming f) scope = TypeParam.renamed f :=
  funext fun p ↦ (types_rewrite_renaming f).forTypeParam p scope

theorem Heritage.rewrite_renaming (scope : Option Scope) :
    Heritage.rewrite (.renaming f) scope = Heritage.renamed f := by
  funext h
  rw [Heritage.renamed, Heritage.rewrite, Heritage.rewrite, Ty.rewrite_renaming,
    Ty.rewrite_renaming]

theorem ClassHead.rewrite_renaming (scope : Option Scope) :
    ClassHead.rewrite (.renaming f) scope = ClassHead.renamed f := by
  funext head
  simp only [ClassHead.renamed, ClassHead.rewrite, TypeParam.rewrite_renaming,
    Heritage.rewrite_renaming]

theorem members_rewrite_renaming (f : String → String) :
    MemberStorey fun m ↦ ∀ scope, m.rewrite (.renaming f) scope = m.renamed f where
  method m scope := by
    simp only [Member.renamed, Member.rewrite, Method.rewrite, TypeParam.rewrite_renaming,
      Param.rewrite_renaming, Ty.rewrite_renaming]
  property p scope := by
    simp only [Member.renamed, Member.rewrite, Property.rewrite, TypeParam.rewrite_renaming,
      Ty.rewrite_renaming]
  constructor c scope := by
    simp only [Member.renamed, Member.rewrite, Constructor.rewrite, TypeParam.rewrite_renaming,
      Param.rewrite_renaming]
  function x scope := rfl
  classLike head members hmembers scope := by
    have hlist : ∀ scope, members.map (Member.rewrite (.renaming f) scope) =
        members.map (Member.renamed f) :=
      fun scope ↦ List.map_congr_left fun m hm ↦ hmembers m hm scope
    rw [Member.renamed, Member.rewrite, Member.rewrite, ClassHead.rewrite_renaming,
      ClassHead.rewrite_renaming, Member.rewriteAll_eq_map, Member.rewriteAll_eq_map, hlist, hlist]

theorem Member.rewrite_renaming (scope : Option Scope) :
    Member.rewrite (.renaming f) scope = Member.renamed f :=
  funext fun m ↦ (members_rewrite_renaming f).forMember m scope

theorem modules_rewrite_renaming (f : String → String) :
    ModuleStorey
      (fun d ↦ ∀ scope, d.rewrite (.renaming f) scope = d.renamed f)
      (fun m ↦ ∀ scope, m.rewrite (.renaming f) scope = m.renamed f) where
  module m hm scope := congrArg Decl.module (hm scope)
  classLike head members scope := by
    rw [Decl.renamed, Decl.rewrite, Decl.rewrite, ClassHead.rewrite_renaming,
      ClassHead.rewrite_renaming, Member.rewriteAll_eq_map, Member.rewriteAll_eq_map,
      Member.rewrite_renaming, Member.rewrite_renaming]
  function x scope := rfl
  var v scope := by
    simp only [Decl.renamed, Decl.rewrite, Variable.rewrite, Ty.rewrite_renaming]
  typeAlias a scope := by
    simp only [Decl.renamed, Decl.rewrite, TypeAlias.rewrite, TypeParam.rewrite_renaming,
      Ty.rewrite_renaming]
  enum e scope := rfl
  foreign label scope := rfl
  missing scope := rfl
  node head declarations submodules hdeclarations hsubmodules scope := by
    have hdecls : declarations.map (Decl.rewrite (.renaming f) scope) =
        declarations.map (Decl.renamed f) :=
      List.map_congr_left fun d hd ↦ hdeclarations d hd scope
    have hmodules : submodules.map (Module.rewrite (.renaming f) scope) =
        submodules.map (Module.renamed f) :=
      List.map_congr_left fun m hm ↦ hsubmodules m hm scope
    rw [Module.renamed, Module.rewrite, Module.rewrite, Decl.rewriteAll_eq_map,
      Decl.rewriteAll_eq_map, Module.rewriteAll_eq_map, Module.rewriteAll_eq_map, hdecls, hmodules]
    rfl

/-! ### Renaming at a node -/

section Equations

@[simp] theorem Ty.renamed_named (name : Name) (args : List Ty) (target : Option Uid)
    (nullable : Bool) (tags : Provenance) :
    (Ty.named name args target nullable tags).renamed f =
      .named (name.map f) (args.map (Ty.renamed f)) target nullable tags := by
  show Ty.named _ (Ty.rewriteAll _ _ args) _ _ _ = _
  rw [Ty.rewriteAll_eq_map]
  rfl

@[simp] theorem Ty.renamed_function (params : List Param) (result : Option Ty) (nullable : Bool)
    (tags : Provenance) :
    (Ty.function params result nullable tags).renamed f =
      .function (params.map (Param.renamed f)) (result.map (Ty.renamed f)) nullable tags := by
  show Ty.function (Param.rewriteAll _ _ params) (Ty.rewriteSlot _ _ result) _ _ = _
  rw [Param.rewriteAll_eq_map, Ty.rewriteSlot_eq_map]
  rfl

@[simp] theorem Ty.renamed_union (alternatives : List Ty) (nullable : Bool) (tags : Provenance) :
    (Ty.union alternatives nullable tags).renamed f =
      .union (alternatives.map (Ty.renamed f)) nullable tags := by
  show Ty.union (Ty.rewriteAll _ _ alternatives) _ _ = _
  rw [Ty.rewriteAll_eq_map]
  rfl

@[simp] theorem Ty.renamed_self (nullable : Bool) (tags : Provenance) :
    (Ty.self nullable tags).renamed f = .self nullable tags := rfl

@[simp] theorem Ty.renamed_generated (name : Name) (typeParams : List TypeParam)
    (target : Option Uid) (nullable : Bool) (tags : Provenance) :
    (Ty.generated name typeParams target nullable tags).renamed f =
      .generated (name.map f) (typeParams.map (TypeParam.renamed f)) target nullable tags := by
  show Ty.generated _ (TypeParam.rewriteAll _ _ typeParams) _ _ _ = _
  rw [TypeParam.rewriteAll_eq_map]
  rfl

@[simp] theorem Ty.renamed_foreign (label : String) :
    (Ty.foreign label).renamed f = .foreign label := rfl

@[simp] theorem Param.renamed_mk (name : String) (type : Option Ty) (isOptional isVararg : Bool) :
    (Param.mk name type isOptional isVararg).renamed f =
      ⟨f name, type.map (Ty.renamed f), isOptional, isVararg⟩ := by
  show Param.mk _ (Ty.rewriteSlot _ _ type) _ _ = _
  rw [Ty.rewriteSlot_eq_map]
  rfl

@[simp] theorem TypeParam.renamed_mk (name : Name) (constraints : List Ty) (default : Option Ty) :
    (TypeParam.mk name constraints default).renamed f =
      ⟨name.map f, constraints.map (Ty.renamed f), default.map (Ty.renamed f)⟩ := by
  show TypeParam.mk _ (Ty.rewriteAll _ _ constraints) (Ty.rewriteSlot _ _ default) = _
  rw [Ty.rewriteAll_eq_map, Ty.rewriteSlot_eq_map]
  rfl

@[simp] theorem Heritage.renamed_mk (name : Name) (args : List Ty) (target : Option Uid) :
    (Heritage.mk name args target).renamed f =
      ⟨name.map f, args.map (Ty.renamed f), target⟩ := rfl

theorem Function.renamed_eq (x : Function) :
    x.renamed f =
      { x with
        name := x.name.map f
        typeParams := x.typeParams.map (TypeParam.renamed f)
        params := x.params.map (Param.renamed f)
        result := x.result.map (Ty.renamed f)
        receiver := x.receiver.map (Receiver.rename f) } := by
  rw [Function.renamed, Function.rewrite, TypeParam.rewrite_renaming, Param.rewrite_renaming,
    Ty.rewrite_renaming]
  rfl

theorem Variable.renamed_eq (v : Variable) :
    v.renamed f =
      { v with
        name := v.name.map f
        type := v.type.map (Ty.renamed f)
        receiver := v.receiver.map (Receiver.rename f) } := rfl

theorem TypeAlias.renamed_eq (a : TypeAlias) :
    a.renamed f =
      { a with
        name := a.name.map f
        typeParams := a.typeParams.map (TypeParam.renamed f)
        type := a.type.map (Ty.renamed f) } := rfl

theorem Enum.renamed_eq (e : Enum) :
    e.renamed f =
      { e with
        name := e.name.map f
        tokens := e.tokens.map fun t ↦ { t with value := f t.value } } := rfl

theorem Method.renamed_eq (m : Method) :
    m.renamed f =
      { m with
        name := f m.name
        typeParams := m.typeParams.map (TypeParam.renamed f)
        params := m.params.map (Param.renamed f)
        result := m.result.map (Ty.renamed f) } := rfl

theorem Property.renamed_eq (p : Property) :
    p.renamed f =
      { p with
        name := f p.name
        typeParams := p.typeParams.map (TypeParam.renamed f)
        type := p.type.map (Ty.renamed f) } := rfl

theorem Constructor.renamed_eq (c : Constructor) :
    c.renamed f =
      ⟨c.typeParams.map (TypeParam.renamed f), c.params.map (Param.renamed f)⟩ := rfl

theorem ClassHead.renamed_eq (head : ClassHead) :
    head.renamed f =
      { head with
        form := head.form.withTypeParams (head.typeParams.map (TypeParam.renamed f))
        name := head.name.map f
        parents := head.parents.map (Heritage.renamed f) } := by
  rw [ClassHead.renamed, ClassHead.rewrite, TypeParam.rewrite_renaming, Heritage.rewrite_renaming]
  rfl

@[simp] theorem Member.renamed_method (m : Method) :
    (Member.method m).renamed f = .method (m.renamed f) := rfl

@[simp] theorem Member.renamed_property (p : Property) :
    (Member.property p).renamed f = .property (p.renamed f) := rfl

@[simp] theorem Member.renamed_constructor (c : Constructor) :
    (Member.constructor c).renamed f = .constructor (c.renamed f) := rfl

@[simp] theorem Member.renamed_function (x : Function) :
    (Member.function x).renamed f = .function (x.renamed f) := rfl

@[simp] theorem Member.renamed_classLike (head : ClassHead) (members : List Member) :
    (Member.classLike head members).renamed f =
      .classLike (head.renamed f) (members.map (Member.renamed f)) := by
  show Member.classLike _ (Member.rewriteAll _ _ members) = _
  rw [Member.rewriteAll_eq_map, Member.rewrite_renaming]
  rfl

@[simp] theorem Decl.renamed_module (m : Module) :
    (Decl.module m).renamed f = .module (m.renamed f) := rfl

@[simp] theorem Decl.renamed_classLike (head : ClassHead) (members : List Member) :
    (Decl.classLike head members).renamed f =
      .classLike (head.renamed f) (members.map (Member.renamed f)) := by
  show Decl.classLike _ (Member.rewriteAll _ _ members) = _
  rw [Member.rewriteAll_eq_map, Member.rewrite_renaming]
  rfl

@[simp] theorem Decl.renamed_function (x : Function) :
    (Decl.function x).renamed f = .function (x.renamed f) := rfl

@[simp] theorem Decl.renamed_var (v : Variable) :
    (Decl.var v).renamed f = .var (v.renamed f) := rfl

@[simp] theorem Decl.renamed_typeAlias (a : TypeAlias) :
    (Decl.typeAlias a).renamed f = .typeAlias (a.renamed f) := rfl

@[simp] theorem Decl.renamed_enum (e : Enum) :
    (Decl.enum e).renamed f = .enum (e.renamed f) := rfl

@[simp] theorem Decl.renamed_foreign (label : String) :
    (Decl.foreign label).renamed f = .foreign label := rfl

@[simp] theorem Decl.renamed_missing : Decl.missing.renamed f = .missing := rfl

@[simp] theorem Module.renamed_mk (head : ModuleHead) (declarations : List Decl)
    (submodules : List Module) :
    (Module.mk head declarations submodules).renamed f =
      ⟨head.rename f, declarations.map (Decl.renamed f), submodules.map (Module.renamed f)⟩ := by
  show Module.mk _ (Decl.rewriteAll _ _ declarations) (Module.rewriteAll _ _ submodules) = _
  rw [Decl.rewriteAll_eq_map, Module.rewriteAll_eq_map]
  rfl

end Equations

/-! ### Renaming twice -/

/-- Renaming twice is renaming once. -/
theorem Module.renamed_renamed (f g : String → String) (m : Module) :
    (m.renamed f).renamed g = m.renamed (g ∘ f) :=
  (Module.rewrite_rewrite_eq_iff rfl rfl m).mpr fun _ _ _ _ _ ↦ rfl

/-! ### The nodes of a renamed tree -/

def Node.renamed (f : String → String) : Node → Node
  | .module m => .module (m.renamed f)
  | .classLike head members => .classLike (head.renamed f) (members.map (Member.renamed f))
  | .function x => .function (x.renamed f)
  | .var v => .var (v.renamed f)
  | .typeAlias a => .typeAlias (a.renamed f)
  | .enum e => .enum (e.renamed f)
  | .foreign label => .foreign label
  | .method m => .method (m.renamed f)
  | .property p => .property (p.renamed f)
  | .constructor c => .constructor (c.renamed f)
  | .type t => .type (t.renamed f)
  | .param p => .param (p.renamed f)
  | .typeParam p => .typeParam (p.renamed f)
  | .heritage h => .heritage (h.renamed f)
  | .missing => .missing

theorem Member.node_renamed (m : Member) : (m.renamed f).node = m.node.renamed f := by
  cases m with
  | classLike head members => rw [Member.renamed_classLike]; rfl
  | _ => rfl

theorem Decl.node_renamed (d : Decl) : (d.renamed f).node = d.node.renamed f := by
  cases d with
  | classLike head members => rw [Decl.renamed_classLike]; rfl
  | _ => rfl

theorem Node.rewrite_renaming (scope : Option Scope) (n : Node) :
    n.rewrite (.renaming f) scope = n.renamed f := by
  have hmember : ∀ m : Member, (m.rewrite (.renaming f) scope).node = (m.renamed f).node :=
    fun m ↦ congrArg Member.node ((members_rewrite_renaming f).forMember m scope)
  have hdecl : ∀ d : Decl, (d.rewrite (.renaming f) scope).node = (d.renamed f).node :=
    fun d ↦ congrArg Decl.node ((modules_rewrite_renaming f).forDecl d scope)
  cases n with
  | module m => exact hdecl (.module m)
  | classLike head members =>
    rw [Node.rewrite, ClassHead.rewrite_renaming, Member.rewrite_renaming]
    rfl
  | var v => exact hdecl (.var v)
  | typeAlias a => exact hdecl (.typeAlias a)
  | method m => exact hmember (.method m)
  | property p => exact hmember (.property p)
  | constructor c => exact hmember (.constructor c)
  | type t => exact congrArg Node.type (congrFun (Ty.rewrite_renaming scope) t)
  | param p => exact congrArg Node.param (congrFun (Param.rewrite_renaming scope) p)
  | typeParam p => exact congrArg Node.typeParam (congrFun (TypeParam.rewrite_renaming scope) p)
  | heritage h => exact congrArg Node.heritage (congrFun (Heritage.rewrite_renaming scope) h)
  | _ => rfl

/-- The walk of a renamed node is the walk of the node, with every node renamed. -/
theorem Node.nodes_renamed (f : String → String) (n : Node) :
    (n.renamed f).nodes = n.nodes.map (Node.renamed f) := by
  induction n using Node.induct with
  | step n ih =>
    cases hself : n.isSelfType with
    | true =>
      obtain ⟨nullable, tags, rfl⟩ := Node.isSelfType_iff.mp hself
      rfl
    | false =>
      by_cases hpresent : n = .missing
      · subst hpresent
        rfl
      · have hbelow : ∀ c ∈ n.children, (c.rewrite (.renaming f) (n.inner none)).nodes =
            c.nodes.map (Node.renamed f) := by
          intro c hc
          rw [Node.rewrite_renaming, ih c hc]
        rw [← Node.rewrite_renaming none, Node.nodes_rewrite hself hpresent,
          Node.nodes_eq hpresent, Node.rewrite_renaming, List.map_cons, List.map_flatMap,
          List.flatMap_congr hbelow]

/-- The nodes of a renamed tree are the nodes of the tree, in the same order and each renamed. -/
theorem Module.nodes_renamed (f : String → String) (m : Module) :
    (m.renamed f).nodes = m.nodes.map (Node.renamed f) :=
  Node.nodes_renamed f (.module m)

end DeclTree
