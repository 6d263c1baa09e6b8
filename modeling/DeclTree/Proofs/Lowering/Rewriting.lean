import DeclTree.SelfType

/-!
# Rewritings

A rewriting says what becomes of the three things that the passes change: identifiers, the tokens
of enumerations, and self types. `Module.rewrite` applies one to a whole tree by plain recursion.
Nothing can fail in it and no owner chain is built. What it carries down instead is the scope of
self types, the innermost class, interface or function around the place where it is.

Class-like declarations other than objects and functions open a scope (`ClassHead.inner`,
`Function.inner`). Objects, aliases, variables, methods and modules leave it as it is.
-/

set_option autoImplicit false
set_option relaxedAutoImplicit false

namespace DeclTree

open SelfType (Scope)

structure Rewriting where
  /-- What becomes of an identifier. -/
  rename : String → String
  /-- What becomes of the value of a token. -/
  token : String → String
  /-- What becomes of a self type in a scope. -/
  self : Option Scope → Bool → Provenance → Ty

/-! ### Scopes -/

/-- The scope inside a class-like declaration: the declaration itself, unless it is an object. -/
def ClassHead.inner (head : ClassHead) (scope : Option Scope) : Option Scope :=
  match head.form with
  | .cls _ typeParams => some (.declared head.name (typeParams.map TypeParam.name) head.uid)
  | .interface true _ => some .generated
  | .interface false typeParams =>
    some (.declared head.name (typeParams.map TypeParam.name) head.uid)
  | .object => scope

/-- The scope inside a function: the function itself. -/
def Function.inner (f : Function) : Option Scope := some (.receiver f.receiver f.uid)

/-! ### Rewriting types -/

mutual

def Ty.rewrite (w : Rewriting) (scope : Option Scope) : Ty → Ty
  | .named name args target nullable tags =>
    .named (name.map w.rename) (Ty.rewriteAll w scope args) target nullable tags
  | .function params result nullable tags =>
    .function (Param.rewriteAll w scope params) (Ty.rewriteSlot w scope result) nullable tags
  | .union alternatives nullable tags =>
    .union (Ty.rewriteAll w scope alternatives) nullable tags
  | .self nullable tags => w.self scope nullable tags
  | .generated name typeParams target nullable tags =>
    .generated (name.map w.rename) (TypeParam.rewriteAll w scope typeParams) target nullable tags
  | .foreign label => .foreign label

def Ty.rewriteAll (w : Rewriting) (scope : Option Scope) : List Ty → List Ty
  | [] => []
  | t :: ts => Ty.rewrite w scope t :: Ty.rewriteAll w scope ts

def Ty.rewriteSlot (w : Rewriting) (scope : Option Scope) : Option Ty → Option Ty
  | none => none
  | some t => some (Ty.rewrite w scope t)

def Param.rewrite (w : Rewriting) (scope : Option Scope) : Param → Param
  | ⟨name, type, isOptional, isVararg⟩ =>
    ⟨w.rename name, Ty.rewriteSlot w scope type, isOptional, isVararg⟩

def Param.rewriteAll (w : Rewriting) (scope : Option Scope) : List Param → List Param
  | [] => []
  | p :: ps => Param.rewrite w scope p :: Param.rewriteAll w scope ps

def TypeParam.rewrite (w : Rewriting) (scope : Option Scope) : TypeParam → TypeParam
  | ⟨name, constraints, default⟩ =>
    ⟨name.map w.rename, Ty.rewriteAll w scope constraints, Ty.rewriteSlot w scope default⟩

def TypeParam.rewriteAll (w : Rewriting) (scope : Option Scope) : List TypeParam → List TypeParam
  | [] => []
  | p :: ps => TypeParam.rewrite w scope p :: TypeParam.rewriteAll w scope ps

end

/-! ### Rewriting declarations -/

def Heritage.rewrite (w : Rewriting) (scope : Option Scope) (h : Heritage) : Heritage where
  name := h.name.map w.rename
  args := h.args.map (Ty.rewrite w scope)
  target := h.target

def Function.rewrite (w : Rewriting) (f : Function) : Function :=
  { f with
    name := f.name.map w.rename
    typeParams := f.typeParams.map (TypeParam.rewrite w f.inner)
    params := f.params.map (Param.rewrite w f.inner)
    result := f.result.map (Ty.rewrite w f.inner)
    receiver := f.receiver.map (Receiver.rename w.rename) }

def Variable.rewrite (w : Rewriting) (scope : Option Scope) (v : Variable) : Variable :=
  { v with
    name := v.name.map w.rename
    type := v.type.map (Ty.rewrite w scope)
    receiver := v.receiver.map (Receiver.rename w.rename) }

def TypeAlias.rewrite (w : Rewriting) (scope : Option Scope) (a : TypeAlias) : TypeAlias :=
  { a with
    name := a.name.map w.rename
    typeParams := a.typeParams.map (TypeParam.rewrite w scope)
    type := a.type.map (Ty.rewrite w scope) }

def Token.rewrite (w : Rewriting) (t : Token) : Token := { t with value := w.token t.value }

def Enum.rewrite (w : Rewriting) (e : Enum) : Enum :=
  { e with name := e.name.map w.rename, tokens := e.tokens.map (Token.rewrite w) }

def Method.rewrite (w : Rewriting) (scope : Option Scope) (m : Method) : Method :=
  { m with
    name := w.rename m.name
    typeParams := m.typeParams.map (TypeParam.rewrite w scope)
    params := m.params.map (Param.rewrite w scope)
    result := m.result.map (Ty.rewrite w scope) }

def Property.rewrite (w : Rewriting) (scope : Option Scope) (p : Property) : Property :=
  { p with
    name := w.rename p.name
    typeParams := p.typeParams.map (TypeParam.rewrite w scope)
    type := p.type.map (Ty.rewrite w scope) }

def Constructor.rewrite (w : Rewriting) (scope : Option Scope) (c : Constructor) :
    Constructor where
  typeParams := c.typeParams.map (TypeParam.rewrite w scope)
  params := c.params.map (Param.rewrite w scope)

def ClassHead.rewrite (w : Rewriting) (scope : Option Scope) (head : ClassHead) : ClassHead :=
  { head with
    form := head.form.withTypeParams (head.typeParams.map (TypeParam.rewrite w (head.inner scope)))
    name := head.name.map w.rename
    parents := head.parents.map (Heritage.rewrite w (head.inner scope)) }

mutual

def Member.rewrite (w : Rewriting) (scope : Option Scope) : Member → Member
  | .method m => .method (m.rewrite w scope)
  | .property p => .property (p.rewrite w scope)
  | .constructor c => .constructor (c.rewrite w scope)
  | .function f => .function (f.rewrite w)
  | .classLike head members =>
    .classLike (head.rewrite w scope) (Member.rewriteAll w (head.inner scope) members)

def Member.rewriteAll (w : Rewriting) (scope : Option Scope) : List Member → List Member
  | [] => []
  | m :: ms => Member.rewrite w scope m :: Member.rewriteAll w scope ms

end

mutual

def Decl.rewrite (w : Rewriting) (scope : Option Scope) : Decl → Decl
  | .module m => .module (Module.rewrite w scope m)
  | .classLike head members =>
    .classLike (head.rewrite w scope) (Member.rewriteAll w (head.inner scope) members)
  | .function f => .function (f.rewrite w)
  | .var v => .var (v.rewrite w scope)
  | .typeAlias a => .typeAlias (a.rewrite w scope)
  | .enum e => .enum (e.rewrite w)
  | .foreign label => .foreign label
  | .missing => .missing

def Decl.rewriteAll (w : Rewriting) (scope : Option Scope) : List Decl → List Decl
  | [] => []
  | d :: ds => Decl.rewrite w scope d :: Decl.rewriteAll w scope ds

/-- A tree rewritten inside a scope. -/
def Module.rewrite (w : Rewriting) (scope : Option Scope) : Module → Module
  | ⟨head, declarations, submodules⟩ =>
    ⟨head.rename w.rename, Decl.rewriteAll w scope declarations,
      Module.rewriteAll w scope submodules⟩

def Module.rewriteAll (w : Rewriting) (scope : Option Scope) : List Module → List Module
  | [] => []
  | m :: ms => Module.rewrite w scope m :: Module.rewriteAll w scope ms

end

/-! ### Lists entry by entry -/

variable {w : Rewriting} {scope : Option Scope}

@[simp] theorem Ty.rewriteAll_eq_map (ts : List Ty) :
    Ty.rewriteAll w scope ts = ts.map (Ty.rewrite w scope) := by
  induction ts with
  | nil => rfl
  | cons t ts ih =>
    show Ty.rewrite w scope t :: Ty.rewriteAll w scope ts = _
    rw [ih, List.map_cons]

@[simp] theorem Ty.rewriteSlot_eq_map (slot : Option Ty) :
    Ty.rewriteSlot w scope slot = slot.map (Ty.rewrite w scope) := by
  cases slot with
  | none => rfl
  | some t => rfl

@[simp] theorem Param.rewriteAll_eq_map (ps : List Param) :
    Param.rewriteAll w scope ps = ps.map (Param.rewrite w scope) := by
  induction ps with
  | nil => rfl
  | cons p ps ih =>
    show Param.rewrite w scope p :: Param.rewriteAll w scope ps = _
    rw [ih, List.map_cons]

@[simp] theorem TypeParam.rewriteAll_eq_map (ps : List TypeParam) :
    TypeParam.rewriteAll w scope ps = ps.map (TypeParam.rewrite w scope) := by
  induction ps with
  | nil => rfl
  | cons p ps ih =>
    show TypeParam.rewrite w scope p :: TypeParam.rewriteAll w scope ps = _
    rw [ih, List.map_cons]

@[simp] theorem Member.rewriteAll_eq_map (ms : List Member) :
    Member.rewriteAll w scope ms = ms.map (Member.rewrite w scope) := by
  induction ms with
  | nil => rfl
  | cons m ms ih =>
    show Member.rewrite w scope m :: Member.rewriteAll w scope ms = _
    rw [ih, List.map_cons]

@[simp] theorem Decl.rewriteAll_eq_map (ds : List Decl) :
    Decl.rewriteAll w scope ds = ds.map (Decl.rewrite w scope) := by
  induction ds with
  | nil => rfl
  | cons d ds ih =>
    show Decl.rewrite w scope d :: Decl.rewriteAll w scope ds = _
    rw [ih, List.map_cons]

@[simp] theorem Module.rewriteAll_eq_map (ms : List Module) :
    Module.rewriteAll w scope ms = ms.map (Module.rewrite w scope) := by
  induction ms with
  | nil => rfl
  | cons m ms ih =>
    show Module.rewrite w scope m :: Module.rewriteAll w scope ms = _
    rw [ih, List.map_cons]

/-! ### Kinds are kept -/

theorem ClassForm.kind_withTypeParams (form : ClassForm) (typeParams : List TypeParam) :
    (form.withTypeParams typeParams).kind = form.kind := by
  cases form with
  | cls isAbstract _ => rfl
  | interface isGenerated _ => rfl
  | object => rfl

theorem ClassForm.kind_ne_selfType (form : ClassForm) : form.kind ≠ .selfType := by
  cases form with
  | cls isAbstract _ => nofun
  | interface isGenerated _ => nofun
  | object => nofun

theorem ClassForm.kind_ne_enumDecl (form : ClassForm) : form.kind ≠ .enumDecl := by
  cases form with
  | cls isAbstract _ => nofun
  | interface isGenerated _ => nofun
  | object => nofun

/-- A rewritten member fits the slot of the member. -/
theorem Member.replacesMember?_rewrite (m : Member) :
    m.node.replacesMember? (m.rewrite w scope).node = some (m.rewrite w scope) := by
  have hkind : (m.rewrite w scope).node.kind? = m.node.kind? := by
    cases m with
    | classLike head members => exact congrArg some (ClassForm.kind_withTypeParams _ _)
    | _ => rfl
  have hmember : (m.rewrite w scope).node.member? = some (m.rewrite w scope) := by
    cases m with
    | _ => rfl
  rw [Node.replacesMember?, if_pos hkind, hmember]

/-- A rewritten declaration fits the slot of the declaration, where there is one. -/
theorem Decl.replacesDecl?_rewrite {d : Decl} (hd : d ≠ .missing) :
    d.node.replacesDecl? (d.rewrite w scope).node = some (d.rewrite w scope) := by
  have hkind : (d.rewrite w scope).node.kind? = d.node.kind? := by
    cases d with
    | classLike head members => exact congrArg some (ClassForm.kind_withTypeParams _ _)
    | _ => rfl
  have hdecl : (d.rewrite w scope).node.decl? = some (d.rewrite w scope) := by
    cases d with
    | missing => exact absurd rfl hd
    | _ => rfl
  rw [Node.replacesDecl?, if_pos hkind, hdecl]

end DeclTree
