import DeclTree.Lowering.Rules

/-!
# The traversal

Going on below a node copies it: each child is visited under the owner chain of the node, in source
order, and each identifier of the node is renamed. `Rules.lower` lowers a whole module.
-/

set_option autoImplicit false
set_option relaxedAutoImplicit false

namespace DeclTree

mutual

def Ty.descend (r : Rules) (o : Owner) : Ty → Run Node
  | .named name args target nullable tags => do
    let args ← Ty.lowerAll r o args
    return .type (.named (name.map r.rename) args target nullable tags)
  | .function params result nullable tags => do
    let params ← Param.lowerAll r o params
    let result ← Ty.lowerSlot r o result
    return .type (.function params result nullable tags)
  | .union alternatives nullable tags => do
    let alternatives ← Ty.lowerAll r o alternatives
    return .type (.union alternatives nullable tags)
  | .self nullable tags => return .type (.self nullable tags)
  | .generated name typeParams target nullable tags => do
    let typeParams ← TypeParam.lowerAll r o typeParams
    return .type (.generated (name.map r.rename) typeParams target nullable tags)
  | .foreign _ => Run.throw (r.unsupported o "no default traversal")

def Ty.lowerAll (r : Rules) (o : Owner) : List Ty → Run (List Ty)
  | [] => return []
  | t :: ts => do
    let t ← r.visit (.type t) o Node.type? fun o => Ty.descend r o t
    let ts ← Ty.lowerAll r o ts
    return t :: ts

def Ty.lowerSlot (r : Rules) (o : Owner) : Option Ty → Run (Option Ty)
  | none => return none
  | some t => do
    let t ← r.visit (.type t) o Node.type? fun o => Ty.descend r o t
    return some t

def Param.descend (r : Rules) (o : Owner) : Param → Run Node
  | ⟨name, type, isOptional, isVararg⟩ => do
    let type ← Ty.lowerSlot r o type
    return .param ⟨r.rename name, type, isOptional, isVararg⟩

def Param.lowerAll (r : Rules) (o : Owner) : List Param → Run (List Param)
  | [] => return []
  | p :: ps => do
    let p ← r.visit (.param p) o Node.param? fun o => Param.descend r o p
    let ps ← Param.lowerAll r o ps
    return p :: ps

def TypeParam.descend (r : Rules) (o : Owner) : TypeParam → Run Node
  | ⟨name, constraints, default⟩ => do
    let constraints ← Ty.lowerAll r o constraints
    let default ← Ty.lowerSlot r o default
    return .typeParam ⟨name.map r.rename, constraints, default⟩

def TypeParam.lowerAll (r : Rules) (o : Owner) : List TypeParam → Run (List TypeParam)
  | [] => return []
  | p :: ps => do
    let p ← r.visit (.typeParam p) o Node.typeParam? fun o => TypeParam.descend r o p
    let ps ← TypeParam.lowerAll r o ps
    return p :: ps

end

def Heritage.descend (r : Rules) (o : Owner) (h : Heritage) : Run Node := do
  let args ← Ty.lowerAll r o h.args
  return .heritage { h with name := h.name.map r.rename, args }

def Heritage.lowerAll (r : Rules) (o : Owner) : List Heritage → Run (List Heritage)
  | [] => return []
  | h :: hs => do
    let h ← r.visit (.heritage h) o Node.heritage? fun o => Heritage.descend r o h
    let hs ← Heritage.lowerAll r o hs
    return h :: hs

def Receiver.rename (f : String → String) (receiver : Receiver) : Receiver :=
  ⟨receiver.name.map f, receiver.typeParams.map (Name.map f)⟩

def Function.descend (r : Rules) (o : Owner) (f : Function) : Run Node := do
  let typeParams ← TypeParam.lowerAll r o f.typeParams
  let params ← Param.lowerAll r o f.params
  let result ← Ty.lowerSlot r o f.result
  return .function
    { f with
      name := f.name.map r.rename
      receiver := f.receiver.map (Receiver.rename r.rename)
      typeParams, params, result }

def Variable.descend (r : Rules) (o : Owner) (v : Variable) : Run Node := do
  let type ← Ty.lowerSlot r o v.type
  return .var
    { v with
      name := v.name.map r.rename
      receiver := v.receiver.map (Receiver.rename r.rename)
      type }

def TypeAlias.descend (r : Rules) (o : Owner) (a : TypeAlias) : Run Node := do
  let typeParams ← TypeParam.lowerAll r o a.typeParams
  let type ← Ty.lowerSlot r o a.type
  return .typeAlias { a with name := a.name.map r.rename, typeParams, type }

/-- The tokens of an enumeration are not renamed. -/
def Enum.descend (r : Rules) (e : Enum) : Run Node :=
  return .enum { e with name := e.name.map r.rename }

def Method.descend (r : Rules) (o : Owner) (m : Method) : Run Node := do
  let typeParams ← TypeParam.lowerAll r o m.typeParams
  let params ← Param.lowerAll r o m.params
  let result ← Ty.lowerSlot r o m.result
  return .method { m with name := r.rename m.name, typeParams, params, result }

def Property.descend (r : Rules) (o : Owner) (p : Property) : Run Node := do
  let typeParams ← TypeParam.lowerAll r o p.typeParams
  let type ← Ty.lowerSlot r o p.type
  return .property { p with name := r.rename p.name, typeParams, type }

def Constructor.descend (r : Rules) (o : Owner) (c : Constructor) : Run Node := do
  let typeParams ← TypeParam.lowerAll r o c.typeParams
  let params ← Param.lowerAll r o c.params
  return .constructor ⟨typeParams, params⟩

def ClassHead.lower (r : Rules) (o : Owner) (head : ClassHead) : Run ClassHead := do
  let typeParams ← TypeParam.lowerAll r o head.typeParams
  let parents ← Heritage.lowerAll r o head.parents
  return { head with
    form := head.form.withTypeParams typeParams
    name := head.name.map r.rename
    parents }

mutual

def Member.descend (r : Rules) (o : Owner) : Member → Run Node
  | .method m => m.descend r o
  | .property p => p.descend r o
  | .constructor c => c.descend r o
  | .function f => f.descend r o
  | .classLike head members => do
    let head ← head.lower r o
    let members ← Member.lowerAll r o members
    return .classLike head members

def Member.lowerAll (r : Rules) (o : Owner) : List Member → Run (List Member)
  | [] => return []
  | m :: ms => do
    let m ← r.visit m.node o m.node.replacesMember? fun o => Member.descend r o m
    let ms ← Member.lowerAll r o ms
    return m :: ms

end

def ModuleHead.rename (f : String → String) (head : ModuleHead) : ModuleHead :=
  { head with
    name := head.name.map (Name.map f)
    shortName := head.shortName.map (Name.map f)
    imports := head.imports.map (Name.map f) }

mutual

def Decl.descend (r : Rules) (o : Owner) : Decl → Run Node
  | .module m => Module.descend r o m
  | .classLike head members => Member.descend r o (.classLike head members)
  | .function f => f.descend r o
  | .var v => v.descend r o
  | .typeAlias a => a.descend r o
  | .enum e => e.descend r
  | .foreign _ => Run.throw (r.unsupported o "no default traversal")
  | .missing => Run.throw (r.unsupported o "no default traversal")

/-- The runs of the declarations of a module, each on its own. -/
def Decl.lowerEach (r : Rules) (o : Owner) : List Decl → List (Run Decl)
  | [] => []
  | d :: ds =>
    (r.visit d.node o d.node.replacesDecl? fun o => Decl.descend r o d) :: Decl.lowerEach r o ds

def Module.descend (r : Rules) (o : Owner) : Module → Run Node
  | ⟨head, declarations, submodules⟩ => do
    let declarations ← r.gather .missing o (Decl.lowerEach r o declarations)
    let submodules ← Module.lowerAll r o submodules
    return .module ⟨head.rename r.rename, declarations, submodules⟩

def Module.lowerAll (r : Rules) (o : Owner) : List Module → Run (List Module)
  | [] => return []
  | m :: ms => do
    let m ← r.visit (.module m) o Node.module? fun o => Module.descend r o m
    let ms ← Module.lowerAll r o ms
    return m :: ms

end

/-- Each node is traced from this verbosity on. -/
def traceVerbosity : Int := 3

def Event.isDispatch : Event → Bool
  | .dispatched .. => true
  | _ => false

/-- Forgets the dispatches of a run that is not traced. -/
def Run.traced {α : Type} (verbosity : Int) (x : Run α) : Run α :=
  if traceVerbosity ≤ verbosity then x
  else { x with events := x.events.filter fun e => !e.isDispatch }

namespace Rules

/-- Lowers a module, every node of it dispatched. -/
def lowerModule (r : Rules) (m : Module) : Run Module :=
  r.visit (.module m) [] Node.module? fun o => m.descend r o

/-- Lowers a root; there has to be one. -/
def lower (r : Rules) (root : Option Module) : Run Module :=
  match root with
  | none =>
    Run.throw ((Fault.ofSentinel .invalidTree).wrap ("pass " ++ r.name ++ ": nil root module"))
  | some m => (r.lowerModule m).traced r.verbosity

end Rules

end DeclTree
