import DeclTree.Tree.Basic
import DeclTree.Tree.Kind

/-!
# Nodes

A node is anything that a tree holds, whatever its storey. `Node.children` gives the nodes directly
below in source order, `Node.walk` a node and everything below it in that order, and
`Node.describe` the words in which messages speak of a node.
-/

set_option autoImplicit false
set_option relaxedAutoImplicit false

namespace DeclTree

inductive Node where
  | module (m : Module)
  | classLike (head : ClassHead) (members : List Member)
  | function (f : Function)
  | var (v : Variable)
  | typeAlias (a : TypeAlias)
  | enum (e : Enum)
  | foreign (label : String)
  | method (m : Method)
  | property (p : Property)
  | constructor (c : Constructor)
  | type (t : Ty)
  | param (p : Param)
  | typeParam (p : TypeParam)
  | heritage (h : Heritage)
  | missing

def Decl.node : Decl → Node
  | .module m => .module m
  | .classLike head members => .classLike head members
  | .function f => .function f
  | .var v => .var v
  | .typeAlias a => .typeAlias a
  | .enum e => .enum e
  | .foreign label => .foreign label
  | .missing => .missing

def Member.node : Member → Node
  | .method m => .method m
  | .property p => .property p
  | .constructor c => .constructor c
  | .function f => .function f
  | .classLike head members => .classLike head members

def Ty.kind : Ty → Kind
  | .named .. => .namedType
  | .function .. => .functionType
  | .union .. => .unionType
  | .self .. => .selfType
  | .generated .. => .generatedType
  | .foreign _ => .selfType

def ClassForm.kind : ClassForm → Kind
  | .cls .. => .classDecl
  | .interface .. => .interfaceDecl
  | .object => .objectDecl

namespace Node

/-- The kind of a node; a missing node has none. -/
def kind? : Node → Option Kind
  | .module _ => some .moduleDecl
  | .classLike head _ => some head.form.kind
  | .function _ => some .functionDecl
  | .var _ => some .variableDecl
  | .typeAlias _ => some .aliasDecl
  | .enum _ => some .enumDecl
  | .foreign _ => some .variableDecl
  | .method _ => some .method
  | .property _ => some .property
  | .constructor _ => some .constructor
  | .type t => some t.kind
  | .param _ => some .param
  | .typeParam _ => some .typeParam
  | .heritage _ => some .heritage
  | .missing => none

/-- The name that a node declares or refers to. -/
def name? : Node → Option Name
  | .module m => m.head.name
  | .classLike head _ => some head.name
  | .function f => some f.name
  | .var v => some v.name
  | .typeAlias a => some a.name
  | .enum e => some e.name
  | .method m => some (.ident m.name)
  | .property p => some (.ident p.name)
  | .param p => some (.ident p.name)
  | .typeParam p => some p.name
  | .heritage h => some h.name
  | .type (.named name ..) => some name
  | .type (.generated name ..) => some name
  | .type (.function ..) => none
  | .type (.union ..) => none
  | .type (.self ..) => none
  | .type (.foreign _) => none
  | .constructor _ => none
  | .foreign _ => none
  | .missing => none

/-- The identity of a node, where it has one. -/
def uid? : Node → Option Uid
  | .module m => m.head.uid.reference?
  | .classLike head _ => head.uid.reference?
  | .function f => f.uid.reference?
  | .typeAlias a => a.uid.reference?
  | .enum e => e.uid.reference?
  | _ => none

/-- The words for a node: its kind, its name and its identity. -/
def describe (n : Node) : String :=
  match n.kind? with
  | none => "<nil>"
  | some kind =>
    let named := match n.name? with
      | none => kind.text
      | some name => kind.text ++ " " ++ name.render
    match n.uid? with
    | none => named
    | some uid => named ++ " [uid " ++ uid ++ "]"

/-- The label of a node that came from outside or is missing. -/
def label : Node → String
  | .foreign label => label
  | .type (.foreign label) => label
  | .missing => "<nil>"
  | n => n.describe

end Node

namespace Ty

/-- A type slot as a list of nodes: an empty slot has none. -/
def slot (t : Option Ty) : List Node := (t.map Node.type).toList

def children : Ty → List Node
  | .named _ args _ _ _ => args.map .type
  | .function params result _ _ => params.map .param ++ slot result
  | .union alternatives _ _ => alternatives.map .type
  | .self .. => []
  | .generated _ typeParams _ _ _ => typeParams.map .typeParam
  | .foreign _ => []

end Ty

namespace Node

/-- The nodes directly below, in source order. -/
def children : Node → List Node
  | .module m => m.declarations.map Decl.node ++ m.submodules.map .module
  | .classLike head members =>
    head.typeParams.map .typeParam ++ head.parents.map .heritage ++ members.map Member.node
  | .function f => f.typeParams.map .typeParam ++ f.params.map .param ++ Ty.slot f.result
  | .var v => Ty.slot v.type
  | .typeAlias a => a.typeParams.map .typeParam ++ Ty.slot a.type
  | .enum _ => []
  | .foreign _ => []
  | .method m => m.typeParams.map .typeParam ++ m.params.map .param ++ Ty.slot m.result
  | .property p => p.typeParams.map .typeParam ++ Ty.slot p.type
  | .constructor c => c.typeParams.map .typeParam ++ c.params.map .param
  | .type t => t.children
  | .param p => Ty.slot p.type
  | .typeParam p => p.constraints.map .type ++ Ty.slot p.default
  | .heritage h => h.args.map .type
  | .missing => []

end Node

/-!
## Walking

A walk lists a node and then, where `enter` allows it, the walks of its children. The functions
follow the storeys of the tree.
-/

/-- A node, and what lies below it where `enter` allows. -/
def Node.visit (enter : Node → Bool) (n : Node) (below : List Node) : List Node :=
  n :: if enter n then below else []

mutual

def Ty.walk (enter : Node → Bool) : Ty → List Node
  | .named name args target nullable tags =>
    Node.visit enter (.type (.named name args target nullable tags)) (Ty.walkAll enter args)
  | .function params result nullable tags =>
    Node.visit enter (.type (.function params result nullable tags))
      (Param.walkAll enter params ++ Ty.walkSlot enter result)
  | .union alternatives nullable tags =>
    Node.visit enter (.type (.union alternatives nullable tags)) (Ty.walkAll enter alternatives)
  | .self nullable tags => Node.visit enter (.type (.self nullable tags)) []
  | .generated name typeParams target nullable tags =>
    Node.visit enter (.type (.generated name typeParams target nullable tags))
      (TypeParam.walkAll enter typeParams)
  | .foreign label => Node.visit enter (.type (.foreign label)) []

def Ty.walkAll (enter : Node → Bool) : List Ty → List Node
  | [] => []
  | t :: ts => Ty.walk enter t ++ Ty.walkAll enter ts

def Ty.walkSlot (enter : Node → Bool) : Option Ty → List Node
  | none => []
  | some t => Ty.walk enter t

def Param.walk (enter : Node → Bool) : Param → List Node
  | ⟨name, type, isOptional, isVararg⟩ =>
    Node.visit enter (.param ⟨name, type, isOptional, isVararg⟩) (Ty.walkSlot enter type)

def Param.walkAll (enter : Node → Bool) : List Param → List Node
  | [] => []
  | p :: ps => Param.walk enter p ++ Param.walkAll enter ps

def TypeParam.walk (enter : Node → Bool) : TypeParam → List Node
  | ⟨name, constraints, default⟩ =>
    Node.visit enter (.typeParam ⟨name, constraints, default⟩)
      (Ty.walkAll enter constraints ++ Ty.walkSlot enter default)

def TypeParam.walkAll (enter : Node → Bool) : List TypeParam → List Node
  | [] => []
  | p :: ps => TypeParam.walk enter p ++ TypeParam.walkAll enter ps

end

def Heritage.walk (enter : Node → Bool) (h : Heritage) : List Node :=
  Node.visit enter (.heritage h) (Ty.walkAll enter h.args)

/-- The walk of a signature: type parameters, parameters, result. -/
def Function.walk (enter : Node → Bool) (f : Function) : List Node :=
  Node.visit enter (.function f)
    (TypeParam.walkAll enter f.typeParams ++ Param.walkAll enter f.params ++
      Ty.walkSlot enter f.result)

mutual

def Member.walk (enter : Node → Bool) : Member → List Node
  | .method m =>
    Node.visit enter (.method m)
      (TypeParam.walkAll enter m.typeParams ++ Param.walkAll enter m.params ++
        Ty.walkSlot enter m.result)
  | .property p =>
    Node.visit enter (.property p)
      (TypeParam.walkAll enter p.typeParams ++ Ty.walkSlot enter p.type)
  | .constructor c =>
    Node.visit enter (.constructor c)
      (TypeParam.walkAll enter c.typeParams ++ Param.walkAll enter c.params)
  | .function f => f.walk enter
  | .classLike head members =>
    Node.visit enter (.classLike head members)
      (TypeParam.walkAll enter head.typeParams ++ head.parents.flatMap (Heritage.walk enter) ++
        Member.walkAll enter members)

def Member.walkAll (enter : Node → Bool) : List Member → List Node
  | [] => []
  | m :: ms => Member.walk enter m ++ Member.walkAll enter ms

end

mutual

def Decl.walk (enter : Node → Bool) : Decl → List Node
  | .module m => Module.walk enter m
  | .classLike head members => Member.walk enter (.classLike head members)
  | .function f => f.walk enter
  | .var v => Node.visit enter (.var v) (Ty.walkSlot enter v.type)
  | .typeAlias a =>
    Node.visit enter (.typeAlias a)
      (TypeParam.walkAll enter a.typeParams ++ Ty.walkSlot enter a.type)
  | .enum e => Node.visit enter (.enum e) []
  | .foreign label => Node.visit enter (.foreign label) []
  | .missing => []

def Decl.walkAll (enter : Node → Bool) : List Decl → List Node
  | [] => []
  | d :: ds => Decl.walk enter d ++ Decl.walkAll enter ds

def Module.walk (enter : Node → Bool) : Module → List Node
  | ⟨head, declarations, submodules⟩ =>
    Node.visit enter (.module ⟨head, declarations, submodules⟩)
      (Decl.walkAll enter declarations ++ Module.walkAll enter submodules)

def Module.walkAll (enter : Node → Bool) : List Module → List Node
  | [] => []
  | m :: ms => Module.walk enter m ++ Module.walkAll enter ms

end

namespace Module

/-- Every node of a module, in source order, the module first. -/
def nodes (m : Module) : List Node := m.walk fun _ => true

/-- How many nodes of a module satisfy a condition. -/
def count (m : Module) (p : Node → Bool) : Nat := m.nodes.countP p

end Module

/-- Whether a node is a self type that still has to be resolved. -/
def Node.isSelfType : Node → Bool
  | .type (.self ..) => true
  | _ => false

/-- How many self types are left in a module. -/
def Module.remaining (m : Module) : Nat := m.count Node.isSelfType

end DeclTree
