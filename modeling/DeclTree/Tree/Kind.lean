/-!
# Kinds of nodes

Every node of a declaration tree has one of nineteen kinds. Four lists say which kinds may stand
where: among declarations, among members, in a type slot, and in the auxiliary lists.
-/

set_option autoImplicit false
set_option relaxedAutoImplicit false

namespace DeclTree

inductive Kind where
  | moduleDecl
  | classDecl
  | interfaceDecl
  | objectDecl
  | functionDecl
  | variableDecl
  | aliasDecl
  | enumDecl
  | method
  | property
  | constructor
  | namedType
  | functionType
  | unionType
  | selfType
  | generatedType
  | param
  | typeParam
  | heritage
  deriving DecidableEq, Repr

namespace Kind

def text : Kind → String
  | .moduleDecl => "module"
  | .classDecl => "class"
  | .interfaceDecl => "interface"
  | .objectDecl => "object"
  | .functionDecl => "function"
  | .variableDecl => "variable"
  | .aliasDecl => "type_alias"
  | .enumDecl => "enum"
  | .method => "method"
  | .property => "property"
  | .constructor => "constructor"
  | .namedType => "type_value"
  | .functionType => "function_type"
  | .unionType => "union_type"
  | .selfType => "this_type"
  | .generatedType => "generated_interface_reference"
  | .param => "parameter"
  | .typeParam => "type_parameter"
  | .heritage => "heritage"

def all : List Kind :=
  [.moduleDecl, .classDecl, .interfaceDecl, .objectDecl, .functionDecl, .variableDecl, .aliasDecl,
    .enumDecl, .method, .property, .constructor, .namedType, .functionType, .unionType, .selfType,
    .generatedType, .param, .typeParam, .heritage]

/-- The kinds that may stand among the declarations of a module. -/
def declarations : List Kind :=
  [.moduleDecl, .classDecl, .interfaceDecl, .objectDecl, .functionDecl, .variableDecl, .aliasDecl,
    .enumDecl]

/-- The kinds that may stand in the body of a class-like declaration. -/
def members : List Kind :=
  [.method, .property, .constructor, .classDecl, .interfaceDecl, .objectDecl, .functionDecl]

/-- The kinds that may fill a type slot. -/
def types : List Kind := [.namedType, .functionType, .unionType, .selfType, .generatedType]

/-- The kinds that are neither declarations nor types. -/
def auxiliary : List Kind := [.param, .typeParam, .heritage]

/-- The kind with the given text. -/
def ofText? (text : String) : Option Kind := all.find? fun k => k.text == text

/-- The place of a kind in the list of all kinds, counted from one. -/
def number (k : Kind) : Nat := all.idxOf k + 1

/-- The text of the kind with a number; zero and the numbers past the last kind have none. -/
def describeNumber (n : Int) : String :=
  if n = 0 then "invalid"
  else
    match n with
    | .ofNat (m + 1) =>
      match all[m]? with
      | some k => k.text
      | none => "kind(" ++ toString n ++ ")"
    | _ => "kind(" ++ toString n ++ ")"

end Kind

end DeclTree
