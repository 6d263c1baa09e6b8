/-!
# Documents

The written form of a tree before it is put into a text format. Every node has the same fields; its
kind says which of them count. A document may also be null, in a slot or in a list, which the
decoder refuses wherever a node has to stand.
-/

set_option autoImplicit false
set_option relaxedAutoImplicit false

namespace DeclTree

namespace Document

/-- The written form of a receiver. -/
structure Receiver where
  name : String
  typeParameters : List String
  deriving DecidableEq, Repr

/-- The written form of a value of an enumeration. -/
structure Token where
  value : String
  literal : String
  deriving DecidableEq, Repr

/-- The written form of an annotation. -/
structure Annotation where
  name : String
  params : List String
  deriving DecidableEq, Repr

/-- The fields of a node that hold no nodes. -/
structure Fields where
  kind : String := ""
  name : String := ""
  shortName : String := ""
  uid : String := ""
  reference : String := ""
  isNullable : Bool := false
  isAbstract : Bool := false
  isExported : Bool := false
  isGenerated : Bool := false
  isInline : Bool := false
  isOperator : Bool := false
  isImmutable : Bool := false
  isStatic : Bool := false
  isOverride : Bool := false
  hasGetter : Bool := false
  hasSetter : Bool := false
  isOpen : Bool := false
  isOptional : Bool := false
  isVararg : Bool := false
  tags : List String := []
  receiver : Option Receiver := none
  tokens : List (Option Token) := []
  imports : List String := []
  annotations : List (Option Annotation) := []
  deriving DecidableEq, Repr

end Document

mutual

inductive Document where
  | null
  | node (record : Document.Record)

/-- The fields of a node. -/
structure Document.Record where
  fields : Document.Fields
  typeParameters : List Document
  parents : List Document
  members : List Document
  parameters : List Document
  type : Document
  params : List Document
  constraints : List Document
  default : Document
  declarations : List Document
  submodules : List Document

end

namespace Document

/-- A node with the given plain fields and nothing below it. -/
def Record.ofFields (fields : Fields) : Record where
  fields := fields
  typeParameters := []
  parents := []
  members := []
  parameters := []
  type := .null
  params := []
  constraints := []
  default := .null
  declarations := []
  submodules := []

/-- One step from a node of a document to a place in it. -/
inductive Step where
  | field (name : String)
  | index (i : Nat)
  deriving DecidableEq, Repr

def Step.text : Step → String
  | .field name => "." ++ name
  | .index i => "[" ++ toString i ++ "]"

/-- A place in a document: the steps from its root. -/
abbrev Place := List Step

def Place.text (place : Place) : String := place.foldl (fun text step => text ++ step.text) "$"

/-- The place of a field of the node at a place. -/
def Place.field (place : Place) (name : String) : Place := place ++ [.field name]

/-- The place of an entry of the list at a place. -/
def Place.index (place : Place) (i : Nat) : Place := place ++ [.index i]

end Document

end DeclTree
