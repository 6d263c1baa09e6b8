import DeclTree.Data.Basic

/-!
# The fields of documents

`Shape.field?` says which fields the records of a document have and what each of them takes.
`Content.admits` holds of the plain data that a field takes: the names of fields count without
regard to case, and null may stand anywhere.
-/

set_option autoImplicit false
set_option relaxedAutoImplicit false

namespace DeclTree.Document

/-- The records that occur in a document. -/
inductive Shape where
  | node
  | receiver
  | token
  | note
  deriving DecidableEq, Repr

/-- What a field takes. -/
inductive Content where
  | text
  | flag
  | texts
  | one (shape : Shape)
  | many (shape : Shape)
  deriving DecidableEq, Repr

def nodeTextFields : List String := ["kind", "name", "short_name", "uid", "reference"]

def nodeFlagFields : List String :=
  ["nullable", "abstract", "exported", "generated", "inline", "operator", "immutable", "static",
    "override", "getter", "setter", "open", "optional", "vararg"]

def nodeListFields : List String :=
  ["type_parameters", "parents", "members", "parameters", "params", "constraints", "declarations",
    "submodules"]

/-- What a field of a record takes, if there is such a field. -/
def Shape.field? : Shape → String → Option Content
  | .node, key =>
    if nodeTextFields.contains key then some .text
    else if nodeFlagFields.contains key then some .flag
    else if key = "meta" || key = "imports" then some .texts
    else if nodeListFields.contains key then some (.many .node)
    else if key = "type" || key = "default" then some (.one .node)
    else if key = "extend" then some (.one .receiver)
    else if key = "values" then some (.many .token)
    else if key = "annotations" then some (.many .note)
    else none
  | .receiver, key =>
    if key = "name" then some .text
    else if key = "type_parameters" then some .texts
    else none
  | .token, key => if key = "value" || key = "meta" then some .text else none
  | .note, key =>
    if key = "name" then some .text
    else if key = "params" then some .texts
    else none

/-- A key without regard to case; the long s and the kelvin sign count as letters here. -/
def folded (key : String) : String :=
  key.map fun c =>
    if c = 'ſ' then 's' else if c.toNat = 0x212A then 'k' else c.toLower

mutual

def Content.admits (content : Content) : Data → Bool
  | .null => true
  | .flag _ => content = .flag
  | .number _ => false
  | .text _ => content = .text
  | .list items =>
    match content with
    | .texts => Content.text.admitsAll items
    | .many shape => (Content.one shape).admitsAll items
    | _ => false
  | .record entries =>
    match content with
    | .one shape => shape.admitsEntries entries
    | _ => false

def Content.admitsAll (content : Content) : List Data → Bool
  | [] => true
  | item :: items => content.admits item && content.admitsAll items

def Shape.admitsEntries (shape : Shape) : List (String × Data) → Bool
  | [] => true
  | (key, value) :: entries =>
    (match shape.field? (folded key) with
      | some content => content.admits value
      | none => false) &&
      shape.admitsEntries entries

end

end DeclTree.Document
