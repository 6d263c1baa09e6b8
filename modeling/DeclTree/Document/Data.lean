import DeclTree.Document.Basic
import DeclTree.Document.Slate

/-!
# Documents as plain data

`Document.data` writes a document with its fields in their fixed order and without the empty ones.
`Document.ofData?` reads one, after what is written to a field more than once is settled. An unknown
field or a value of the wrong sort is refused, also where another value is written over it.
-/

set_option autoImplicit false
set_option relaxedAutoImplicit false

namespace DeclTree.Document

/-!
## Writing
-/

def textEntry (key value : String) : List (String × Data) :=
  if value = "" then [] else [(key, .text value)]

def flagEntry (key : String) (value : Bool) : List (String × Data) :=
  if value then [(key, .flag true)] else []

def textsEntry (key : String) (values : List String) : List (String × Data) :=
  if values.isEmpty then [] else [(key, Data.ofTexts values)]

def listEntry (key : String) (items : List Data) : List (String × Data) :=
  if items.isEmpty then [] else [(key, .list items)]

/-- Null where there is nothing. -/
def optionData {α : Type} (f : α → Data) : Option α → Data
  | none => .null
  | some a => f a

def Receiver.data (r : Receiver) : Data :=
  .record (("name", .text r.name) :: textsEntry "type_parameters" r.typeParameters)

def Token.data (t : Token) : Data :=
  .record (("value", .text t.value) :: textEntry "meta" t.literal)

def Annotation.data (a : Annotation) : Data :=
  .record (("name", .text a.name) :: textsEntry "params" a.params)

/-- The entries before the fields that hold nodes. -/
def Fields.leading (f : Fields) : List (String × Data) :=
  ("kind", .text f.kind) ::
    (textEntry "name" f.name ++ textEntry "short_name" f.shortName ++ textEntry "uid" f.uid ++
      textEntry "reference" f.reference ++ flagEntry "nullable" f.isNullable ++
      flagEntry "abstract" f.isAbstract ++ flagEntry "exported" f.isExported ++
      flagEntry "generated" f.isGenerated ++ flagEntry "inline" f.isInline ++
      flagEntry "operator" f.isOperator ++ flagEntry "immutable" f.isImmutable ++
      flagEntry "static" f.isStatic ++ flagEntry "override" f.isOverride ++
      flagEntry "getter" f.hasGetter ++ flagEntry "setter" f.hasSetter ++
      flagEntry "open" f.isOpen ++ flagEntry "optional" f.isOptional ++
      flagEntry "vararg" f.isVararg ++ textsEntry "meta" f.tags)

mutual

def data : Document → Data
  | .null => .null
  | .node record => .record (Record.entries record)

def Record.entries : Record → List (String × Data)
  | ⟨f, typeParameters, parents, members, parameters, type, params, constraints, default,
      declarations, submodules⟩ =>
    f.leading ++ listEntry "type_parameters" (dataAll typeParameters) ++
      listEntry "parents" (dataAll parents) ++ listEntry "members" (dataAll members) ++
      listEntry "parameters" (dataAll parameters) ++ slotEntry "type" type ++
      listEntry "params" (dataAll params) ++ listEntry "constraints" (dataAll constraints) ++
      slotEntry "default" default ++
      (f.receiver.map fun r => ("extend", r.data)).toList ++
      listEntry "values" (f.tokens.map (optionData Token.data)) ++
      listEntry "declarations" (dataAll declarations) ++
      listEntry "submodules" (dataAll submodules) ++ textsEntry "imports" f.imports ++
      listEntry "annotations" (f.annotations.map (optionData Annotation.data))

def dataAll : List Document → List Data
  | [] => []
  | doc :: docs => data doc :: dataAll docs

def slotEntry (key : String) : Document → List (String × Data)
  | .null => []
  | .node record => [(key, .record (Record.entries record))]

end

/-!
## Reading
-/

def readText? : Data → Option String
  | .null => some ""
  | .text s => some s
  | _ => none

def readFlag? : Data → Option Bool
  | .null => some false
  | .flag b => some b
  | _ => none

def readTexts? : Data → Option (List String)
  | .null => some []
  | .list items => items.mapM readText?
  | _ => none

/-- Reads the entries of a small record, field by field. -/
def readEntries? {α : Type} (set : α → String → Data → Option α) (old : α) :
    List (String × Data) → Option α
  | [] => some old
  | (key, value) :: entries => do
    let new ← set old key value
    readEntries? set new entries

/-- Reads a small record; null is none. -/
def readRecord? {α : Type} (set : α → String → Data → Option α) (empty : α) :
    Data → Option (Option α)
  | .null => some none
  | .record entries => (readEntries? set empty entries).map some
  | _ => none

def readRecords? {α : Type} (set : α → String → Data → Option α) (empty : α) :
    Data → Option (List (Option α))
  | .null => some []
  | .list items => items.mapM (readRecord? set empty)
  | _ => none

def Receiver.set (r : Receiver) (key : String) (value : Data) : Option Receiver :=
  match key with
  | "name" => (readText? value).map fun name => { r with name }
  | "type_parameters" =>
    (readTexts? value).map fun typeParameters => { r with typeParameters }
  | _ => none

def Token.set (t : Token) (key : String) (value : Data) : Option Token :=
  match key with
  | "value" => (readText? value).map fun value => { t with value }
  | "meta" => (readText? value).map fun literal => { t with literal }
  | _ => none

def Annotation.set (a : Annotation) (key : String) (value : Data) : Option Annotation :=
  match key with
  | "name" => (readText? value).map fun name => { a with name }
  | "params" => (readTexts? value).map fun params => { a with params }
  | _ => none

/-- Reads a field that holds no nodes. -/
def Fields.set (f : Fields) (key : String) (value : Data) : Option Fields :=
  match key with
  | "kind" => (readText? value).map fun kind => { f with kind }
  | "name" => (readText? value).map fun name => { f with name }
  | "short_name" => (readText? value).map fun shortName => { f with shortName }
  | "uid" => (readText? value).map fun uid => { f with uid }
  | "reference" => (readText? value).map fun reference => { f with reference }
  | "nullable" => (readFlag? value).map fun isNullable => { f with isNullable }
  | "abstract" => (readFlag? value).map fun isAbstract => { f with isAbstract }
  | "exported" => (readFlag? value).map fun isExported => { f with isExported }
  | "generated" => (readFlag? value).map fun isGenerated => { f with isGenerated }
  | "inline" => (readFlag? value).map fun isInline => { f with isInline }
  | "operator" => (readFlag? value).map fun isOperator => { f with isOperator }
  | "immutable" => (readFlag? value).map fun isImmutable => { f with isImmutable }
  | "static" => (readFlag? value).map fun isStatic => { f with isStatic }
  | "override" => (readFlag? value).map fun isOverride => { f with isOverride }
  | "getter" => (readFlag? value).map fun hasGetter => { f with hasGetter }
  | "setter" => (readFlag? value).map fun hasSetter => { f with hasSetter }
  | "open" => (readFlag? value).map fun isOpen => { f with isOpen }
  | "optional" => (readFlag? value).map fun isOptional => { f with isOptional }
  | "vararg" => (readFlag? value).map fun isVararg => { f with isVararg }
  | "meta" => (readTexts? value).map fun tags => { f with tags }
  | "extend" =>
    (readRecord? Receiver.set ⟨"", []⟩ value).map fun receiver => { f with receiver }
  | "values" =>
    (readRecords? Token.set ⟨"", ""⟩ value).map fun tokens => { f with tokens }
  | "imports" => (readTexts? value).map fun imports => { f with imports }
  | "annotations" =>
    (readRecords? Annotation.set ⟨"", []⟩ value).map fun annotations =>
      { f with annotations }
  | _ => none

mutual

def readNode? : Data → Option Document
  | .null => some .null
  | .record entries => (readFields? (.ofFields {}) entries).map .node
  | .flag _ => none
  | .number _ => none
  | .text _ => none
  | .list _ => none

def readNodeItems? : List Data → Option (List Document)
  | [] => some []
  | item :: items => do
    let doc ← readNode? item
    let docs ← readNodeItems? items
    return doc :: docs

def readNodes? : Data → Option (List Document)
  | .null => some []
  | .list items => readNodeItems? items
  | .flag _ => none
  | .number _ => none
  | .text _ => none
  | .record _ => none

def readFields? (old : Record) : List (String × Data) → Option Record
  | [] => some old
  | (key, value) :: entries => do
    let new ← match key with
      | "type_parameters" =>
        (readNodes? value).map fun typeParameters =>
          { old with typeParameters }
      | "parents" => (readNodes? value).map fun parents => { old with parents }
      | "members" => (readNodes? value).map fun members => { old with members }
      | "parameters" =>
        (readNodes? value).map fun parameters => { old with parameters }
      | "type" => (readNode? value).map fun type => { old with type }
      | "params" => (readNodes? value).map fun params => { old with params }
      | "constraints" =>
        (readNodes? value).map fun constraints => { old with constraints }
      | "default" => (readNode? value).map fun default => { old with default }
      | "declarations" =>
        (readNodes? value).map fun declarations => { old with declarations }
      | "submodules" =>
        (readNodes? value).map fun submodules => { old with submodules }
      | key => (old.fields.set key value).map fun fields => { old with fields }
    readFields? new entries

end

/-- The document of one node; null is the node without fields. -/
def ofData? (d : Data) : Option Document :=
  if !(Content.one .node).admits d then none
  else
    match Slate.settle d with
    | .null => some (.node (.ofFields {}))
    | d => readNode? d

/-- The documents of a list of nodes; null is the empty list. -/
def listOfData? (d : Data) : Option (List Document) :=
  if (Content.many .node).admits d then readNodes? (Slate.settle d) else none

end DeclTree.Document
