import DeclTree.Data.Yaml.Meaning
import DeclTree.Document.Shape

/-!
# Documents in block form

Scalars of this format carry no quotes that would tell texts from truth values, so it is the field
that decides: `Shape.field?` says what each field takes, and `Content.read` turns a node into plain
data by it. Any scalar fills a text with its spelling; a truth value also has words of its own.

Reading goes on behind a node that does not fit, and the document is refused in the end. It stops at
once at a scalar whose tag and text disagree, at a name inside the node that it stands for, and in a
document most of which comes out of names.

The entry `<<` completes a record from others, the own entries of the record first. The names of its
own entries are read again for this, whatever they are, and a key that is a list or a record has no
place among names: reading breaks down there.
-/

set_option autoImplicit false
set_option relaxedAutoImplicit false

namespace DeclTree.Document

/-!
## What is noted while reading
-/

/-- Why reading stops before the end of a document. -/
inductive Stop where
  | malformed
  | crash
  deriving DecidableEq, Repr

/-- The nodes met so far, how many of them through names, and whether one did not fit. A node counts
as often as it is met. -/
structure Tally where
  visits : Nat := 0
  named : Nat := 0
  isFaulty : Bool := false
  deriving DecidableEq, Repr

/-- The share of the nodes that may come through names, in parts of `Tally.whole`: 99 percent in a
document of up to 400 000 nodes, falling evenly to 10 percent in one of 4 000 000. -/
def Tally.allowance (visits : Nat) : Nat :=
  if visits ≤ 400000 then 99 * 3600000
  else if 4000000 ≤ visits then 10 * 3600000
  else 99 * 3600000 - 89 * (visits - 400000)

def Tally.whole : Nat := 100 * 3600000

/-- Whether too much of a document that is not short comes through names. -/
def Tally.isSwollen (t : Tally) : Bool :=
  100 < t.named && 1000 < t.visits && t.visits * allowance t.visits < t.named * whole

abbrev Reading := StateT Tally (Except Stop)

/-- Stops at what cannot be read. -/
def broken {α : Type} : Reading α := throw .malformed

/-- Counts a node. -/
def visit (isNamed : Bool) : Reading Unit := do
  let t ← get
  let t := { t with visits := t.visits + 1, named := if isNamed then t.named + 1 else t.named }
  if t.isSwollen then broken else set t

/-- Notes something that does not fit. -/
def misfit : Reading Unit := modify fun t => { t with isFaulty := true }

/-- What a scalar means. -/
def meaningOf (tag? : Option String) (isPlain : Bool) (text : String) : Reading Yaml.Meaning :=
  match Yaml.Meaning.of? tag? isPlain text with
  | some meaning => return meaning
  | none => broken

/-!
## Keys of any sort
-/

/-- What a key is where it need not be a name. -/
inductive Key where
  | text (s : String)
  | scalar
  | composite
  deriving DecidableEq, Repr

mutual

/-- Reads a node of any sort; a record that has a key twice gives nothing. -/
def readAny (isNamed : Bool) : Yaml.Node → Reading (Option Key)
  | .scalar tag? isPlain text => do
    visit isNamed
    match ← meaningOf tag? isPlain text with
    | .text s => return some (.text s)
    | _ => return some .scalar
  | .list _ items => do
    visit isNamed
    readAnyList isNamed items
    return some .composite
  | .record _ entries => do
    visit isNamed
    if Yaml.Node.repeatsKey entries then
      misfit
      return none
    else
      readAnyEntries isNamed entries
      return some .composite
  | .alias _ target => do
    visit isNamed
    readAny true target
  | .inside .. => broken

def readAnyList (isNamed : Bool) : List Yaml.Node → Reading Unit
  | [] => return
  | item :: items => do
    let _ ← readAny isNamed item
    readAnyList isNamed items

/-- Reads entries of any sort; their keys have to be scalars. -/
def readAnyEntries (isNamed : Bool) : List (Yaml.Node × Yaml.Node) → Reading Unit
  | [] => return
  | (key, value) :: entries => do
    match ← readAny isNamed key with
    | some .composite => broken
    | some _ =>
      let _ ← readAny isNamed value
      readAnyEntries isNamed entries
    | none => readAnyEntries isNamed entries

end

/-- The names of a record's entries. -/
def readNames (isNamed : Bool) : List (Yaml.Node × Yaml.Node) → Reading (List String)
  | [] => return []
  | (key, _) :: entries => do
    match ← readAny isNamed key with
    | some .composite => throw .crash
    | some (.text name) => return name :: (← readNames isNamed entries)
    | _ => readNames isNamed entries

/-!
## Fields
-/

/-- A scalar as a truth value. -/
def flagData? : Yaml.Meaning → Option Data
  | .flag b => some (.flag b)
  | .text s =>
    if Yaml.oldTrueWords.contains s then some (.flag true)
    else if Yaml.oldFalseWords.contains s then some (.flag false)
    else none
  | _ => none

/-- What a scalar is to a field, if it fits. -/
def Content.scalarData? (content : Content) (text : String) (meaning : Yaml.Meaning) :
    Option Data :=
  match content, meaning with
  | _, .null => some .null
  | .text, .text s => some (.text s)
  | .text, _ => some (.text text)
  | .flag, _ => flagData? meaning
  | _, _ => none

/-- Whether a field takes records, or lists. -/
def Content.takes (content : Content) (isRecord : Bool) : Bool :=
  match content with
  | .text => false
  | .flag => false
  | .texts => !isRecord
  | .many _ => !isRecord
  | .one _ => isRecord

/-- A record while it is filled: the names that count no more, and the entries. Its own entries must
not set a field again; those that are merged into it are passed over. -/
structure Filling where
  isMerging : Bool := false
  names : List String := []
  entries : List (String × Data) := []

/-- Adds the entry of a name that counts. -/
def Filling.put (f : Filling) (name : String) (d? : Option Data) : Filling :=
  { f with
    names := name :: f.names
    entries := f.entries ++ (d?.map fun d => (name, d)).toList }

/-- Fills in the entries of a record and then, if it has any, the records to be merged, for which
the names of all entries are taken. A record that has a key twice gives nothing. -/
def Filling.complete (isNamed : Bool) (entries : List (Yaml.Node × Yaml.Node)) (f : Filling)
    (own merged : Filling → Reading Filling) : Reading Filling :=
  if Yaml.Node.repeatsKey entries then do
    misfit
    return f
  else do
    let f ← own f
    if !entries.any fun entry => entry.1.isMerge then return f
    else if f.isMerging then merged f
    else merged { f with isMerging := true, names := ← readNames isNamed entries }

mutual

/-- What a node is to a field, if it fits. -/
def Content.read (content : Content) (isNamed : Bool) : Yaml.Node → Reading (Option Data)
  | .scalar tag? isPlain text => do
    visit isNamed
    let d? := content.scalarData? text (← meaningOf tag? isPlain text)
    if d?.isNone then misfit
    return d?
  | .list _ items => do
    visit isNamed
    match content with
    | .texts => return some (.list (← Content.text.readAll isNamed items))
    | .many shape => return some (.list (← (Content.one shape).readAll isNamed items))
    | _ =>
      misfit
      return none
  | .record tag? entries => do
    visit isNamed
    match content with
    | .one shape =>
      if tag? = some "!!null" then
        misfit
        return none
      else
        let f ← Filling.complete isNamed entries {} (shape.readEntries isNamed entries)
          (shape.readMerged isNamed entries)
        return some (.record f.entries)
    | _ =>
      misfit
      return none
  | .alias _ target => do
    visit isNamed
    content.read true target
  | .inside _ isRecord => do
    if content.takes isRecord then broken
    misfit
    return none

/-- What the items of a list are to the places of its items. A null text is none. -/
def Content.readAll (content : Content) (isNamed : Bool) : List Yaml.Node → Reading (List Data)
  | [] => return []
  | item :: items => do
    let d? ← content.read isNamed item
    let ds ← content.readAll isNamed items
    match content, d? with
    | .text, some .null => return ds
    | _, some d => return d :: ds
    | _, none => return ds

/-- Fills in the own entries of a record; one under the null key does not count. -/
def Shape.readEntries (shape : Shape) (isNamed : Bool) :
    List (Yaml.Node × Yaml.Node) → Filling → Reading Filling
  | [], f => return f
  | (key, value) :: entries, f => do
    if key.isMerge then shape.readEntries isNamed entries f
    else
      match ← Content.text.read isNamed key with
      | some (.text name) =>
        if f.names.contains name then
          if !f.isMerging then misfit
          shape.readEntries isNamed entries f
        else
          match shape.field? name with
          | some content =>
            shape.readEntries isNamed entries (f.put name (← content.read isNamed value))
          | none =>
            misfit
            shape.readEntries isNamed entries f
      | _ => shape.readEntries isNamed entries f

/-- Merges what stands at the key for it. -/
def Shape.readMerged (shape : Shape) (isNamed : Bool) :
    List (Yaml.Node × Yaml.Node) → Filling → Reading Filling
  | [], f => return f
  | (key, value) :: entries, f =>
    if key.isMerge then shape.merge isNamed value f else shape.readMerged isNamed entries f

/-- Merges a record or a list of records, each in full or by its name. -/
def Shape.merge (shape : Shape) (isNamed : Bool) : Yaml.Node → Filling → Reading Filling
  | .record _ entries, f => do
    visit isNamed
    Filling.complete isNamed entries f (shape.readEntries isNamed entries)
      (shape.readMerged isNamed entries)
  | .alias _ target, f => do
    if !target.isRecord then broken
    visit isNamed
    shape.merge true target f
  | .list _ items, f => shape.mergeAll isNamed items f
  | .inside .., _ => broken
  | .scalar .., _ => broken

def Shape.mergeAll (shape : Shape) (isNamed : Bool) : List Yaml.Node → Filling → Reading Filling
  | [], f => return f
  | item :: items, f => do
    if !item.isMergeable then broken
    shape.mergeAll isNamed items (← shape.merge isNamed item f)

end

/-- The plain data of a document. It counts as a node itself, and a tag on its outermost record does
not. -/
def Content.ofNode (content : Content) (root : Yaml.Node) : Except Stop Data := do
  let root := match root with
    | .record _ entries => .record none entries
    | _ => root
  let (d?, t) ← (do visit false; content.read false root : Reading (Option Data)).run {}
  if t.isFaulty then throw .malformed
  return d?.getD .null

end DeclTree.Document
