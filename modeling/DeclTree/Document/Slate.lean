import DeclTree.Document.Shape

/-!
# Values written over each other

A record may name a field more than once, and each value is then written over what the ones before
it left. A text replaces a text, null wipes out lists and records and leaves all else, and a record
is completed. A list is written item by item. Where it is shorter than the one before, the items
behind its end are out of sight but not gone: a longer list that comes later is written over them,
unless an empty list came between.
-/

set_option autoImplicit false
set_option relaxedAutoImplicit false

namespace DeclTree.Document

/-- What a place holds. The first `length` places of a list are in sight. -/
inductive Slate where
  | null
  | flag (b : Bool)
  | number (digits : String)
  | text (s : String)
  | list (length : Nat) (places : List Slate)
  | record (fields : List (String × Slate))

namespace Slate

/-- What null leaves of it. -/
def wiped : Slate → Slate
  | .list .. => .null
  | .record _ => .null
  | old => old

/-- The places of a list. -/
def places : Slate → List Slate
  | .list _ places => places
  | _ => []

/-- The fields of a record. -/
def fields : Slate → List (String × Slate)
  | .record fields => fields
  | _ => []

/-- Changes a field, which is null if it is not there. -/
def change (key : String) (f : Slate → Slate) : List (String × Slate) → List (String × Slate)
  | [] => [(key, f .null)]
  | (name, old) :: rest =>
    if name = key then (name, f old) :: rest else (name, old) :: change key f rest

mutual

def write (old : Slate) : Data → Slate
  | .null => old.wiped
  | .flag b => .flag b
  | .number digits => .number digits
  | .text s => .text s
  | .list [] => .list 0 []
  | .list (item :: items) => .list (items.length + 1) (writeItems old.places (item :: items))
  | .record entries => .record (writeEntries old.fields entries)

def writeItems (old : List Slate) : List Data → List Slate
  | [] => old
  | item :: items => (old.headD .null).write item :: writeItems old.tail items

def writeEntries (old : List (String × Slate)) : List (String × Data) → List (String × Slate)
  | [] => old
  | (key, value) :: entries =>
    writeEntries (change (folded key) (fun slate => slate.write value) old) entries

end

mutual

/-- What is in sight. -/
def data : Slate → Data
  | .null => .null
  | .flag b => .flag b
  | .number digits => .number digits
  | .text s => .text s
  | .list length places => .list (dataUpTo length places)
  | .record fields => .record (dataFields fields)

def dataUpTo : Nat → List Slate → List Data
  | count + 1, place :: places => place.data :: dataUpTo count places
  | _, _ => []

def dataFields : List (String × Slate) → List (String × Data)
  | [] => []
  | (key, slate) :: rest => (key, slate.data) :: dataFields rest

end

/-- Data in which every record names a field once. -/
def settle (d : Data) : Data := (Slate.null.write d).data

end Slate

end DeclTree.Document
