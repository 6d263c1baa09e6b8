import DeclTree.Data.Toml.Basic

/-!
# Tables under construction

A document builds its tables piece by piece: by headers, by dotted keys and by values. A slot
remembers how it came to be, because that decides what may still be added: a table with a header of
its own gets no second one, and a dotted key does not reach into a table that is closed to keys.
-/

set_option autoImplicit false
set_option relaxedAutoImplicit false

namespace DeclTree.Toml

/-- A value, a table, or a list of tables with the entries of the last one apart. A table may be
closed, so that neither a header nor a dotted key defines it again; one made by dotted keys is
closed when the next header comes. -/
inductive Slot where
  | value (v : Value)
  | table (isClosed isDotted : Bool) (entries : List (String × Slot))
  | tables (before : List Value) (last : List (String × Slot))

abbrev Slots := List (String × Slot)

namespace Slot

mutual

def toValue : Slot → Value
  | .value v => v
  | .table _ _ entries => .table (toEntries entries)
  | .tables before last => .list (before ++ [.table (toEntries last)])

def toEntries : List (String × Slot) → List (String × Value)
  | [] => []
  | (key, slot) :: rest => (key, toValue slot) :: toEntries rest

end

mutual

/-- Closes the tables that dotted keys have made. -/
def sealed : Slot → Slot
  | .value v => .value v
  | .table isClosed isDotted entries => .table (isClosed || isDotted) false (sealedAll entries)
  | .tables before last => .tables before (sealedAll last)

def sealedAll : List (String × Slot) → List (String × Slot)
  | [] => []
  | (key, slot) :: rest => (key, sealed slot) :: sealedAll rest

end

end Slot

namespace Slots

/-- Changes the slot of a key; a new one goes to the end. -/
def update (key : String) (change : Option Slot → Option Slot) : Slots → Option Slots
  | [] => (change none).map fun slot => [(key, slot)]
  | (k, slot) :: rest =>
    if k = key then (change (some slot)).map fun slot => (k, slot) :: rest
    else (update key change rest).map fun rest => (k, slot) :: rest

/-- Follows a path of headers and changes what is at its end. Tables on the way come into being;
of a list of tables the last one counts. -/
def changeAt (change : Slots → Option Slots) : List String → Slots → Option Slots
  | [], slots => change slots
  | key :: path, slots =>
    slots.update key fun
      | none => (changeAt change path []).map (.table false false)
      | some (.table isClosed isDotted entries) =>
        (changeAt change path entries).map (.table isClosed isDotted)
      | some (.tables before last) => (changeAt change path last).map (.tables before)
      | some (.value _) => none

/-- Opens the table of a header. -/
def openTable (slots : Slots) (path : List String) (key : String) : Option Slots :=
  changeAt
    (fun slots => slots.update key fun
      | none => some (.table true false [])
      | some (.table false isDotted entries) => some (.table true isDotted entries)
      | _ => none)
    path slots

/-- Adds a table to the list of tables of a header. -/
def openNext (slots : Slots) (path : List String) (key : String) : Option Slots :=
  changeAt
    (fun slots => slots.update key fun
      | none => some (.tables [] [])
      | some (.tables before last) =>
        some (.tables (before ++ [.table (Slot.toEntries last)]) [])
      | _ => none)
    path slots

/-- Sets a dotted key, none of whose tables may be closed. -/
def insert (v : Value) (key : String) : List String → Slots → Option Slots
  | [], slots =>
    slots.update key fun
      | none => some (.value v)
      | some _ => none
  | next :: path, slots =>
    slots.update key fun
      | none => (insert v next path []).map (.table false true)
      | some (.table false isDotted entries) =>
        (insert v next path entries).map (.table false isDotted)
      | _ => none

end Slots

end DeclTree.Toml
