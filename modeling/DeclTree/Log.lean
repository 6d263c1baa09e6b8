import DeclTree.Document.Text
import DeclTree.Lowering.Pipeline

/-!
# Log records

What happens is written as records with a level, the name of the logger, a message and fields.
`Event.record?` gives the record of an event and `Record.console` the line for it on a console.
Verbosity counts how often more was asked for; it decides which levels are written.
-/

set_option autoImplicit false
set_option relaxedAutoImplicit false

namespace DeclTree

namespace Log

inductive Level where
  | debug
  | info
  | warn
  | error
  deriving DecidableEq, Repr

namespace Level

def name : Level → String
  | .debug => "debug"
  | .info => "info"
  | .warn => "warn"
  | .error => "error"

def rank : Level → Nat
  | .debug => 0
  | .info => 1
  | .warn => 2
  | .error => 3

/-- The number of the colour in which a level is written. -/
def colour : Level → Nat
  | .debug => 35
  | .info => 34
  | .warn => 33
  | .error => 31

/-- The lowest level that is written at a verbosity. -/
def ofVerbosity (verbosity : Int) : Level :=
  if verbosity ≤ 0 then .warn
  else if verbosity = 1 then .info
  else .debug

end Level

/-- The name of a verbosity. -/
def verbosityName (verbosity : Int) : String :=
  if verbosity < 0 then "Unknown"
  else if verbosity = 0 then "User"
  else if verbosity = 1 then "Info (-v)"
  else if verbosity = 2 then "Debug (-vv)"
  else if verbosity = 3 then "Trace (-vvv)"
  else if verbosity = 4 then "All (-vvvv)"
  else "All (-vvvv+)"

/-- Whether each node is traced. -/
def isTraced (verbosity : Int) : Bool := traceVerbosity ≤ verbosity

/-- Whether whole trees are written. -/
def isDumped (verbosity : Int) : Bool := Pipeline.dumpVerbosity ≤ verbosity

structure Record where
  level : Level
  logger : String
  message : String
  fields : List (String × Data)

namespace Record

/-- The field for the time that something took. -/
def durationKey : String := "duration_ms"

/-- The fields without times. -/
def timeless (r : Record) : List (String × Data) := r.fields.filter fun f => f.1 ≠ durationKey

/-- Whether the level of a record lets it through. -/
def isWritten (verbosity : Int) (r : Record) : Bool :=
  (Level.ofVerbosity verbosity).rank ≤ r.level.rank

/-- One record as data, where records are written as data. -/
def data (r : Record) : Data :=
  .record (("level", .text r.level.name) ::
    (if r.logger = "" then [] else [("logger", .text r.logger)]) ++
    ("msg", .text r.message) :: r.timeless)

/-- How a character is written in a record: by its number only where it has to be. -/
def encodeChar (c : Char) : List Char :=
  if c = '"' then ['\\', '"']
  else if c = '\\' then ['\\', '\\']
  else if c = '\n' then ['\\', 'n']
  else if c = '\r' then ['\\', 'r']
  else if c = '\t' then ['\\', 't']
  else if c.toNat < 32 then '\\' :: 'u' :: Text.hexDigits 4 c.toNat
  else [c]

/-- The level in its colour, the name of the logger, the message and the fields between tabs. -/
def console (r : Record) : String :=
  let escape := String.singleton (Char.ofNat 27)
  let colour := escape ++ "[" ++ toString r.level.colour ++ "m"
  let level := colour ++ r.level.name.toUpper ++ escape ++ "[0m"
  let logger := if r.logger = "" then [] else [r.logger]
  let fields := if r.fields.isEmpty then [] else [Json.inline encodeChar " " (.record r.fields)]
  "\t".intercalate (level :: logger ++ r.message :: fields)

/-- How many equal records are written before only some are. -/
def sampleSize : Nat := 100

/-- Leaves out most of the records that come very often: of equal ones the first hundred are
written, and every hundredth after them. -/
def sampled (records : List Record) : List Record :=
  let numbered := records.zipIdx.map fun (r, i) =>
    (r, ((records.take i).filter fun s => s.level = r.level && s.message = r.message).length + 1)
  (numbered.filter fun (_, n) => n ≤ sampleSize || (n - sampleSize) % sampleSize = 0).map Prod.fst

end Record

end Log

/-- The name of a module in a record. -/
def Module.logName (m : Module) : String := Name.text? m.head.name

/-- The record of an event, where it is logged. -/
def Event.record? : Event → Option Log.Record
  | .observed .. => none
  | .dispatched pass owner =>
    some ⟨.debug, "lowering", "Lowering node",
        [("pass", .text pass), ("node", .text owner.node.describe),
          ("kind", .text (owner.node.kind?.elim "" Kind.text)), ("owner", .text owner.path)]⟩
  | .unnamed owner reason =>
    some ⟨.debug, "thistype", "Self-type resolved to top type",
        [("owner", .text owner.path), ("fallback", .text reason.text)]⟩
  | .collided c =>
    some ⟨.warn, "escape", "Escaped identifiers collide",
        [("owner", .text c.scope), ("escaped", .text c.escaped),
          ("identifier", Data.ofTexts c.names)]⟩
  | .failed pass root fault =>
    some ⟨.error, "lowering", "Lowering pass failed",
        [("pass", .text pass), ("module", .text root.logName), ("error", .text fault.message)]⟩
  | .finished pass root tree =>
    some ⟨.debug, "lowering", "Lowering pass finished",
        [("pass", .text pass), ("module", .text root.logName),
          ("count", Data.ofInt tree.nodes.length), (Log.Record.durationKey, .number "0")]⟩
  | .dumped pass tree =>
    match Module.write .yaml (some tree) with
    | .ok text =>
      some ⟨.debug, "lowering", "Lowered tree",
        [("pass", .text pass), ("module", .text tree.logName), ("tree", .text text)]⟩
    | .error fault =>
      some ⟨.warn, "lowering", "Could not dump lowered tree",
        [("pass", .text pass), ("error", .text fault.message)]⟩

end DeclTree
