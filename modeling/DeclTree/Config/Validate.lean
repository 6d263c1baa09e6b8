import DeclTree.Config.Basic
import DeclTree.Text.Blank

/-!
# Valid configurations

`Config.flaw?` finds the first setting that is out of range. Whether passes exist is not looked at
here.
-/

set_option autoImplicit false
set_option relaxedAutoImplicit false

namespace DeclTree.Config

/-- What can be wrong with a configuration. -/
inductive Flaw where
  | noPasses
  | blankPass (i : Nat)
  | negativeWorkers (n : Int)
  | noQuote
  | specialQuote (special quote : String)
  | emptyWord (i : Nat)
  | badTopType (flaw : Name.Flaw)
  | negativeVerbosity (n : Int)
  deriving DecidableEq, Repr

def Flaw.invalid (text : String) : Fault := (Fault.ofSentinel .invalidConfig).wrap text

/-- A top type that is no name. -/
def badTopType (flaw : Name.Flaw) : Fault :=
  (flaw.fault.wrap "this_type.top_type").mark .invalidConfig

def Flaw.fault : Flaw → Fault
  | .noPasses => invalid "pipeline.passes cannot be empty"
  | .blankPass i => invalid ("pipeline.passes[" ++ toString i ++ "] is empty")
  | .negativeWorkers n => invalid ("pipeline.workers must be >= 0, got " ++ toString n)
  | .noQuote => invalid "escape.quote cannot be empty"
  | .specialQuote special quote =>
    invalid ("escape.special_characters " ++ Text.quoted special ++ " overlaps escape.quote " ++
      Text.quoted quote)
  | .emptyWord i => invalid ("escape.reserved_words[" ++ toString i ++ "] is empty")
  | .badTopType flaw => Config.badTopType flaw
  | .negativeVerbosity n => invalid ("log.verbosity must be >= 0, got " ++ toString n)

def isBlankText (s : String) : Bool := Text.trimmed s = ""

/-- Whether two texts have a character in common. -/
def overlaps (special quote : String) : Bool :=
  special.toList.any fun c => quote.toList.contains c

def topTypeFlaw? (c : Config) : Option Flaw :=
  match Name.parse c.topType with
  | .ok _ => none
  | .error flaw => some (.badTopType flaw)

/-- The first flaw of a configuration, in the order of its settings. -/
def flaw? (c : Config) : Option Flaw :=
  if c.passes.isEmpty then some .noPasses
  else
    match c.passes.findIdx? isBlankText with
    | some i => some (.blankPass i)
    | none =>
      if c.workers < 0 then some (.negativeWorkers c.workers)
      else if c.profile.quote = "" then some .noQuote
      else if overlaps c.profile.special c.profile.quote then
        some (.specialQuote c.profile.special c.profile.quote)
      else
        match c.profile.reserved.findIdx? fun w => w = "" with
        | some i => some (.emptyWord i)
        | none =>
          match c.topTypeFlaw? with
          | some flaw => some flaw
          | none => if c.verbosity < 0 then some (.negativeVerbosity c.verbosity) else none

def isValid (c : Config) : Bool := c.flaw?.isNone

/-- The configuration itself, if nothing is wrong with it. -/
def validated (c : Config) : Except Fault Config :=
  match c.flaw? with
  | some flaw => .error flaw.fault
  | none => .ok c

end DeclTree.Config
