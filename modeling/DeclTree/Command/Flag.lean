import DeclTree.Config.Settings
import DeclTree.Text.Csv

/-!
# Flags

What can be given to a command behind dashes. A flag takes a text, a truth value, a number or a list
of texts, or it counts how often it comes. `Flag.parse` reads the arguments of a command into values
and operands; flags and operands may be mixed.
-/

set_option autoImplicit false
set_option relaxedAutoImplicit false

namespace DeclTree.Command

/-- What a flag takes. -/
inductive Takes where
  | text
  | truth
  | int
  | texts
  | count
  deriving DecidableEq, Repr

structure Flag where
  name : String
  letter : Option Char
  takes : Takes
  deriving DecidableEq, Repr

/-- What was given to a flag. -/
inductive Given where
  | text (s : String)
  | truth (b : Bool)
  | int (n : Int)
  | texts (ss : List String)
  deriving DecidableEq, Repr

/-- What was given to the flags of a command, and the operands beside them. -/
structure Arguments where
  given : List (String × Given)
  operands : List String
  deriving DecidableEq, Repr

namespace Arguments

def get? (a : Arguments) (name : String) : Option Given := a.given.lookup name

def text (a : Arguments) (name default : String) : String :=
  match a.get? name with
  | some (.text s) => s
  | _ => default

def truth? (a : Arguments) (name : String) : Option Bool :=
  match a.get? name with
  | some (.truth b) => some b
  | _ => none

def truth (a : Arguments) (name : String) : Bool := (a.truth? name).getD false

def int? (a : Arguments) (name : String) : Option Int :=
  match a.get? name with
  | some (.int n) => some n
  | _ => none

def texts? (a : Arguments) (name : String) : Option (List String) :=
  match a.get? name with
  | some (.texts ss) => some ss
  | _ => none

/-- Replaces what was given to a flag. -/
def set (a : Arguments) (name : String) (g : Given) : Arguments :=
  { a with given := (name, g) :: a.given.filter fun (n, _) => n ≠ name }

def addOperand (a : Arguments) (s : String) : Arguments := { a with operands := a.operands ++ [s] }

end Arguments

namespace Flag

/-- What a flag without a value stands for, where it may come without one. -/
def implied? (f : Flag) : Option String :=
  match f.takes with
  | .truth => some "true"
  | .count => some "+1"
  | _ => none

/-- A flag as messages show it. -/
def label (f : Flag) : String :=
  match f.letter with
  | some c => "-" ++ String.singleton c ++ ", --" ++ f.name
  | none => "--" ++ f.name

def intFault (s : String) (flaw : Number.Flaw) : String :=
  "strconv.ParseInt: parsing " ++ Text.quoted s ++ ": " ++
    match flaw with
    | .malformed => "invalid syntax"
    | .tooLarge => "value out of range"

/-- What a flag makes of a value, on top of what it was given before. -/
def take (f : Flag) (a : Arguments) (value : String) : Except String Given :=
  match f.takes with
  | .text => .ok (.text value)
  | .truth =>
    match Config.flagOfText? value with
    | some b => .ok (.truth b)
    | none => .error ("strconv.ParseBool: parsing " ++ Text.quoted value ++ ": invalid syntax")
  | .int =>
    match Number.parseInt value with
    | .ok n => .ok (.int n)
    | .error flaw => .error (intFault value flaw)
  | .count =>
    if value = "+1" then .ok (.int ((a.int? f.name).getD 0 + 1))
    else
      match Number.parseInt value with
      | .ok n => .ok (.int n)
      | .error flaw => .error (intFault value flaw)
  | .texts =>
    match if value = "" then .ok [] else Text.Csv.read value with
    | .ok ss => .ok (.texts ((a.texts? f.name).getD [] ++ ss))
    | .error flaw => .error flaw.text

/-- Gives a value to a flag. -/
def give (f : Flag) (a : Arguments) (value : String) : Except Fault Arguments :=
  match f.take a value with
  | .ok g => .ok (a.set f.name g)
  | .error reason =>
    .error (Fault.external ("invalid argument " ++ Text.quoted value ++ " for " ++
      Text.quoted f.label ++ " flag: " ++ reason))

def named? (flags : List Flag) (name : String) : Option Flag := flags.find? fun f => f.name = name

def lettered? (flags : List Flag) (c : Char) : Option Flag := flags.find? fun f => f.letter = some c

/-- The text before the first equals sign, and what is behind it if there is one. -/
def splitValue (cs : List Char) : String × Option String :=
  let name := String.ofList (cs.takeWhile fun c => c ≠ '=')
  match cs.dropWhile fun c => c ≠ '=' with
  | _ :: value => (name, some (String.ofList value))
  | [] => (name, none)

/-- A flag behind two dashes, with the arguments that follow it. -/
def parseLong (flags : List Flag) (a : Arguments) (body : List Char) (rest : List String) :
    Except Fault (Arguments × List String) := do
  if body.head? = some '-' || body.head? = some '=' then
    throw (Fault.external ("bad flag syntax: --" ++ String.ofList body))
  let (name, value?) := splitValue body
  match named? flags name with
  | none => throw (Fault.external ("unknown flag: --" ++ name))
  | some f =>
    match value?.or f.implied? with
    | some value => return (← f.give a value, rest)
    | none =>
      match rest with
      | value :: rest => return (← f.give a value, rest)
      | [] => throw (Fault.external ("flag needs an argument: --" ++ name))

/-- A letter as messages about unknown flags show it: by the first byte of its written form. -/
def letterLabel (c : Char) : String :=
  Text.quotedChar (Char.ofNat ((String.singleton c).toUTF8.toList.headD 0).toNat)

/-- Flags behind one dash, each of one letter; the last may have its value attached. -/
def parseShort (flags : List Flag) (a : Arguments) :
    List Char → List String → Except Fault (Arguments × List String)
  | [], rest => .ok (a, rest)
  | c :: more, rest =>
    let all := String.ofList (c :: more)
    match lettered? flags c with
    | none =>
      .error (Fault.external ("unknown shorthand flag: " ++ letterLabel c ++ " in -" ++ all))
    | some f =>
      match more, f.implied? with
      | '=' :: v :: value, _ =>
        match f.give a (String.ofList (v :: value)) with
        | .ok a => .ok (a, rest)
        | .error e => .error e
      | _, some value =>
        match f.give a value with
        | .ok a => parseShort flags a more rest
        | .error e => .error e
      | [], none =>
        match rest with
        | value :: rest =>
          match f.give a value with
          | .ok a => .ok (a, rest)
          | .error e => .error e
        | [] =>
          .error (Fault.external
            ("flag needs an argument: " ++ letterLabel c ++ " in -" ++ all))
      | _, none =>
        match f.give a (String.ofList more) with
        | .ok a => .ok (a, rest)
        | .error e => .error e

/-- Reads arguments from left to right; two dashes end the flags. -/
def parseFrom (flags : List Flag) : Nat → Arguments → List String → Except Fault Arguments
  | 0, a, _ => .ok a
  | _, a, [] => .ok a
  | fuel + 1, a, arg :: rest =>
    match arg.toList with
    | ['-', '-'] => .ok { a with operands := a.operands ++ rest }
    | '-' :: '-' :: body => do
      let (a, rest) ← parseLong flags a body rest
      parseFrom flags fuel a rest
    | '-' :: c :: letters => do
      let (a, rest) ← parseShort flags a (c :: letters) rest
      parseFrom flags fuel a rest
    | _ => parseFrom flags fuel (a.addOperand arg) rest

def parse (flags : List Flag) (args : List String) : Except Fault Arguments :=
  parseFrom flags args.length ⟨[], []⟩ args

end Flag

end DeclTree.Command
