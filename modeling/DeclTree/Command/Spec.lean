import DeclTree.Command.Flag

/-!
# Commands

The commands there are, with their flags and the operands they take. `Spec.find` goes from the
program down to the command that is named among the arguments; what is left are the arguments of
that command.
-/

set_option autoImplicit false
set_option relaxedAutoImplicit false

namespace DeclTree.Command

/-- What can be run. -/
inductive Action where
  | help
  | lower
  | passes
  | configShow
  | configValidate
  | configInit
  | version
  deriving DecidableEq, Repr

/-- How many operands a command takes; the program itself only takes the name of a command. -/
inductive Operands where
  | any
  | command
  | atMost (n : Nat)
  deriving DecidableEq, Repr

/-- A command: its flags, those that hold for the commands below it as well, and these. -/
inductive Spec where
  | mk (name : String) (action : Action) (operands : Operands) (flags shared : List Flag)
    (commands : List Spec)

namespace Spec

def name : Spec → String
  | .mk name .. => name

def action : Spec → Action
  | .mk _ action .. => action

def operands : Spec → Operands
  | .mk _ _ operands .. => operands

def flags : Spec → List Flag
  | .mk _ _ _ flags .. => flags

def shared : Spec → List Flag
  | .mk _ _ _ _ shared _ => shared

def commands : Spec → List Spec
  | .mk _ _ _ _ _ commands => commands

def configFlag : Flag := ⟨"config", some 'c', .text⟩

def lower : Spec :=
  .mk "lower" .lower (.atMost 0)
    [⟨"input", some 'i', .text⟩, ⟨"output", some 'o', .text⟩, ⟨"format", none, .text⟩,
      ⟨"output-format", none, .text⟩, configFlag, ⟨"passes", some 'p', .texts⟩,
      ⟨"workers", some 'w', .int⟩, ⟨"flatten", none, .truth⟩,
      ⟨"fail-on-collision", none, .truth⟩, ⟨"assign-uids", none, .truth⟩]
    [] []

def config : Spec :=
  .mk "config" .help .any [] [configFlag]
    [.mk "show" .configShow (.atMost 0) [⟨"format", none, .text⟩] [] [],
      .mk "validate" .configValidate (.atMost 0) [] [] [],
      .mk "init" .configInit (.atMost 1) [⟨"force", none, .truth⟩] [] []]

/-- The program with all its commands. -/
def program : Spec :=
  .mk "declower" .help .command [] [⟨"verbose", some 'v', .count⟩, ⟨"log-json", none, .truth⟩]
    [lower, .mk "passes" .passes (.atMost 0) [] [] [], config,
      .mk "version" .version (.atMost 0) [⟨"json", some 'j', .truth⟩] [] [],
      .mk "help" .help .any [] [] [], .mk "completion" .help .any [] [] []]

/-- Whether a flag behind dashes takes the argument after it; one that is not known does. -/
def takesNext (flags : List Flag) (arg : List Char) : Bool :=
  if arg.contains '=' then false
  else
    match arg with
    | '-' :: '-' :: name =>
      match Flag.named? flags (String.ofList name) with
      | some f => f.implied?.isNone
      | none => true
    | ['-', c] =>
      match Flag.lettered? flags c with
      | some f => f.implied?.isNone
      | none => true
    | _ => false

/-- The arguments that are no flags and no values of flags. -/
def words (flags : List Flag) : Nat → List String → List String
  | 0, _ => []
  | _, [] => []
  | fuel + 1, arg :: rest =>
    if arg = "--" then []
    else if takesNext flags arg.toList then
      if rest.length ≤ 1 then [] else words flags fuel rest.tail
    else if arg = "" || arg.toList.head? = some '-' then words flags fuel rest
    else arg :: words flags fuel rest

/-- The arguments without the first that is a given word. -/
def without (flags : List Flag) (word : String) : Nat → List String → List String
  | 0, args => args
  | _, [] => []
  | fuel + 1, arg :: rest =>
    if arg = "--" then arg :: rest
    else if takesNext flags arg.toList then
      match rest with
      | [] => [arg]
      | value :: rest => arg :: value :: without flags word fuel rest
    else if arg = word then rest
    else arg :: without flags word fuel rest

/-- A command with the names and the shared flags of those above it. -/
structure Found where
  spec : Spec
  path : List String
  inherited : List Flag
  args : List String

/-- Goes down to the command that the arguments name. -/
def descend (spec : Spec) (path : List String) (inherited : List Flag) (args : List String) :
    Nat → Found
  | 0 => ⟨spec, path, inherited, args⟩
  | fuel + 1 =>
    let flags := spec.flags ++ spec.shared ++ inherited
    match words flags args.length args with
    | [] => ⟨spec, path, inherited, args⟩
    | word :: _ =>
      match spec.commands.find? fun s => s.name = word with
      | none => ⟨spec, path, inherited, args⟩
      | some next =>
        descend next (path ++ [word]) (spec.shared ++ inherited)
          (without flags word args.length args) fuel

/-- The command that the arguments name, from the program down. -/
def find (args : List String) : Found := descend program [program.name] [] args (args.length + 1)

def helpFlag : Flag := ⟨"help", some 'h', .truth⟩

/-- All flags of a command. -/
def Found.flags (f : Found) : List Flag :=
  f.spec.flags ++ f.spec.shared ++ f.inherited ++ [helpFlag]

def Found.commandPath (f : Found) : String := " ".intercalate f.path

/-!
## Suggestions
-/

/-- One more row of the table of distances. -/
def distanceRow (c : UInt8) : Nat → List UInt8 → List Nat → List Nat
  | left, t :: ts, diagonal :: above :: row =>
    let d := if c = t then diagonal else 1 + min left (min above diagonal)
    d :: distanceRow c d ts (above :: row)
  | _, _, _ => []

/-- How many letters have to be put in, left out or replaced to make one text of another. -/
def distance (s t : String) : Nat :=
  let rows := s.toUTF8.toList.foldl
    (fun row c =>
      let first := row.headD 0 + 1
      first :: distanceRow c first t.toUTF8.toList row)
    (List.range (t.utf8ByteSize + 1))
  rows.getLastD 0

/-- The names that someone may have meant. -/
def suggestions (names : List String) (typed : String) : List String :=
  let typed := Text.lowercase typed
  names.filter fun name => distance typed name ≤ 2 || typed.toList.isPrefixOf name.toList

/-- What is said of a command that does not exist. -/
def suggestionText (typed : String) : String :=
  let names := (program.commands.map Spec.name).filter (· ≠ "help")
  match suggestions names typed with
  | [] => ""
  | found => "\n\nDid you mean this?\n" ++ String.join (found.map fun name => "\t" ++ name ++ "\n")

def unknownCommand (word path : String) : String :=
  "unknown command " ++ Text.quoted word ++ " for " ++ Text.quoted path

/-- The fault of arguments that name no command. -/
def Found.checkCommand (f : Found) : Except Fault Unit :=
  if f.spec.operands = .command then
    let flags := f.spec.flags ++ f.spec.shared ++ f.inherited
    match words flags f.args.length f.args with
    | [] => .ok ()
    | word :: _ =>
      .error (Fault.external (unknownCommand word f.commandPath ++ suggestionText word))
  else .ok ()

/-- The fault of operands that the command does not take. -/
def Found.checkOperands (f : Found) (a : Arguments) : Except Fault Unit :=
  match f.spec.operands with
  | .atMost n =>
    if a.operands.length ≤ n then .ok ()
    else if n = 0 then
      .error (Fault.external (unknownCommand (a.operands.headD "") f.commandPath))
    else
      .error (Fault.external ("accepts at most " ++ toString n ++ " arg(s), received " ++
        toString a.operands.length))
  | _ => .ok ()

end Spec

end DeclTree.Command
