import DeclTree.Config.Save
import DeclTree.Log
import DeclTree.Version

/-!
# Sessions

What a command reads and changes: the machine around it, the text on its standard input, what it
has printed and what it has logged. A command may end in a failure; what it did before that stays.
-/

set_option autoImplicit false
set_option relaxedAutoImplicit false

namespace DeclTree.Command

/-- How records are written, and from which level on. -/
structure Logger where
  isJson : Bool
  verbosity : Int
  deriving DecidableEq, Repr

/-- A record with the way in which it is written. -/
structure LogLine where
  isJson : Bool
  record : Log.Record

def LogLine.text (l : LogLine) : String :=
  if l.isJson then Json.inline Log.Record.encodeChar "" l.record.data else l.record.console

/-- What a build was made with. -/
structure Build where
  version : Version
  toolchain : String
  platform : String

structure Session where
  surroundings : Surroundings
  input : String
  mint : Nat → Uid
  build : Build
  output : String
  logger : Logger
  pending : List Log.Record
  written : List LogLine

namespace Session

def start (surroundings : Surroundings) (input : String) (mint : Nat → Uid) (build : Build) :
    Session where
  surroundings := surroundings
  input := input
  mint := mint
  build := build
  output := ""
  logger := ⟨false, 0⟩
  pending := []
  written := []

/-- Writes the records that wait; of records as data only a sample is written. -/
def flush (s : Session) : Session :=
  let records := if s.logger.isJson then Log.Record.sampled s.pending else s.pending
  { s with
    pending := []
    written := s.written ++ records.map fun r => ⟨s.logger.isJson, r⟩ }

def log (s : Session) (r : Log.Record) : Session :=
  if r.isWritten s.logger.verbosity then { s with pending := s.pending ++ [r] } else s

/-- Sets up logging anew. -/
def initLogger (s : Session) (logger : Logger) (message : String) : Session :=
  { s.flush with logger }.log
    ⟨.debug, "", message, [("verbosity", .text (Log.verbosityName logger.verbosity))]⟩

end Session

/-- A computation in a session. -/
abbrev Job := ExceptT Failure (StateM Session)

namespace Job

def fail {α : Type} (f : Fault) : Job α := throw (.fault f)

def lift {α : Type} (x : Except Fault α) : Job α :=
  match x with
  | .ok a => pure a
  | .error f => fail f

def surroundings : Job Surroundings := return (← get).surroundings

def print (text : String) : Job Unit := modify fun s => { s with output := s.output ++ text }

def log (r : Log.Record) : Job Unit := modify fun s => s.log r

def initLogger (logger : Logger) (message : String) : Job Unit :=
  modify fun s => s.initLogger logger message

def setFiles (files : FileTree) : Job Unit :=
  modify fun s => { s with surroundings := { s.surroundings with files } }

/-- Logs what happened in a run and goes on with its outcome. -/
def follow {α : Type} (x : Run α) : Job α := do
  for event in x.events do
    match event.record? with
    | some r => log r
    | none => pure ()
  match x.outcome with
  | .ok a => return a
  | .error e => throw e

/-- Runs steps on the files of the session. -/
def onFiles (steps : Config.Saving Unit) : Job Unit := do
  let (result, files) := steps.run.run (← surroundings).files
  setFiles files
  lift result

end Job

end DeclTree.Command
