import DeclTree.Config.Load
import DeclTree.Data.Toml.Printer

/-!
# Saving

A configuration is written as TOML. What the file held before is kept in backups next to it, the
newest with the number one; the oldest is dropped. Backups that were moved stay moved when a later
step fails.
-/

set_option autoImplicit false
set_option relaxedAutoImplicit false

namespace DeclTree.Config

/-- Steps on files that may fail, and keep what was done before. -/
abbrev Saving := ExceptT Fault (StateM FileTree)

def backupCount : Nat := 3

def backupPath (path : String) (n : Nat) : String := path ++ ".back" ++ toString n

def render (c : Config) : String := Toml.render c.data

namespace Saving

/-- What an operation on a path met. -/
def trouble (operation path : String) (t : FileTree.Trouble) : Fault :=
  Fault.ofParts [operation ++ " " ++ path, t.text]

/-- Changes the files, or fails with a message in front of the trouble. -/
def change (f : FileTree → Except Fault FileTree) : Saving Unit := do
  match f (← get) with
  | .ok files => set files
  | .error fault => throw fault

/-- Makes room for a backup by dropping the oldest one. -/
def dropOldest (workdir : Path) (path : String) : Saving Unit :=
  let oldest := backupPath path backupCount
  change fun files =>
    match files.remove workdir oldest with
    | .ok files => .ok files
    | .error .missing => .ok files
    | .error t => .error ((trouble "remove" oldest t).wrap ("failed to delete " ++ oldest))

/-- Gives a backup the next higher number, if it is there. -/
def shift (workdir : Path) (path : String) (n : Nat) : Saving Unit :=
  let source := backupPath path n
  let target := backupPath path (n + 1)
  change fun files =>
    if files.isThere workdir source then
      match files.rename workdir source target with
      | .ok files => .ok files
      | .error t =>
        .error ((trouble "rename" (source ++ " " ++ target) t).wrap
          ("failed to rotate " ++ source))
    else .ok files

/-- Copies the file into the newest backup. -/
def copyNewest (workdir : Path) (path : String) : Saving Unit :=
  let newest := backupPath path 1
  change fun files =>
    match files.read workdir path with
    | .error t =>
      let operation := if t = .isDirectory then "read" else "open"
      .error ((trouble operation path t).wrap "failed to read config for backup")
    | .ok content =>
      match files.write workdir newest content with
      | .ok files => .ok files
      | .error t => .error ((trouble "open" newest t).wrap ("failed to create " ++ newest))

/-- Keeps what a path holds in its backups. -/
def backUp (workdir : Path) (path : String) : Saving Unit := do
  match (← get).stat workdir path with
  | .error .missing => pure ()
  | _ =>
    dropOldest workdir path
    shift workdir path 2
    shift workdir path 1
    copyNewest workdir path

def makeDirs (workdir : Path) (dir : String) : Saving Unit := do
  let (files, met) := (← get).makeDirs workdir dir
  set files
  match met with
  | none => pure ()
  | some (text, t) => throw ((trouble "mkdir" text t).wrap ("failed to create " ++ dir))

def writeFile (workdir : Path) (path content : String) : Saving Unit :=
  change fun files =>
    match files.write workdir path content with
    | .ok files => .ok files
    | .error t => .error ((trouble "open" path t).wrap ("failed to write " ++ path))

end Saving

/-- Saves a valid configuration under a path. -/
def save (workdir : Path) (path : String) (c : Config) : Saving Unit := do
  let c ← match c.validated with
    | .ok c => pure c
    | .error fault => throw fault
  Saving.makeDirs workdir (Path.parentText path)
  (Saving.backUp workdir path).adapt fun fault => fault.wrap "failed to create backup"
  Saving.writeFile workdir path c.render

/-- What saving does when there is no configuration. -/
def nothingToSave : Fault := Fault.new "nil config"

/-- Saves a configuration under a path, if there is one. -/
def saveGiven (workdir : Path) (path : String) : Option Config → Saving Unit
  | none => throw nothingToSave
  | some c => save workdir path c

end DeclTree.Config
