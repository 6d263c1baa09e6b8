import DeclTree.Command.Run

/-!
# The program

The layer around `Command.run`. It takes a picture of the files and variables that a command line
may ask for, runs the command line on that picture, prints what was printed and logged, and makes
the changes to the files that the run made to the picture.
-/

set_option autoImplicit false
set_option relaxedAutoImplicit false

namespace DeclTree.Program

/-!
## What a command line may ask for
-/

/-- The places through which a written path leads, from a working directory. -/
def visited (workdir : Path) (text : String) : List Path :=
  let start := if Path.isRooted text then [] else workdir.reverse
  let (_, places) := (Path.steps text).foldl
    (fun (place, places) step =>
      let next := Path.cleanStep true place step
      (next, places ++ [next.reverse]))
    (start, [])
  places

/-- The paths that a word may hold: itself, what is behind a letter of a flag or an equals sign. -/
def mentioned (word : String) : List String :=
  let cs := word.toList
  [cs, cs.drop 2, (cs.dropWhile fun c => c ≠ '=').drop 1].map String.ofList

/-- A path with its backups. -/
def withBackups (path : String) : List String :=
  path :: (List.range Config.backupCount).map fun n => Config.backupPath path (n + 1)

/-- The places where a configuration is looked for. -/
def configPlaces (home workdir : Path) : List Path :=
  (home ++ [Config.userFile]) ::
    (List.range (workdir.length + 1)).map fun n => workdir.take n ++ [Config.projectFile]

/-- The places that a command line may read or change. -/
def places (home workdir : Path) (args : List String) : List Path :=
  let paths := ("" :: args.flatMap mentioned).flatMap fun path =>
    path :: (withBackups path ++ withBackups (Path.inside path Config.projectFile))
  configPlaces home workdir ++ paths.flatMap (visited workdir)

/-- The environment variables that count. -/
def variableNames : List String :=
  Config.layout.flatMap fun (sectionName, keys) =>
    Config.variableName [sectionName] ::
      keys.map fun key => Config.variableName [sectionName, key]

/-- The identities of one run, counted up from a random number. -/
def identity (seed i : Nat) : Uid :=
  let digits := fun (width n : Nat) => String.ofList (Text.hexDigits width n)
  let n := seed + i
  "-".intercalate [digits 8 (n >>> 96), digits 4 (n >>> 80), "4" ++ digits 3 (n >>> 64),
    digits 4 (32768 + (n >>> 48) % 16384), digits 12 n]

/-!
## The machine
-/

def written (path : Path) : String := "/" ++ Path.render path

/-- What is at a place whose directory exists. -/
def look (path : Path) : IO (Option FileTree.Entry) := do
  try
    return some (.file (← IO.FS.readFile (written path)))
  catch
    | .noFileOrDirectory .. => return none
    | _ => return some .dir

/-- Adds a place and the directories above it to a picture. -/
def see (t : FileTree) (path : Path) : IO FileTree :=
  (List.range path.length).foldlM
    (fun t n => do
      let place := path.take (n + 1)
      if (t.entry? place).isSome || t.entry? place.dropLast ≠ some .dir then return t
      match ← look place with
      | some e => return t.put place e
      | none => return t)
    t

def putInPlace (path : Path) : FileTree.Entry → IO Unit
  | .dir => IO.FS.createDirAll (written path)
  | .file content => IO.FS.writeFile (written path) content

def removeFrom (path : Path) : FileTree.Entry → IO Unit
  | .dir => IO.FS.removeDir (written path)
  | .file _ => IO.FS.removeFile (written path)

/-- Makes the changes that lead from one picture to another. -/
def carryOut (before after : FileTree) : IO Unit := do
  for (path, e) in after.entries do
    if before.entry? path ≠ some e then putInPlace path e
  for (path, e) in before.entries do
    if (after.entry? path).isNone then removeFrom path e

/-- Everything that is left on a stream. -/
partial def readAll (stream : IO.FS.Stream) (sofar : String) : IO String := do
  let line ← stream.getLine
  if line.isEmpty then return sofar else readAll stream (sofar ++ line)

def surroundings (args : List String) : IO Surroundings := do
  let workdir := (visited [] (toString (← IO.currentDir))).getLastD []
  let home := (visited [] ((← IO.getEnv "HOME").getD "/")).getLastD []
  let mut environment := []
  for name in variableNames do
    if let some value ← IO.getEnv name then
      environment := (name, value) :: environment
  let files ← (places home workdir args).foldlM see FileTree.empty
  return { files, workdir, home, environment }

def session (args : List String) : IO Command.Session := do
  let input ← if Command.readsInput args then readAll (← IO.getStdin) "" else pure ""
  let seed := (← IO.getRandomBytes 16).toList.foldl (fun n b => 256 * n + b.toNat) 0
  let build : Command.Build := ⟨Version.unrecorded, "unknown", "unknown"⟩
  return Command.Session.start (← surroundings args) input (identity seed) build

/-- Runs a command line; the result is one where it failed. -/
def run (args : List String) : IO UInt32 := do
  let before ← session args
  let (result, after) := Command.run args before
  carryOut before.surroundings.files after.surroundings.files
  IO.print after.output
  for line in after.written do
    IO.eprintln line.text
  match result with
  | .ok _ => return 0
  | .error (.fault f) =>
    IO.eprintln ("Error: " ++ f.message)
    return 1
  | .error .crash =>
    IO.eprintln "Error: the tree has an empty place"
    return 2

end DeclTree.Program

def main (args : List String) : IO UInt32 := DeclTree.Program.run args
