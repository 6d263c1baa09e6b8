import DeclTree.Text.Pieces

/-!
# Files and directories

A tree of files as a value. Paths are written with slashes and are followed from a working
directory, one step after the other, so that each directory on the way has to exist. Every operation
either succeeds or meets one trouble, which `Trouble.text` words.
-/

set_option autoImplicit false
set_option relaxedAutoImplicit false

namespace DeclTree

/-- A place in a tree: the names from the root. -/
abbrev Path := List String

namespace Path

/-- The steps of a written path. -/
def steps (text : String) : List String := Text.splitAt '/' text

def isRooted (text : String) : Bool := text.toList.head? = some '/'

/-- Takes one step of a path without looking at the files: a step up cancels the one before. -/
def cleanStep (rooted : Bool) (done : List String) (step : String) : List String :=
  if step = "" || step = "." then done
  else if step = ".." then
    match done with
    | last :: rest => if last = ".." then ".." :: done else rest
    | [] => if rooted then [] else [".."]
  else step :: done

/-- A written path without detours. -/
def clean (text : String) : String :=
  let rooted := isRooted text
  let done := ((steps text).foldl (cleanStep rooted) []).reverse
  if rooted then "/" ++ Text.joined "/" done
  else if done.isEmpty then "." else Text.joined "/" done

/-- The directory part of a written path. -/
def parentText (text : String) : String :=
  clean (String.ofList (text.toList.reverse.dropWhile fun c => c ≠ '/').reverse)

/-- A name in a directory, as a written path. -/
def inside (dir name : String) : String :=
  if dir = "" then clean name else clean (dir ++ "/" ++ name)

/-- A written path without the slashes at its end; the root keeps one. -/
def unslashed (text : String) : String :=
  let cs := (text.toList.reverse.dropWhile fun c => c = '/').reverse
  if cs.isEmpty && isRooted text then "/" else String.ofList cs

/-- A written path up to the slash before its last name. -/
def upToLast (text : String) : String :=
  String.ofList (((unslashed text).toList.reverse.dropWhile fun c => c ≠ '/').reverse)

/-- What stands before the last name of a written path, if a slash follows that name. -/
def slashed? (text : String) : Option String :=
  let bare := unslashed text
  let last := (steps bare).getLast?
  if bare = text || last = some "." || last = some ".." then none else some (upToLast text)

/-- The written path of a place. -/
def render (path : Path) : String := Text.joined "/" path

end Path

namespace FileTree

inductive Entry where
  | file (content : String)
  | dir
  deriving DecidableEq, Repr

/-- What can stand in the way of an operation. -/
inductive Trouble where
  | missing
  | notDirectory
  | isDirectory
  | notEmpty
  | taken
  | tooLong
  | notAName
  deriving DecidableEq, Repr

def Trouble.text : Trouble → String
  | .missing => "no such file or directory"
  | .notDirectory => "not a directory"
  | .isDirectory => "is a directory"
  | .notEmpty => "directory not empty"
  | .taken => "file exists"
  | .tooLong => "file name too long"
  | .notAName => "invalid argument"

end FileTree

structure FileTree where
  entries : List (Path × FileTree.Entry)
  deriving DecidableEq, Repr

namespace FileTree

def empty : FileTree := ⟨[]⟩

/-- What is at a place; the root is a directory. -/
def entry? (t : FileTree) (path : Path) : Option Entry :=
  if path.isEmpty then some .dir else t.entries.lookup path

/-- Puts an entry at a place. -/
def put (t : FileTree) (path : Path) (e : Entry) : FileTree :=
  if (t.entries.lookup path).isSome then
    ⟨t.entries.map fun (p, old) => if p = path then (p, e) else (p, old)⟩
  else ⟨t.entries ++ [(path, e)]⟩

def erase (t : FileTree) (path : Path) : FileTree := ⟨t.entries.filter fun (p, _) => p ≠ path⟩

/-- Adds a directory and those around it, where they are missing. -/
def addDir (t : FileTree) (path : Path) : FileTree :=
  (List.range path.length).foldl
    (fun t n =>
      let p := path.take (n + 1)
      if (t.entry? p).isSome then t else t.put p .dir)
    t

/-- Adds a file and the directories around it. -/
def addFile (t : FileTree) (path : Path) (content : String) : FileTree :=
  (t.addDir path.dropLast).put path (.file content)

/-- The files with their contents. -/
def files (t : FileTree) : List (Path × String) :=
  t.entries.filterMap fun (p, e) => match e with
    | .file content => some (p, content)
    | .dir => none

/-- A place from which a path may go on has to be a directory. -/
def requireDir (t : FileTree) (path : Path) : Except Trouble Unit :=
  match t.entry? path with
  | some .dir => .ok ()
  | some (.file _) => .error .notDirectory
  | none => .error .missing

/-- The longest name of a file, in bytes. -/
def maxName : Nat := 255

/-- The longest written path, in bytes. -/
def maxPath : Nat := 4095

/-- Follows steps from a place. -/
def follow (t : FileTree) (place : Path) : List String → Except Trouble Path
  | [] => .ok place
  | step :: rest => do
    t.requireDir place
    if step = "" || step = "." then t.follow place rest
    else if step = ".." then t.follow place.dropLast rest
    else if maxName < step.utf8ByteSize then throw .tooLong
    else t.follow (place ++ [step]) rest

/-- A text that can be a path at all. -/
def requirePath (text : String) : Except Trouble Unit :=
  if text.toList.contains (Char.ofNat 0) then .error .notAName
  else if text = "" then .error .missing
  else if maxPath < text.utf8ByteSize then .error .tooLong
  else .ok ()

/-- The place of a written path; its last step need not exist. -/
def resolve (t : FileTree) (workdir : Path) (text : String) : Except Trouble Path := do
  requirePath text
  t.follow (if Path.isRooted text then [] else workdir) (Path.steps text)

/-- What a written path leads to. -/
def stat (t : FileTree) (workdir : Path) (text : String) : Except Trouble Entry := do
  match t.entry? (← t.resolve workdir text) with
  | some e => return e
  | none => throw .missing

def isThere (t : FileTree) (workdir : Path) (text : String) : Bool := (t.stat workdir text).isOk

/-- The content of a file. -/
def read (t : FileTree) (workdir : Path) (text : String) : Except Trouble String := do
  match ← t.stat workdir text with
  | .file content => return content
  | .dir => throw .isDirectory

/-- Makes a file, or replaces its content. A name with a slash behind it asks for a directory,
whatever is there. -/
def write (t : FileTree) (workdir : Path) (text content : String) : Except Trouble FileTree := do
  requirePath text
  match Path.slashed? text with
  | some parent =>
    if parent ≠ "" then t.requireDir (← t.resolve workdir parent)
    throw .isDirectory
  | none =>
    let path ← t.resolve workdir text
    match t.entry? path with
    | some .dir => throw .isDirectory
    | _ => return t.put path (.file content)

/-- Removes a file or an empty directory. -/
def remove (t : FileTree) (workdir : Path) (text : String) : Except Trouble FileTree := do
  let path ← t.resolve workdir text
  match t.entry? path with
  | none => throw .missing
  | some (.file _) => return t.erase path
  | some .dir =>
    if t.entries.any fun (p, _) => p ≠ path && path.isPrefixOf p then throw .notEmpty
    else return t.erase path

/-- Gives an entry, and all that is in it, another place. -/
def rename (t : FileTree) (workdir : Path) (source target : String) : Except Trouble FileTree := do
  let source ← t.resolve workdir source
  let target ← t.resolve workdir target
  if (t.entry? source).isNone then throw .missing
  else
    let rest := t.entries.filter fun (p, _) => !target.isPrefixOf p || source.isPrefixOf p
    return ⟨rest.map fun (p, e) =>
      if source.isPrefixOf p then (target ++ p.drop source.length, e) else (p, e)⟩

/-- Makes a directory in one that is there. -/
def makeDir (t : FileTree) (workdir : Path) (text : String) : Except Trouble FileTree := do
  let path ← t.resolve workdir (Path.unslashed text)
  if (t.entry? path).isSome then throw .taken else return t.put path .dir

/-- Makes a directory and those around it, where they are missing. What was made stays when a later
one cannot be made; the answer then names that one. -/
def makeDirsUpTo (workdir : Path) : Nat → FileTree → String → FileTree × Option (String × Trouble)
  | 0, t, _ => (t, none)
  | depth + 1, t, text =>
    match t.stat workdir text with
    | .ok .dir => (t, none)
    | .ok (.file _) => (t, some (text, .notDirectory))
    | .error _ =>
      let around := Path.upToLast text
      match if around = "" then (t, none) else makeDirsUpTo workdir depth t around with
      | (t, some trouble) => (t, some trouble)
      | (t, none) =>
        match t.makeDir workdir text with
        | .ok t => (t, none)
        | .error trouble => (t, some (text, trouble))

/-- Makes a directory and those around it. -/
def makeDirs (t : FileTree) (workdir : Path) (text : String) :
    FileTree × Option (String × Trouble) :=
  makeDirsUpTo workdir (text.length + 1) t text

end FileTree

/-- What a program sees of the machine that it runs on. -/
structure Surroundings where
  files : FileTree
  workdir : Path
  home : Path
  environment : List (String × String)

/-- The value of an environment variable; an empty one counts as unset. -/
def Surroundings.given? (s : Surroundings) (name : String) : Option String :=
  match s.environment.lookup name with
  | some "" => none
  | other => other

end DeclTree
