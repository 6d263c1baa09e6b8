import DeclTree.Config.Settings

/-!
# Loading

A configuration comes from one given file, or from the file of the user, the nearest file of a
project and the environment. In the second case files that cannot be read are skipped. What is
loaded is valid.
-/

set_option autoImplicit false
set_option relaxedAutoImplicit false

namespace DeclTree.Config

def projectFile : String := "declower.toml"

def userFile : String := ".declower.toml"

/-- Values that cannot be taken for what is needed. -/
def unusable : Fault := (Fault.external "unusable value").wrap "failed to unmarshal config"

def ofSources (s : Sources) : Except Fault Config :=
  match s.config? with
  | some c => .ok c
  | none => .error unusable

/-- The settings of a file, unless it cannot be read. -/
def settings? (content : Except FileTree.Trouble String) : Except String Toml.Table :=
  match content with
  | .error trouble => .error trouble.text
  | .ok text =>
    match readFile? text with
    | some t => .ok t
    | none => .error "malformed text"

/-- Loads one file over the defaults; the environment does not count. -/
def loadFile (s : Surroundings) (path : String) : Except Fault Config :=
  match settings? (s.files.read s.workdir path) with
  | .error reason =>
    .error ((Fault.external reason).wrap ("failed to read config file " ++ path))
  | .ok files =>
    match ofSources ⟨files, fun _ => none⟩ >>= validated with
    | .error f => .error (f.wrap ("config file " ++ path))
    | .ok c => .ok c

/-- The nearest file of a project in a directory or around it; the directories are tried from a
given depth upwards. -/
def findProjectUpTo (t : FileTree) (dir : Path) : Nat → Option Path
  | 0 => if (t.entry? [projectFile]).isSome then some [projectFile] else none
  | depth + 1 =>
    let candidate := dir.take (depth + 1) ++ [projectFile]
    if (t.entry? candidate).isSome then some candidate else findProjectUpTo t dir depth

/-- The nearest file of a project in a directory or around it. -/
def findProject (t : FileTree) (dir : Path) : Option Path := findProjectUpTo t dir dir.length

/-- The files that are looked for, the weakest first. -/
def candidates (s : Surroundings) : List Path :=
  (s.home ++ [userFile]) :: (findProject s.files s.workdir).toList

/-- Merged settings, and the files that were skipped with the reasons. -/
structure Gathered where
  settings : Toml.Table
  skipped : List (Path × String)

/-- Merges one file, if it is there and can be read. -/
def Gathered.add (t : FileTree) (g : Gathered) (path : Path) : Gathered :=
  match t.entry? path with
  | none => g
  | some e =>
    let content : Except FileTree.Trouble String := match e with
      | .file text => .ok text
      | .dir => .error .isDirectory
    match settings? content with
    | .ok settings => { g with settings := mergeSections g.settings (relevant settings) }
    | .error reason => { g with skipped := g.skipped ++ [(path, reason)] }

def gather (s : Surroundings) : Gathered := (candidates s).foldl (Gathered.add s.files) ⟨[], []⟩

/-- Loads the configuration from every source. -/
def load (s : Surroundings) : Except Fault Config :=
  ofSources ⟨(gather s).settings, s.given?⟩ >>= validated

end DeclTree.Config
