import DeclTree.Command.Session
import DeclTree.Command.Spec
import DeclTree.Passes
import DeclTree.Tree.Flatten

/-!
# Running commands

`Command.run` runs the command that the arguments name and gives the session it ends in, with the
failure that ended it, if any.
-/

set_option autoImplicit false
set_option relaxedAutoImplicit false

namespace DeclTree.Command

/-- Loads the configuration from a given file or from every source. -/
def loadConfig (path : String) : Job Config := do
  let s ← Job.surroundings
  if path ≠ "" then Job.lift (Config.loadFile s path)
  else
    for (file, reason) in (Config.gather s).skipped do
      Job.log ⟨.warn, "", "Skipping unreadable config file",
        [("file", .text ("/" ++ Path.render file)), ("error", .text reason)]⟩
    Job.lift (Config.load s)

/-!
## Lowering a tree
-/

/-- A configuration with what the flags say in place of its settings. -/
def overridden (a : Arguments) (c : Config) : Config :=
  { c with
    passes := (a.texts? "passes").getD c.passes
    workers := (a.int? "workers").getD c.workers
    flatten := (a.truth? "flatten").getD c.flatten
    failOnCollision := (a.truth? "fail-on-collision").getD c.failOnCollision }

def verbosityOf (a : Arguments) : Int := (a.int? "verbose").getD 0

/-- Logs more where the configuration asks for more than the flags do. -/
def raiseLogger (a : Arguments) (c : Config) : Job Unit :=
  let isJson := a.truth "log-json"
  if c.verbosity ≤ verbosityOf a && (!c.logJson || isJson) then pure ()
  else
    Job.initLogger ⟨isJson || c.logJson, max (verbosityOf a) c.verbosity⟩ "Logger raised by config"

/-- The format that was asked for, or the one of a path; standard input and output are YAML. -/
def formatFor (explicit path : String) : Except Fault Format :=
  if explicit ≠ "" then Format.parse explicit
  else if path = "-" then .ok .yaml
  else .ok (Format.ofPath path)

def orWrap {α : Type} (text : String) (x : Except Failure α) : Job α :=
  match x with
  | .ok a => pure a
  | .error e => throw (e.wrap text)

/-- Reads the tree from a file or from standard input. -/
def readTree (path : String) (format : Format) (policy : Document.UidPolicy) : Job Module := do
  let s ← get
  if path = "-" then orWrap "read stdin" (Module.read format policy s.input)
  else
    match s.surroundings.files.read s.surroundings.workdir path with
    | .ok text => orWrap ("read " ++ path) (Module.read format policy text)
    | .error .isDirectory => Job.fail ((Document.unreadable format).wrap ("read " ++ path))
    | .error t => Job.fail ((Config.Saving.trouble "open" path t).wrap ("open " ++ path))

/-- Writes a text to a file or to standard output. -/
def writeText (path : String) (text : Except Fault String) : Job Unit := do
  if path = "-" then Job.print (← Job.lift text)
  else
    let s ← Job.surroundings
    match s.files.write s.workdir path "" with
    | .error t => Job.fail ((Config.Saving.trouble "open" path t).wrap ("create " ++ path))
    | .ok emptied =>
      Job.setFiles emptied
      let content ← Job.lift text
      match emptied.write s.workdir path content with
      | .ok files => Job.setFiles files
      | .error _ => pure ()

def lower (a : Arguments) : Job Unit := do
  let input := a.text "input" "-"
  let output := a.text "output" "-"
  let c ← loadConfig (a.text "config" "")
  let c ← Job.lift (overridden a c).validated
  raiseLogger a c
  let c := { c with verbosity := max (verbosityOf a) c.verbosity }
  let inFormat ← Job.lift (formatFor (a.text "format" "") input)
  let outFormat ← Job.lift (formatFor (a.text "output-format" "") output)
  let mint := (← get).mint
  let policy : Document.UidPolicy := if a.truth "assign-uids" then .minted mint else .required
  let root ← readTree input inFormat policy
  let passes ← Job.lift (Passes.pipeline c)
  let lowered ← Job.follow (Pipeline.lower c.verbosity passes (some root))
  if 0 < lowered.remaining then
    Job.log ⟨.warn, "cli", "Self-type placeholders remain after lowering",
      [("count", Data.ofInt lowered.remaining), ("passes", Data.ofTexts c.passes)]⟩
  Job.log ⟨.info, "cli", "Lowered declaration tree",
    [("file", .text input), ("passes", Data.ofTexts c.passes), ("workers", Data.ofInt c.workers),
      ("count", Data.ofInt lowered.countDeclarations), (Log.Record.durationKey, .number "0")]⟩
  writeText output
    (if c.flatten then Module.writeAll outFormat lowered.flatten
      else Module.write outFormat (some lowered))

/-!
## The other commands
-/

def passLine (name : String) : String :=
  (if Config.defaultPasses.contains name then "*" else " ") ++ " " ++ name ++ "\n"

def listPasses : Job Unit := Job.print (String.join (Passes.names.map passLine))

/-- A configuration in a format by its name. -/
def configText (c : Config) (format : String) : Except Fault String :=
  if format = "toml" then .ok c.render
  else if format = "json" then .ok (Json.render c.exactData ++ "\n")
  else if format = "yaml" then .ok (Yaml.render c.data)
  else
    .error (Fault.new ("unknown format " ++ Text.quoted format ++ " (want toml, json or yaml)"))

def showConfig (a : Arguments) : Job Unit := do
  let c ← loadConfig (a.text "config" "")
  Job.print (← Job.lift (configText c (a.text "format" "toml")))

def validateConfig (a : Arguments) : Job Unit := do
  let _ ← loadConfig (a.text "config" "")
  Job.print "configuration is valid\n"

/-- The fault of a file that is there already. -/
def alreadyThere (path : String) : Fault :=
  (Fault.new (path ++ " already exists")).withHint
    "pass --force to overwrite it; the old file is kept as a backup"

def initConfig (a : Arguments) : Job Unit := do
  let path := Path.inside (a.operands.headD ".") Config.projectFile
  let s ← Job.surroundings
  if s.files.isThere s.workdir path && !a.truth "force" then Job.fail (alreadyThere path)
  else
    Job.onFiles (Config.save s.workdir path Config.default)
    Job.print ("wrote " ++ path ++ "\n")

def showVersion (a : Arguments) : Job Unit := do
  let b := (← get).build
  if a.truth "json" then
    Job.print (Json.render (.record
      [("commit_hash", .text b.version.commit), ("build_time", .text b.version.built),
        ("version", .text b.version.version), ("go_version", .text b.toolchain),
        ("platform", .text b.platform)]) ++ "\n")
  else
    Job.print (b.version.text ++ "\nPlatform: " ++ b.platform ++ "\nGo: " ++ b.toolchain ++ "\n")

def perform (action : Action) (a : Arguments) : Job Unit :=
  match action with
  | .help => pure ()
  | .lower => lower a
  | .passes => listPasses
  | .configShow => showConfig a
  | .configValidate => validateConfig a
  | .configInit => initConfig a
  | .version => showVersion a

/-- Finds the command, reads its flags and performs it. -/
def performLine (args : List String) : Job Unit := do
  let found := Spec.find args
  Job.lift found.checkCommand
  let a ← Job.lift (Flag.parse found.flags found.args)
  if a.truth "help" || found.spec.action = .help then pure ()
  else
    Job.lift (found.checkOperands a)
    Job.initLogger ⟨a.truth "log-json", verbosityOf a⟩ "Logger initialized"
    perform found.spec.action a

/-- Whether a command line reads its standard input. -/
def readsInput (args : List String) : Bool :=
  let found := Spec.find args
  match found.spec.action, Flag.parse found.flags found.args with
  | .lower, .ok a => a.text "input" "-" = "-"
  | _, _ => false

/-- Runs a command line in a session. -/
def run (args : List String) (s : Session) : Except Failure Unit × Session :=
  let (result, s) := (performLine args).run.run s
  (result, s.flush)

end DeclTree.Command
