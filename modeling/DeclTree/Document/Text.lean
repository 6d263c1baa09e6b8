import DeclTree.Data.Json.Printer
import DeclTree.Data.Json.Reader
import DeclTree.Data.Yaml.Printer
import DeclTree.Document.Data
import DeclTree.Document.Decode
import DeclTree.Document.Encode
import DeclTree.Document.Yaml
import DeclTree.Text.Lowercase

/-!
# Trees as text

A tree is written and read in one of two text formats. Reading goes from the text to a document and
from there to the tree, so what is wrong with the text is found before anything that is wrong with
the tree.
-/

set_option autoImplicit false
set_option relaxedAutoImplicit false

namespace DeclTree

/-- A text format; one that was asked for and does not exist keeps its name. -/
inductive Format where
  | yaml
  | json
  | unknown (name : String)
  deriving DecidableEq, Repr

namespace Format

/-- The format of an exact name; no name is YAML. -/
def named (name : String) : Format :=
  if name = "yaml" || name = "" then .yaml
  else if name = "json" then .json
  else .unknown name

def name : Format → String
  | .yaml => "yaml"
  | .json => "json"
  | .unknown name => name

/-- A name as users write it, with a dot in front or without, in any case. -/
def parse (s : String) : Except Fault Format :=
  let bare := match s.toList with
    | '.' :: rest => rest
    | cs => cs
  let word := Text.lowercase (String.ofList bare)
  if word = "yaml" || word = "yml" || word = "" then .ok .yaml
  else if word = "json" then .ok .json
  else .error (Fault.new ("unknown format " ++ Text.quoted s ++ " (want yaml or json)"))

/-- The end of a path from its last dot on, unless a slash comes later. -/
def extension (path : String) : String :=
  let tail := path.toList.reverse.takeWhile fun c => c ≠ '/'
  if tail.contains '.' then
    String.ofList ('.' :: (tail.takeWhile fun c => c ≠ '.').reverse)
  else ""

/-- The format of a file, by the end of its path; YAML where that says nothing. -/
def ofPath (path : String) : Format :=
  match parse (extension path) with
  | .ok format => format
  | .error _ => .yaml

def refuse (name : String) : Fault := Fault.new ("unknown format " ++ Text.quoted name)

end Format

namespace Document

def emptyText : Fault := (Fault.ofSentinel .invalidTree).wrap "empty document"

/-- Text that cannot be read, in the words of its format. -/
def unreadable (format : Format) : Fault :=
  (Fault.external "malformed text").wrap ("decode " ++ format.name)

/-- The plain data of a text: a document, or a list of documents. -/
def dataOfText (format : Format) (content : Content) (text : String) : Except Failure Data :=
  match format with
  | .json =>
    match Json.read text with
    | .blank => .error (.fault emptyText)
    | .malformed => .error (.fault (unreadable .json))
    | .value d => .ok d
  | .yaml =>
    match Yaml.Node.read text with
    | .blank => .error (.fault emptyText)
    | .malformed => .error (.fault (unreadable .yaml))
    | .node n =>
      match content.ofNode n with
      | .ok d => .ok d
      | .error .malformed => .error (.fault (unreadable .yaml))
      | .error .crash => .error .crash
  | .unknown name => .error (.fault (Format.refuse name))

def ofText (format : Format) (text : String) : Except Failure Document := do
  match ofData? (← dataOfText format (.one .node) text) with
  | some doc => return doc
  | none => throw (.fault (unreadable format))

def listOfText (format : Format) (text : String) : Except Failure (List Document) := do
  match listOfData? (← dataOfText format (.many .node) text) with
  | some docs => return docs
  | none => throw (.fault (unreadable format))

/-- Data as text of a format. -/
def textOfData (format : Format) (d : Data) : Except Fault String :=
  match format with
  | .json => .ok (Json.render d ++ "\n")
  | .yaml => .ok (Yaml.render d)
  | .unknown name => .error (Format.refuse name)

end Document

/-- What reading makes of a refused document. -/
def Document.orRefuse {α : Type} : Except Document.Refusal α → Except Failure α
  | .ok a => .ok a
  | .error refusal => .error refusal.failure

/-- Reads a tree. -/
def Module.read (format : Format) (policy : Document.UidPolicy) (text : String) :
    Except Failure Module := do
  let doc ← Document.ofText format text
  Document.orRefuse (doc.toModule policy)

/-- Reads a list of trees. -/
def Module.readAll (format : Format) (policy : Document.UidPolicy) (text : String) :
    Except Failure (List Module) := do
  let docs ← Document.listOfText format text
  Document.orRefuse (Document.toModules policy docs)

/-- Writes a tree. -/
def Module.write (format : Format) : Option Module → Except Fault String
  | none => .error ((Fault.ofSentinel .invalidTree).wrap "nil root module")
  | some root => do
    let doc ← root.encode
    Document.textOfData format doc.data

/-- Writes a list of trees. -/
def Module.writeAll (format : Format) (modules : List Module) : Except Fault String := do
  let docs ← Module.encodeAll modules
  Document.textOfData format (.list (Document.dataAll docs))

end DeclTree
