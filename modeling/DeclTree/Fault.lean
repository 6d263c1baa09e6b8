import DeclTree.Text.Pieces
import DeclTree.Text.Quoted

/-!
# Faults

A fault is a cause in words under layers of context, innermost first: messages put in front of it,
marks that class it, hints and details for whoever reads it, faults that came beside it, and the
stacks at which it was seen. `Fault.message` is the text of a fault and `Fault.sentinels` the
classes it belongs to.
-/

set_option autoImplicit false
set_option relaxedAutoImplicit false

namespace DeclTree

/-- The classes of faults that callers tell apart. -/
inductive Sentinel where
  | unsupportedNode
  | identifierCollision
  | invalidTree
  | invalidName
  | unknownPass
  | invalidConfig
  deriving DecidableEq, Repr

namespace Sentinel

def text : Sentinel → String
  | .unsupportedNode => "unsupported node variant"
  | .identifierCollision => "identifier collision"
  | .invalidTree => "invalid declaration tree"
  | .invalidName => "invalid name"
  | .unknownPass => "unknown pass"
  | .invalidConfig => "invalid configuration"

/-- Every class, in the order in which they are listed. -/
def all : List Sentinel :=
  [.unsupportedNode, .identifierCollision, .invalidTree, .invalidName, .unknownPass, .invalidConfig]

end Sentinel

/-- The words of a message, and whether they begin with something that was given from outside. -/
structure Phrase where
  text : String
  isGiven : Bool
  deriving DecidableEq, Repr

namespace Phrase

/-- Messages never hold the two characters that fence off sensitive parts of a text. -/
def unfenced (s : String) : String :=
  s.map fun c => if c = '‹' || c = '›' then '?' else c

/-- Words of the program. -/
def own (s : String) : Phrase := ⟨unfenced s, false⟩

/-- Words from outside. -/
def given (s : String) : Phrase := ⟨unfenced s, true⟩

/-- Whether line breaks in front of a first line are kept as one. Words from outside keep it, and so
does a line of more than one byte. -/
def keepsLead (p : Phrase) (first : String) : Bool := p.isGiven || 1 < first.utf8ByteSize

/-- A phrase as it reads inside a longer message: line breaks in a row count as one, and those at
the end do not count. -/
def folded (p : Phrase) : String :=
  match (Text.splitAt '\n' p.text).filter fun line => line ≠ "" with
  | [] => ""
  | first :: rest =>
    let isBroken := p.text.toList.head? = some '\n'
    (if isBroken && p.keepsLead first then "\n" else "") ++ Text.joined "\n" (first :: rest)

end Phrase

namespace Fault

/-- One layer of context around a fault. -/
inductive Layer where
  | message (phrase : Phrase)
  | mark (sentinel : Sentinel)
  | hint (text : String)
  | detail (text : String)
  | beside (text : String)
  | stack
  deriving DecidableEq, Repr

/-- What lies at the bottom of a fault: words of the program, or what was met outside, in parts. -/
inductive Cause where
  | words (phrase : Phrase)
  | met (parts : List String)
  deriving DecidableEq, Repr

namespace Cause

def text : Cause → String
  | .words p => p.text
  | .met parts => Text.joined ": " parts

/-- The parts of a cause as they read inside a longer message. -/
def folded : Cause → List String
  | .words p => [p.folded]
  | .met parts => parts.map fun part => (Phrase.own part).folded

end Cause

end Fault

structure Fault where
  cause : Fault.Cause
  layers : List Fault.Layer
  deriving DecidableEq, Repr

namespace Fault

/-- A fault that arose outside: its words are kept and no stack is known. -/
def ofParts (parts : List String) : Fault := ⟨.met parts, []⟩

/-- A fault that arose outside, in one part. -/
def external (cause : String) : Fault := ofParts [cause]

def ofPhrase (cause : Phrase) : Fault := ⟨.words cause, [.stack]⟩

def new (cause : String) : Fault := ofPhrase (.own cause)

def ofSentinel (s : Sentinel) : Fault := new s.text

def under (f : Fault) (l : Layer) : Fault := { f with layers := f.layers ++ [l] }

def withStack (f : Fault) : Fault := f.under .stack

def withMessage (f : Fault) (text : String) : Fault := f.under (.message (.own text))

/-- Puts a message in front of the fault; an empty message adds nothing to its text. -/
def wrap (f : Fault) (text : String) : Fault :=
  if text = "" then f.withStack else (f.withMessage text).withStack

def mark (f : Fault) (s : Sentinel) : Fault := f.under (.mark s)

def withHint (f : Fault) (text : String) : Fault := f.under (.hint text)

def withDetail (f : Fault) (text : String) : Fault := f.under (.detail text)

def withSecondary (f : Fault) (text : String) : Fault := f.under (.beside text)

/-- The cause alone, with every layer taken off. -/
def root (f : Fault) : Fault := ⟨f.cause, []⟩

def Layer.folded? : Layer → Option String
  | .message p => some p.folded
  | _ => none

/-- A fault as it reads behind a message: its parts in one line where they have any words. What was
met outside keeps its words as long as nothing lies around it. -/
def behind (cause : Cause) (layers : List Layer) : String :=
  match cause, layers with
  | .met parts, [] => (Cause.met parts).text
  | cause, layers =>
    Text.joined ": "
      ((layers.reverse.filterMap Layer.folded? ++ cause.folded).filter fun part => part ≠ "")

/-- The text of a cause under layers that begin with the outermost: the first message as it is, and
what lies behind it. -/
def textUnder (cause : Cause) : List Layer → String
  | [] => cause.text
  | .message p :: layers =>
    if p.text = "" then textUnder cause layers else p.text ++ ": " ++ behind cause layers.reverse
  | _ :: layers => textUnder cause layers

/-- The messages of all layers, outermost first, and the cause. -/
def message (f : Fault) : String := textUnder f.cause f.layers.reverse

def Cause.isSentinel (s : Sentinel) : Cause → Bool
  | .words p => p.text == s.text
  | .met _ => false

/--
A fault belongs to a class when it was marked so, or when the words of the class stand directly
under a stack.
-/
def is (f : Fault) (s : Sentinel) : Bool :=
  f.layers.contains (.mark s) || (f.cause.isSentinel s && f.layers.head? == some .stack)

def sentinels (f : Fault) : List Sentinel := Sentinel.all.filter f.is

def Layer.hint? : Layer → Option String
  | .hint text => if text = "" then none else some text
  | _ => none

def Layer.detail? : Layer → Option String
  | .detail text => if text = "" then none else some text
  | _ => none

/-- The details, innermost first. -/
def details (f : Fault) : List String := f.layers.filterMap Layer.detail?

/-- The hints, innermost first and each once. -/
def hints (f : Fault) : List String :=
  (f.layers.filterMap Layer.hint?).foldl
    (fun seen h => if seen.contains h then seen else seen ++ [h]) []

/-- Several hints or details as one text. -/
def flattened (texts : List String) : String := "\n--\n".intercalate texts

/-- A node that no rule covers, in the given words. -/
def unsupported (text : String) : Fault :=
  ((ofSentinel .unsupportedNode).under (.message (.given text))).withStack

end Fault

/-- How a computation can end without a result: by a fault, or by breaking down. -/
inductive Failure where
  | fault (f : Fault)
  | crash
  deriving DecidableEq, Repr

/-- Puts a message in front of a fault and leaves a breakdown alone. -/
def Failure.wrap (text : String) : Failure → Failure
  | .fault f => .fault (f.wrap text)
  | .crash => .crash

end DeclTree
