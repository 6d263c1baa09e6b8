import DeclTree.Fault
import DeclTree.Text.Pieces

/-!
# Dotted names

A name is an identifier or a name followed by one more identifier. Its written form puts a dot
between neighbouring identifiers; `Name.parse` reads that form and refuses empty identifiers.
-/

set_option autoImplicit false
set_option relaxedAutoImplicit false

namespace DeclTree

inductive Name where
  | ident (text : String)
  | qualify (left : Name) (right : String)
  deriving DecidableEq, Repr

namespace Name

/-- The written form: the identifiers with dots between them. -/
def render : Name → String
  | .ident s => s
  | .qualify left right => left.render ++ "." ++ right

/-- The identifiers from left to right. -/
def segments : Name → List String
  | .ident s => [s]
  | .qualify left right => left.segments ++ [right]

/-- The rightmost identifier. -/
def last : Name → String
  | .ident s => s
  | .qualify _ right => right

/-- Renames each identifier and keeps the shape. -/
def map (f : String → String) : Name → Name
  | .ident s => .ident (f s)
  | .qualify left right => .qualify (left.map f) (f right)

/-- What can be wrong with the parts of a name. -/
inductive Flaw where
  | empty
  | startsEmpty (text : String)
  | noLeft
  | emptyRight (left : Name)
  | within (text : String) (flaw : Flaw)
  deriving DecidableEq, Repr

namespace Flaw

def fault : Flaw → Fault
  | .empty => (Fault.ofSentinel .invalidName).wrap "empty name"
  | .startsEmpty text =>
    (Fault.ofSentinel .invalidName).wrap
      ("name " ++ Text.quoted text ++ " starts with an empty segment")
  | .noLeft => (Fault.ofSentinel .invalidName).wrap "qualifier has no left segment"
  | .emptyRight left =>
    (Fault.ofSentinel .invalidName).wrap
      ("qualifier " ++ left.render ++ " has an empty right segment")
  | .within text flaw => flaw.fault.wrap ("parse " ++ Text.quoted text)

end Flaw

/-- Puts a name in front of an identifier. -/
def join (left : Option Name) (right : String) : Except Flaw Name :=
  match left with
  | none => .error .noLeft
  | some left => if right = "" then .error (.emptyRight left) else .ok (.qualify left right)

/-- Puts identifiers behind a name, one after the other. -/
def extend (left : Name) : List String → Except Flaw Name
  | [] => .ok left
  | right :: rest =>
    match join (some left) right with
    | .error flaw => .error flaw
    | .ok longer => extend longer rest

/-- Reads the written form of a name. -/
def parse (text : String) : Except Flaw Name :=
  if text = "" then .error .empty
  else
    match Text.splitAt '.' text with
    | [] => .error .empty
    | first :: rest =>
      if first = "" then .error (.startsEmpty text)
      else
        match extend (.ident first) rest with
        | .error flaw => .error (.within text flaw)
        | .ok name => .ok name

end Name

end DeclTree
