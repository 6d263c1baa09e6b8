/-!
# One record of fields

Fields with commas between them. A field in double quotes may hold commas and line breaks, and two
quotes in it stand for one. Lines without anything in front of the record are passed over. Lines
count from one, and so do columns, in bytes.
-/

set_option autoImplicit false
set_option relaxedAutoImplicit false

namespace DeclTree.Text.Csv

/-- A place in a text. -/
structure Place where
  line : Nat
  column : Nat
  deriving DecidableEq, Repr

def Place.right (p : Place) (width : Nat) : Place := { p with column := p.column + width }

def Place.nextLine (p : Place) : Place := ⟨p.line + 1, 1⟩

/-- What can be wrong with a quote. -/
inductive QuoteFlaw where
  | bare
  | unmatched
  deriving DecidableEq, Repr

def QuoteFlaw.text : QuoteFlaw → String
  | .bare => "bare \" in non-quoted-field"
  | .unmatched => "extraneous or missing \" in quoted-field"

/-- What can be wrong with a record: there is none, or a quote is out of place. -/
inductive Flaw where
  | nothing
  | quote (start : Nat) (place : Place) (flaw : QuoteFlaw)
  deriving DecidableEq, Repr

def Flaw.text : Flaw → String
  | .nothing => "EOF"
  | .quote start place flaw =>
    (if start = place.line then "" else "record on line " ++ toString start ++ "; ") ++
      "parse error on line " ++ toString place.line ++ ", column " ++ toString place.column ++
      ": " ++ flaw.text

mutual

/-- The fields from a new field on; the record begins on the line `start`. -/
def fields (start : Nat) (place : Place) : List Char → Except Flaw (List String)
  | [] => .ok [""]
  | '"' :: rest => quoted start (place.right 1) [] rest
  | c :: rest => plain start place [] (c :: rest)

/-- A field without quotes; its characters so far backwards. -/
def plain (start : Nat) (place : Place) (field : List Char) :
    List Char → Except Flaw (List String)
  | [] => .ok [String.ofList field.reverse]
  | '\n' :: _ => .ok [String.ofList field.reverse]
  | ',' :: rest =>
    match fields start (place.right 1) rest with
    | .ok more => .ok (String.ofList field.reverse :: more)
    | .error flaw => .error flaw
  | '"' :: _ => .error (.quote start place .bare)
  | c :: rest => plain start (place.right c.utf8Size) (c :: field) rest

/-- A field behind its opening quote. -/
def quoted (start : Nat) (place : Place) (field : List Char) :
    List Char → Except Flaw (List String)
  | [] => .error (.quote start place .unmatched)
  | ['\n'] => .error (.quote start (place.right 1) .unmatched)
  | '"' :: '"' :: rest => quoted start (place.right 2) ('"' :: field) rest
  | '"' :: ',' :: rest =>
    match fields start (place.right 2) rest with
    | .ok more => .ok (String.ofList field.reverse :: more)
    | .error flaw => .error flaw
  | ['"'] => .ok [String.ofList field.reverse]
  | '"' :: '\n' :: _ => .ok [String.ofList field.reverse]
  | '"' :: _ => .error (.quote start place .unmatched)
  | '\n' :: rest => quoted start place.nextLine ('\n' :: field) rest
  | c :: rest => quoted start (place.right c.utf8Size) (c :: field) rest

end

/-- Line breaks in one spelling; a carriage return at the end does not count. -/
def unifyBreaks : List Char → List Char
  | [] => []
  | ['\r'] => []
  | '\r' :: '\n' :: rest => '\n' :: unifyBreaks rest
  | c :: rest => c :: unifyBreaks rest

/-- The fields of the first record. -/
def read (s : String) : Except Flaw (List String) :=
  let cs := unifyBreaks s.toList
  let start := (cs.takeWhile fun c => c = '\n').length + 1
  match cs.dropWhile fun c => c = '\n' with
  | [] => .error .nothing
  | cs => fields start ⟨start, 1⟩ cs

end DeclTree.Text.Csv
