import DeclTree.Lowering.Run

/-!
# Rules

A pass over a tree is a registry: rules by kind of node, a fallback for the kinds without one, and a
renaming of identifiers. A rule is given the owner chain of its node. It may go on below that node,
and learns of the node that this gives or of the fault in which it ends, but it cannot make up for a
breakdown. What it returns must fit the slot of the node: `Rules.visit` checks that.
-/

set_option autoImplicit false
set_option relaxedAutoImplicit false

namespace DeclTree

/-- What a rule does at a node. -/
inductive Course where
  /-- It ends as a run does. -/
  | ends (x : Run Node)
  /-- After some events it goes on below the node; what comes next depends on what this gives. -/
  | goesOn (before : List Event) (next : Except Fault Node → Course)

namespace Course

/-- Follows a course, where `below` goes on below the node. -/
def run (below : Unit → Run Node) : Course → Run Node
  | ends x => x
  | goesOn before next => do
    ⟨before, .ok ()⟩
    let got ← (below ()).attempt
    run below (next got)

/-- Goes on below the node after some events, and does nothing else. -/
def passing (before : List Event) : Course := goesOn before fun got => ends (Run.ofExcept got)

end Course

abbrev Rule := Owner → Course

structure Rules where
  name : String
  rule? : Kind → Option Rule
  fallback : Option Rule
  rename : String → String
  workers : Int
  verbosity : Int
  /-- The order in which the declarations of a module finish when they are lowered concurrently. -/
  finishing : Owner → (n : Nat) → Finishing n

namespace Rules

/-- The registry without rules: it copies trees. -/
def empty (name : String) : Rules where
  name := name
  rule? := fun _ => none
  fallback := none
  rename := id
  workers := 1
  verbosity := 0
  finishing := fun _ => Finishing.inOrder

/-- Registers a rule for a kind in place of an earlier one. -/
def on (r : Rules) (kind : Kind) (rule : Rule) : Rules :=
  { r with rule? := fun k => if k = kind then some rule else r.rule? k }

def handles (r : Rules) (kind : Kind) : Bool := (r.rule? kind).isSome

end Rules

namespace Node

/-!
## What fits a slot
-/

def decl? : Node → Option Decl
  | .module m => some (.module m)
  | .classLike head members => some (.classLike head members)
  | .function f => some (.function f)
  | .var v => some (.var v)
  | .typeAlias a => some (.typeAlias a)
  | .enum e => some (.enum e)
  | .foreign label => some (.foreign label)
  | _ => none

def member? : Node → Option Member
  | .method m => some (.method m)
  | .property p => some (.property p)
  | .constructor c => some (.constructor c)
  | .function f => some (.function f)
  | .classLike head members => some (.classLike head members)
  | _ => none

def module? : Node → Option Module
  | .module m => some m
  | _ => none

def type? : Node → Option Ty
  | .type t => some t
  | _ => none

def param? : Node → Option Param
  | .param p => some p
  | _ => none

def typeParam? : Node → Option TypeParam
  | .typeParam p => some p
  | _ => none

def heritage? : Node → Option Heritage
  | .heritage h => some h
  | _ => none

/-- What fits the slot of a declaration: a declaration of the same kind. -/
def replacesDecl? (old n : Node) : Option Decl :=
  if n.kind? = old.kind? then n.decl? else none

/-- What fits the slot of a member: a member of the same kind. -/
def replacesMember? (old n : Node) : Option Member :=
  if n.kind? = old.kind? then n.member? else none

end Node

namespace Rules

/-- The fault for a node that a pass cannot go through. -/
def unsupported (r : Rules) (o : Owner) (reason : String) : Fault :=
  (((Fault.ofSentinel .unsupportedNode).wrap
        ("pass " ++ r.name ++ " cannot lower " ++ o.node.describe ++ " (" ++ o.node.label ++
          "): " ++ reason)).withDetail
      ("owner path: " ++ o.path)).withHint
    "register a rule for this node with Rules.On or add it to the default traversal"

/-- The fault for a rule whose result does not fit. -/
def mismatch (r : Rules) (o : Owner) (got : Node) : Fault :=
  ((Fault.ofSentinel .unsupportedNode).wrap
      ("pass " ++ r.name ++ " lowered " ++ o.node.describe ++ " into " ++ got.describe)).withDetail
    ("owner path: " ++ o.path)

/-- The rule of a kind, else the fallback, else going on below the node. -/
def apply (r : Rules) (kind : Kind) (o : Owner) (below : Unit → Run Node) : Run Node :=
  match r.rule? kind with
  | some rule => (rule o).run below
  | none =>
    match r.fallback with
    | some rule => (rule o).run below
    | none => below ()

/-- Takes the result of a rule where it fits. -/
def take {α : Type} (r : Rules) (o : Owner) (fits : Node → Option α) (got : Node) : Run α :=
  match fits got with
  | some a => pure a
  | none => Run.throw (r.mismatch o got)

/-- Lowers a node enclosed by `parent`; `below` goes on below it. -/
def visit {α : Type} (r : Rules) (n : Node) (parent : Owner) (fits : Node → Option α)
    (below : Owner → Run Node) : Run α :=
  let o : Owner := n :: parent
  match n.kind? with
  | none => Run.throw (r.unsupported o "nil node")
  | some kind => do
    Run.emit (.dispatched r.name o)
    let got ← r.apply kind o fun _ => below o
    r.take o fits got

/-- The declarations of a module: one after the other, or concurrently. -/
def gather {α : Type} (r : Rules) (blank : α) (o : Owner) (runs : List (Run α)) : Run (List α) :=
  if r.workers ≤ 1 || runs.length < 2 then Run.sequence runs
  else Run.concurrent blank runs (r.finishing o runs.length)

end Rules

end DeclTree
