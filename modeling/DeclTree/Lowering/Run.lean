import DeclTree.Escape.Collision
import DeclTree.Owner

/-!
# Runs

A run is what a computation on trees leaves behind: the events in the order in which they happened,
and its outcome. A run that fails keeps the events up to its failure.

`Run.sequence` runs one computation after the other and stops at the first failure.
`Run.concurrent` lets all of them finish, in an order that it is told. Each of them writes what it
gives at its own place of one list. It fails with the failure that came first in that order, but
when one of the computations breaks down then nothing is left to go on.
-/

set_option autoImplicit false
set_option relaxedAutoImplicit false

namespace DeclTree

/-- Why a self type became the type above all others. -/
inductive TopReason where
  | noScope
  | generatedInterface
  | noReceiver
  deriving DecidableEq, Repr

def TopReason.text : TopReason → String
  | .noScope => "no enclosing declaration"
  | .generatedInterface => "generated interface"
  | .noReceiver => "function without receiver"

/-- What can happen while trees are lowered. A rule may report that it observed a node. -/
inductive Event where
  | dispatched (pass : String) (owner : Owner)
  | observed (pass : String) (owner : Owner)
  | unnamed (owner : Owner) (reason : TopReason)
  | collided (collision : Collision)
  | failed (pass : String) (root : Module) (fault : Fault)
  | finished (pass : String) (root tree : Module)
  | dumped (pass : String) (tree : Module)

structure Run (α : Type) where
  events : List Event
  outcome : Except Failure α

namespace Run

variable {α β : Type}

def pure (a : α) : Run α := ⟨[], .ok a⟩

def bind (x : Run α) (f : α → Run β) : Run β :=
  match x.outcome with
  | .error e => ⟨x.events, .error e⟩
  | .ok a =>
    let y := f a
    ⟨x.events ++ y.events, y.outcome⟩

instance : Monad Run where
  pure := pure
  bind := bind

def fail (e : Failure) : Run α := ⟨[], .error e⟩

def throw (f : Fault) : Run α := fail (.fault f)

def emit (e : Event) : Run Unit := ⟨[e], .ok ()⟩

/-- The failure of a run that failed. -/
def failure? (x : Run α) : Option Failure :=
  match x.outcome with
  | .error e => some e
  | .ok _ => none

def sequence : List (Run α) → Run (List α)
  | [] => pure []
  | x :: xs => x.bind fun a => (sequence xs).bind fun as => pure (a :: as)

/-- What a run gives, if it succeeds. -/
def result? (x : Run α) : Option α := x.outcome.toOption

def breaksDown (x : Run α) : Bool := x.failure? = some .crash

/-- What became of a run, be it a fault. A breakdown cannot be looked at. -/
def attempt (x : Run α) : Run (Except Fault α) where
  events := x.events
  outcome :=
    match x.outcome with
    | .ok a => .ok (.ok a)
    | .error (.fault f) => .ok (.error f)
    | .error .crash => .error .crash

/-- The run that leads to a result or a fault without any events. -/
def ofExcept (x : Except Fault α) : Run α := ⟨[], x.mapError .fault⟩

end Run

/-- An order in which runs finish: their places, each of them once. -/
structure Finishing (n : Nat) where
  places : List Nat
  perm : places.Perm (List.range n)

/-- The first run finishes first. -/
def Finishing.inOrder (n : Nat) : Finishing n := ⟨List.range n, .refl _⟩

namespace Run

variable {α : Type}

/-- Writes what the run at a place gives at that place of a list. -/
def write (xs : List (Run α)) (out : List α) (place : Nat) : List α :=
  match xs[place]?.bind result? with
  | some a => out.set place a
  | none => out

/-- All runs finish, in an order of their places, and write into a list that is blank at first. -/
def concurrent (blank : α) (xs : List (Run α)) (order : Finishing xs.length) : Run (List α) :=
  let finished := order.places.filterMap fun place => xs[place]?
  ⟨finished.flatMap events,
    if finished.any breaksDown then .error .crash
    else
      match finished.findSome? failure? with
      | some e => .error e
      | none => .ok (order.places.foldl (write xs) (List.replicate xs.length blank))⟩

end Run

end DeclTree
