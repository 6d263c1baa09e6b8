import DeclTree.Lowering.Traversal

/-!
# Pipelines

A pass takes a root to a tree, to no tree, or to a failure. A pipeline runs passes one after the
other and ends at the first that fails or gives no tree; the failure names the pass.
-/

set_option autoImplicit false
set_option relaxedAutoImplicit false

namespace DeclTree

structure Pass where
  name : String
  lower : Option Module → Run (Option Module)

/-- A registry of rules as a pass. -/
def Rules.pass (r : Rules) : Pass where
  name := r.name
  lower := fun root => some <$> r.lower root

namespace Pipeline

/-- Whole trees are dumped from this verbosity on. -/
def dumpVerbosity : Int := 4

/-- What a pipeline reports when a pass has given a tree. -/
def report (verbosity : Int) (pass : String) (root tree : Module) : List Event :=
  .finished pass root tree :: if dumpVerbosity ≤ verbosity then [.dumped pass tree] else []

/-- Runs one pass of the pipeline that began at `root`. -/
def step (verbosity : Int) (root : Module) (p : Pass) (tree : Module) : Run Module :=
  let x := p.lower (some tree)
  match x.outcome with
  | .error (.fault f) =>
    ⟨x.events ++ [.failed p.name root f],
      .error (.fault (f.wrap ("lowering pass " ++ p.name)))⟩
  | .error .crash => ⟨x.events, .error .crash⟩
  | .ok none =>
    ⟨x.events,
      .error (.fault ((Fault.ofSentinel .invalidTree).wrap
        ("lowering pass " ++ p.name ++ " returned no tree")))⟩
  | .ok (some next) => ⟨x.events ++ report verbosity p.name root next, .ok next⟩

def steps (verbosity : Int) (root : Module) : List Pass → Module → Run Module
  | [], tree => pure tree
  | p :: ps, tree => step verbosity root p tree >>= steps verbosity root ps

/-- Runs the passes in order; there has to be a root. -/
def lower (verbosity : Int) (passes : List Pass) (root : Option Module) : Run Module :=
  match root with
  | none => Run.throw ((Fault.ofSentinel .invalidTree).wrap "nil root module")
  | some root => steps verbosity root passes root

def lowerSources (verbosity : Int) (passes : List Pass) : List Source → Run (List Source)
  | [] => return []
  | source :: rest => do
    let x := lower verbosity passes source.root
    let root ← ⟨x.events, x.outcome.mapError (Failure.wrap ("source " ++ source.file))⟩
    let rest ← lowerSources verbosity passes rest
    return { source with root := some root } :: rest

/-- Runs the passes on every root of a source set. -/
def lowerSourceSet (verbosity : Int) (passes : List Pass) (set : Option SourceSet) :
    Run SourceSet :=
  match set with
  | none => Run.throw ((Fault.ofSentinel .invalidTree).wrap "nil source set")
  | some set => do
    let sources ← lowerSources verbosity passes set.sources
    return { set with sources }

end Pipeline

end DeclTree
