import DeclTree.Lowering.Pipeline

/-!
# The escaping pass

Escapes every identifier of a tree. Collisions are reported before anything is escaped; on demand
they are a fault.
-/

set_option autoImplicit false
set_option relaxedAutoImplicit false

namespace DeclTree.Escape

def passName : String := "escape-identifiers"

/-- Escapes the tokens of an enumeration on top of what the traversal does. -/
def enumRule (p : Profile) : Rule := fun _ =>
  .goesOn [] fun
    | .ok (.enum e) =>
      let tokens := e.tokens.map fun t => { t with value := p.escape t.value }
      .ends (pure (.enum { e with tokens }))
    | .ok _ => .ends (Run.fail .crash)
    | .error f => .ends (Run.throw f)

/-- The registry that escapes identifiers. -/
def rules (p : Profile) (workers verbosity : Int) : Rules :=
  { Rules.empty passName with rename := p.escape, workers, verbosity }.on .enumDecl (enumRule p)

/-- Reports the collisions of a root and fails where they are faults. -/
def report (p : Profile) (failOnCollision : Bool) (root : Module) : Run Unit :=
  let found := Collision.find p root
  ⟨found.map .collided,
    if failOnCollision && !found.isEmpty then .error (.fault (Collision.fault found)) else .ok ()⟩

def pass (p : Profile) (failOnCollision : Bool) (workers verbosity : Int) : Pass where
  name := passName
  lower := fun root => do
    match root with
    | none => pure ()
    | some m => report p failOnCollision m
    some <$> (rules p workers verbosity).lower root

end DeclTree.Escape
