import DeclTree.Config.Validate

/-!
# The passes by name

`Passes.build` makes a pass from its name and a configuration, `Passes.pipeline` all passes that a
configuration asks for.
-/

set_option autoImplicit false
set_option relaxedAutoImplicit false

namespace DeclTree.Passes

/-- The names of all passes, sorted. -/
def names : List String := [Escape.passName, SelfType.passName]

def unknown (name : String) : Fault :=
  ((Fault.ofSentinel .unknownPass).wrap (Text.quoted name)).withHint
    ("registered passes: " ++ ", ".intercalate names)

def build (name : String) (c : Config) : Except Fault Pass :=
  let word := Text.trimmed name
  if word = Escape.passName then
    .ok (Escape.pass c.profile c.failOnCollision c.workers c.verbosity)
  else if word = SelfType.passName then
    match Name.parse c.topType with
    | .ok top => .ok (SelfType.pass top c.workers c.verbosity)
    | .error flaw => .error ((Config.badTopType flaw).wrap ("build pass " ++ name))
  else .error (unknown name)

/-- The passes of a configuration in their order, unless one of them cannot be made. -/
def pipeline (c : Config) : Except Fault (List Pass) := c.passes.mapM fun name => build name c

end DeclTree.Passes
