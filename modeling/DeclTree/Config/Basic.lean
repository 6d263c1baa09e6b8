import DeclTree.Escape.Pass
import DeclTree.SelfType
import DeclTree.Data.Basic

/-!
# Configuration

What can be set: the passes and how they run, the profile for escaping, the type that self types
become where they have no other, and what is logged.
-/

set_option autoImplicit false
set_option relaxedAutoImplicit false

namespace DeclTree

/-- A configuration. A list of reserved words that nothing was said on is empty, and `hasReserved`
tells it from one that was given as empty. -/
structure Config where
  passes : List String
  workers : Int
  flatten : Bool
  profile : Profile
  hasReserved : Bool := true
  failOnCollision : Bool
  topType : String
  logJson : Bool
  verbosity : Int
  deriving DecidableEq, Repr

namespace Config

def defaultPasses : List String := [Escape.passName, SelfType.passName]

def default : Config where
  passes := defaultPasses
  workers := 1
  flatten := false
  profile := Profile.default
  failOnCollision := false
  topType := Ty.topName.render
  logJson := false
  verbosity := 0

/-- A configuration as data, in its four sections, with given data for its reserved words. -/
def dataWith (reserved : Data) (c : Config) : Data :=
  .record
    [("pipeline", .record
        [("passes", Data.ofTexts c.passes), ("workers", Data.ofInt c.workers),
          ("flatten", .flag c.flatten)]),
      ("escape", .record
        [("reserved_words", reserved),
          ("special_characters", .text c.profile.special), ("quote", .text c.profile.quote),
          ("fail_on_collision", .flag c.failOnCollision)]),
      ("this_type", .record [("top_type", .text c.topType)]),
      ("log", .record [("json", .flag c.logJson), ("verbosity", Data.ofInt c.verbosity)])]

/-- A configuration as data. -/
def data (c : Config) : Data := c.dataWith (Data.ofTexts c.profile.reserved)

/-- A configuration as data that tells a list that was never given from an empty one. -/
def exactData (c : Config) : Data :=
  c.dataWith (if c.hasReserved then Data.ofTexts c.profile.reserved else .null)

end Config

end DeclTree
