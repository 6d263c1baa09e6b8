import DeclTree.Escape.Profile
import DeclTree.Tree.Node

/-!
# Collisions

Two siblings of different names collide when escaping makes their names equal. Siblings are the
declarations and submodules of a module, the members of a class-like declaration, and the tokens of
an enumeration.
-/

set_option autoImplicit false
set_option relaxedAutoImplicit false

namespace DeclTree

/-- Names of one scope that are different and become equal when escaped. -/
structure Collision where
  scope : String
  escaped : String
  names : List String
  deriving DecidableEq, Repr

namespace Collision

def text (c : Collision) : String :=
  c.scope ++ ": " ++ c.escaped ++ " <- " ++ Text.joined ", " c.names

/-- Names under a common key, each once; the keys are in the order of their first name. -/
abbrev Groups := List (String × List String)

/-- Puts a name under a key, behind the names that are there. -/
def insert (key name : String) : Groups → Groups
  | [] => [(key, [name])]
  | (k, names) :: rest =>
    if k = key then (k, if names.contains name then names else names ++ [name]) :: rest
    else (k, names) :: insert key name rest

def group (escape : String → String) (names : List String) : Groups :=
  names.foldl (fun groups name => insert (escape name) name groups) []

/-- The order of names in a report: by the numbers of their characters. -/
def sorted (names : List String) : List String := names.mergeSort fun a b => decide (a ≤ b)

/-- The groups of two names or more, as collisions of a scope. -/
def ofNames (scope : String) (names : List String) (escape : String → String) : List Collision :=
  (group escape names).filterMap fun (escaped, names) =>
    if 1 < names.length then some ⟨scope, escaped, sorted names⟩ else none

/-- The written names of nodes; those without a name are passed over. -/
def namesOf (nodes : List Node) : List String :=
  nodes.filterMap fun n => n.name?.map Name.render

/-- The collisions among what a node holds directly. -/
def inScope (p : Profile) (n : Node) : List Collision :=
  match n with
  | .module m =>
    ofNames n.describe
      (namesOf (m.declarations.map Decl.node ++ m.submodules.map Node.module)) p.escapeDotted
  | .classLike _ members => ofNames n.describe (namesOf (members.map Member.node)) p.escapeDotted
  | .enum e => ofNames n.describe (e.tokens.map Token.value) p.escape
  | _ => []

/-- Every collision in a module, in source order of the scopes. -/
def find (p : Profile) (m : Module) : List Collision := m.nodes.flatMap (inScope p)

/-- The fault that names every collision. -/
def fault (found : List Collision) : Fault :=
  ((Fault.ofSentinel .identifierCollision).wrap
      (toString found.length ++ " escaped name(s) collide")).withDetail
    (Text.joined "\n" (found.map text))

end Collision

end DeclTree
