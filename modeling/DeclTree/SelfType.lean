import DeclTree.Lowering.Pipeline

/-!
# Self types

A self type stands for the innermost class, interface or function around it. In a class, and in an
interface that was not generated, it becomes the declaration applied to its own type parameters; in
a function with a receiver it becomes the receiver; everywhere else it becomes the type above all
others. The new type keeps whether the self type was nullable and is tagged as its replacement.
-/

set_option autoImplicit false
set_option relaxedAutoImplicit false

namespace DeclTree.SelfType

def passName : String := "lower-this-type"

/-- The declarations for which a self type can stand. -/
inductive Scope where
  | declared (name : Name) (typeParams : List Name) (uid : Uid)
  | generated
  | receiver (receiver : Option Receiver) (uid : Uid)

/-- A node as a scope, where it is one. -/
def scope? : Node → Option Scope
  | .classLike head _ =>
    match head.form with
    | .cls _ typeParams => some (.declared head.name (typeParams.map TypeParam.name) head.uid)
    | .interface isGenerated typeParams =>
      if isGenerated then some .generated
      else some (.declared head.name (typeParams.map TypeParam.name) head.uid)
    | .object => none
  | .function f => some (.receiver f.receiver f.uid)
  | _ => none

/-- A declaration applied to its own type parameters. -/
def reference (name : Name) (typeParams : List Name) (uid : Uid) (nullable : Bool)
    (tags : Provenance) : Ty :=
  .named name (typeParams.map Ty.bare) uid.reference? nullable tags

/-- The type that a self type becomes in a scope, or why it has none there. -/
def resolve (nullable : Bool) (tags : Provenance) : Option Scope → Except TopReason Ty
  | none => .error .noScope
  | some (.declared name typeParams uid) => .ok (reference name typeParams uid nullable tags)
  | some .generated => .error .generatedInterface
  | some (.receiver none _) => .error .noReceiver
  | some (.receiver (some receiver) uid) =>
    .ok (reference receiver.name receiver.typeParams uid nullable tags)

/-- The rule for self types; a type from outside in their place breaks it. -/
def rule (top : Name) : Rule := fun o =>
  match o.node with
  | .type (.self nullable tags) =>
    let tags := tags.add Provenance.selfType
    match resolve nullable tags (o.findSome? scope?) with
    | .ok t => .ends (pure (.type t))
    | .error reason => .ends do
      Run.emit (.unnamed o reason)
      return .type (.top (some top) nullable tags)
  | _ => .ends (Run.fail .crash)

/-- The registry that resolves self types. -/
def rules (top : Name) (workers verbosity : Int) : Rules :=
  { Rules.empty passName with workers, verbosity }.on .selfType (rule top)

def pass (top : Name) (workers verbosity : Int) : Pass := (rules top workers verbosity).pass

end DeclTree.SelfType
