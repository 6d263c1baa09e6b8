import DeclTree.Text.Pieces
import DeclTree.Tree.Node

/-!
# Owner chains

A node with the nodes around it, innermost first. Rules see a node through its owner chain and so
can ask for the declaration, the function or the module that encloses it.
-/

set_option autoImplicit false
set_option relaxedAutoImplicit false

namespace DeclTree

abbrev Owner := List Node

namespace Owner

/-- The node at the inner end; a missing one where the chain is empty. -/
def node (o : Owner) : Node := o.head?.getD .missing

/-- How many nodes the chain has. -/
def depth (o : Owner) : Nat := o.length

/-- The descriptions from the outermost node down. -/
def path (o : Owner) : String := Text.joined " > " (o.reverse.map Node.describe)

/-- The innermost node of a kind. -/
def nearest? (o : Owner) (kind : Kind) : Option Node := o.find? fun n => n.kind? == some kind

/-- The innermost module. -/
def module? (o : Owner) : Option Module :=
  o.findSome? fun
    | .module m => some m
    | _ => none

/-- The chain of a descendant, found by the places of its ancestors among their siblings. -/
def descend (o : Owner) : List Int → Except Int Owner
  | [] => .ok o
  | i :: rest =>
    match if i < 0 then none else o.node.children[i.toNat]? with
    | none => .error i
    | some child => descend (child :: o) rest

end Owner

end DeclTree
