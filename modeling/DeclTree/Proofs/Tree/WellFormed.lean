import DeclTree.Proofs.Name
import DeclTree.Proofs.Tree.Every

/-!
# Well-formed trees

A tree is well formed when every node of it can be written and read again: names that have to be
there are, and are well formed; declarations that others may refer to have an identity, and
references are to one; no tag is repeated; nothing in the tree is missing or comes from outside.
-/

set_option autoImplicit false
set_option relaxedAutoImplicit false

namespace DeclTree

def Receiver.WellFormed (r : Receiver) : Prop :=
  r.name.WellFormed ∧ ∀ name ∈ r.typeParams, name.WellFormed

def Provenance.WellFormed (p : Provenance) : Prop := p.tags.Nodup

/-- Whether a reference, where there is one, is to an identity. -/
def Uid.IsTarget (target : Option Uid) : Prop := target ≠ some ""

def ModuleHead.WellFormed (head : ModuleHead) : Prop :=
  (∀ name ∈ head.name, name.WellFormed) ∧ (∀ name ∈ head.shortName, name.WellFormed) ∧
    ∀ name ∈ head.imports, name.WellFormed

def Ty.LocallyWellFormed : Ty → Prop
  | .named name _ target _ tags => name.WellFormed ∧ Uid.IsTarget target ∧ tags.WellFormed
  | .function _ _ _ tags => tags.WellFormed
  | .union _ _ tags => tags.WellFormed
  | .self _ tags => tags.WellFormed
  | .generated name _ target _ tags => name.WellFormed ∧ Uid.IsTarget target ∧ tags.WellFormed
  | .foreign _ => False

/-- What a node has to satisfy apart from the nodes that it holds, with `Identity` for what is asked
of the identity of a declaration that has to have one. -/
def Node.LocallySound (Identity : Uid → Prop) : Node → Prop
  | .module m => m.head.WellFormed ∧ (Node.module m).isKnown
  | .classLike head _ => head.name.WellFormed ∧ Identity head.uid ∧ head.tags.WellFormed
  | .function f =>
    f.name.WellFormed ∧ Identity f.uid ∧ f.tags.WellFormed ∧ ∀ r ∈ f.receiver, r.WellFormed
  | .var v => v.name.WellFormed ∧ v.tags.WellFormed ∧ ∀ r ∈ v.receiver, r.WellFormed
  | .typeAlias a => a.name.WellFormed ∧ Identity a.uid ∧ a.tags.WellFormed
  | .enum e => e.name.WellFormed ∧ Identity e.uid
  | .method m => m.name ≠ ""
  | .property p => p.name ≠ ""
  | .constructor _ => True
  | .type t => t.LocallyWellFormed
  | .param p => p.name ≠ ""
  | .typeParam p => p.name.WellFormed
  | .heritage h => h.name.WellFormed ∧ Uid.IsTarget h.target
  | .foreign _ => False
  | .missing => False

/-- What a well-formed node satisfies: an identity that has to be there is. -/
def Node.LocallyWellFormed : Node → Prop := Node.LocallySound (· ≠ "")

/-- A tree that can be written and read again. -/
def Module.WellFormed (m : Module) : Prop := m.Every Node.LocallyWellFormed

theorem Node.isKnown_of_locallySound {Identity : Uid → Prop} {n : Node}
    (hn : n.LocallySound Identity) : n.isKnown := by
  cases n with
  | module m => exact hn.2
  | type t =>
    cases t with
    | foreign label => exact hn.elim
    | _ => rfl
  | foreign label => exact hn.elim
  | missing => exact hn.elim
  | _ => rfl

/-- The traversal knows every node of a sound tree. -/
theorem Module.isKnown_of_sound {Identity : Uid → Prop} {m : Module}
    (hm : m.Every (Node.LocallySound Identity)) : m.IsKnown :=
  fun n hn ↦ Node.isKnown_of_locallySound (hm n hn)

/-! ### Deciding well-formedness -/

instance (name : Name) : Decidable name.WellFormed :=
  inferInstanceAs (Decidable (∀ s ∈ name.segments, s ≠ "" ∧ '.' ∉ s.toList))

instance (r : Receiver) : Decidable r.WellFormed :=
  inferInstanceAs (Decidable (r.name.WellFormed ∧ ∀ name ∈ r.typeParams, name.WellFormed))

instance (p : Provenance) : Decidable p.WellFormed :=
  inferInstanceAs (Decidable p.tags.Nodup)

instance (target : Option Uid) : Decidable (Uid.IsTarget target) :=
  inferInstanceAs (Decidable (target ≠ some ""))

instance (head : ModuleHead) : Decidable head.WellFormed :=
  inferInstanceAs (Decidable ((∀ name ∈ head.name, name.WellFormed) ∧
    (∀ name ∈ head.shortName, name.WellFormed) ∧ ∀ name ∈ head.imports, name.WellFormed))

instance : DecidablePred Ty.LocallyWellFormed
  | .named name _ target _ tags =>
    inferInstanceAs (Decidable (name.WellFormed ∧ Uid.IsTarget target ∧ tags.WellFormed))
  | .function _ _ _ tags => inferInstanceAs (Decidable tags.WellFormed)
  | .union _ _ tags => inferInstanceAs (Decidable tags.WellFormed)
  | .self _ tags => inferInstanceAs (Decidable tags.WellFormed)
  | .generated name _ target _ tags =>
    inferInstanceAs (Decidable (name.WellFormed ∧ Uid.IsTarget target ∧ tags.WellFormed))
  | .foreign _ => inferInstanceAs (Decidable False)

instance : DecidablePred Node.LocallyWellFormed
  | .module m => inferInstanceAs (Decidable (m.head.WellFormed ∧ (Node.module m).isKnown))
  | .classLike head _ =>
    inferInstanceAs (Decidable (head.name.WellFormed ∧ head.uid ≠ "" ∧ head.tags.WellFormed))
  | .function f =>
    inferInstanceAs (Decidable (f.name.WellFormed ∧ f.uid ≠ "" ∧ f.tags.WellFormed ∧
      ∀ r ∈ f.receiver, r.WellFormed))
  | .var v =>
    inferInstanceAs (Decidable (v.name.WellFormed ∧ v.tags.WellFormed ∧
      ∀ r ∈ v.receiver, r.WellFormed))
  | .typeAlias a =>
    inferInstanceAs (Decidable (a.name.WellFormed ∧ a.uid ≠ "" ∧ a.tags.WellFormed))
  | .enum e => inferInstanceAs (Decidable (e.name.WellFormed ∧ e.uid ≠ ""))
  | .method m => inferInstanceAs (Decidable (m.name ≠ ""))
  | .property p => inferInstanceAs (Decidable (p.name ≠ ""))
  | .constructor _ => inferInstanceAs (Decidable True)
  | .type t => inferInstanceAs (Decidable t.LocallyWellFormed)
  | .param p => inferInstanceAs (Decidable (p.name ≠ ""))
  | .typeParam p => inferInstanceAs (Decidable p.name.WellFormed)
  | .heritage h => inferInstanceAs (Decidable (h.name.WellFormed ∧ Uid.IsTarget h.target))
  | .foreign _ => inferInstanceAs (Decidable False)
  | .missing => inferInstanceAs (Decidable False)

instance (m : Module) : Decidable m.WellFormed :=
  inferInstanceAs (Decidable (m.Every Node.LocallyWellFormed))

end DeclTree
