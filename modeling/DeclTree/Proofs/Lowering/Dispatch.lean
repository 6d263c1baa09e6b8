import DeclTree.Log
import DeclTree.Proofs.Lowering.EveryRun
import DeclTree.Proofs.Lowering.Unknown
import DeclTree.Proofs.Tree.Ancestors

/-!
# The dispatches of a registry that only renames

Trees are listed in two ways: a walk goes from a node to its children, and a traversal dispatches
what the slots of a node hold. `Run.Dispatches` says of a run over nodes that it dispatches these
nodes and all below them as a walk would come by them. It passes from the parts of a traversal to
the whole, so a registry that has no rules to stand in the way dispatches a known tree as it is
walked, `Rules.Renames.events_lowerModule`.

The run hands over to the log one record for each node of the walk, `Rules.trace_follows_walk`.
-/

set_option autoImplicit false
set_option relaxedAutoImplicit false

namespace DeclTree

/-- A run over nodes enclosed by `o` that succeeds has dispatched them and everything below them,
each under its owner chain and in source order, and nothing else has happened. -/
def Run.Dispatches {α : Type} (pass : String) (x : Run α) (nodes : List Node) (o : Owner) : Prop :=
  ∀ a, x.outcome = .ok a → x.events = (nodes.flatMap (Node.places o)).map (.dispatched pass)

namespace Run

variable {α β : Type} {pass : String} {o : Owner}

theorem dispatches_pure (a : α) (o : Owner) : Dispatches pass (Pure.pure a : Run α) [] o :=
  fun _ _ ↦ rfl

theorem Dispatches.bind {x : Run α} {f : α → Run β} {ns ns' : List Node}
    (hx : Dispatches pass x ns o) (hf : ∀ a, Dispatches pass (f a) ns' o) :
    Dispatches pass (x >>= f) (ns ++ ns') o := by
  intro b hb
  obtain ⟨a, ha, hb⟩ := outcome_bind_eq_ok_iff.mp hb
  rw [events_bind_of_ok ha, hx a ha, hf a b hb, List.flatMap_append, List.map_append]

end Run

namespace Rules.Renames

variable {r : Rules} {f : String → String}

/-- A node is dispatched before what lies below it. -/
theorem dispatches_visit (h : r.Renames f) {α : Type} {n : Node} {fits : Node → Option α}
    {o : Owner} {below : Owner → Run Node}
    (hbelow : (below (n :: o)).Dispatches r.name n.children (n :: o)) :
    (r.visit n o fits below).Dispatches r.name [n] o := by
  intro a ha
  cases hkind : n.kind? with
  | none =>
    simp only [visit, hkind] at ha
    cases ha
  | some kind =>
    simp only [visit, hkind, h.apply] at ha ⊢
    obtain ⟨_, -, ha⟩ := Run.outcome_bind_eq_ok_iff.mp ha
    obtain ⟨got, hgot, -⟩ := Run.outcome_bind_eq_ok_iff.mp ha
    rw [Run.events_bind_of_ok rfl, Run.events_bind_of_silent _ (r.events_take _ fits),
      hbelow got hgot, List.flatMap_singleton, Node.places_eq]
    rfl

theorem follows_dispatches (h : r.Renames f) (hworkers : r.workers ≤ 1) :
    r.Follows fun x ns o ↦ x.Dispatches r.name ns o where
  pure := Run.dispatches_pure
  bind := Run.Dispatches.bind
  visit _ _ _ hbelow := h.dispatches_visit hbelow
  gather {_ _} _ {_ _ _ o} hf := by
    rw [gather_eq_sequence hworkers]
    exact Run.sequence_map_of_parts (P := fun x ns ↦ x.Dispatches r.name ns o)
      (fun a ↦ Run.dispatches_pure a o) Run.Dispatches.bind hf
  unsupported _ _ := nofun

/-- Lowering a known tree dispatches its nodes in the order of the walk, and does nothing else that
would be reported. -/
theorem events_lowerModule (h : r.Renames f) (hworkers : r.workers ≤ 1) {m : Module}
    (hm : m.IsKnown) : (r.lowerModule m).events = m.places.map (.dispatched r.name) := by
  have hlowered : (r.lowerModule m).outcome = .ok (m.rewrite (.identifiers f) none) := by
    have houtcome := h.carriesOut.outcome_lower hm
    rwa [lower, Run.outcome_traced] at houtcome
  have hevents := (h.follows_dispatches hworkers).lowerModule m _ hlowered
  rwa [List.flatMap_singleton] at hevents

/-- Of these dispatches, those of a run that is not traced are forgotten. -/
theorem events_lower (h : r.Renames f) (hworkers : r.workers ≤ 1) {m : Module} (hm : m.IsKnown) :
    (r.lower (some m)).events =
      if traceVerbosity ≤ r.verbosity then m.places.map (.dispatched r.name) else [] := by
  have hevents := h.events_lowerModule hworkers hm
  rw [lower, Run.traced]
  split
  · exact hevents
  · rw [hevents, List.filter_eq_nil_iff]
    intro e he
    obtain ⟨o, -, rfl⟩ := List.mem_map.mp he
    exact Bool.false_ne_true

end Rules.Renames

/-- No owner chain of a known tree leads to a missing node. -/
theorem Module.node_ne_missing {m : Module} (hm : m.IsKnown) :
    ∀ o ∈ m.places, o.node ≠ .missing := by
  intro o ho hmissing
  have hknown : o.isUnknown = false :=
    (Node.forall_places_iff (n := .module m) nofun []).mpr hm o ho
  rw [Owner.isUnknown, hmissing] at hknown
  cases hknown

/-- From the verbosity of traces on, records of every level pass. Of those that pass, a session that
writes records as data still leaves some out. -/
theorem Log.Record.isWritten_of_traced {verbosity : Int} (htraced : traceVerbosity ≤ verbosity)
    (record : Log.Record) : record.isWritten verbosity = true := by
  have hlevel : Log.Level.ofVerbosity verbosity = .debug := by
    unfold traceVerbosity at htraced
    rw [Log.Level.ofVerbosity, if_neg (by omega), if_neg (by omega)]
  rw [Log.Record.isWritten, hlevel]
  exact decide_eq_true (Nat.zero_le _)

/-- The traversal and the walk agree. Lowered by one worker, a known tree is dispatched node by node
in the order of the walk, each node once and under its true owner chain: the node and then its
ancestors in the walk, from child to parent up to the root. From the third verbosity on the run
hands over to the log a record for each of them, with the words for the node and for the chain, and
no others, and none is held back for its level; below it nothing is reported. -/
theorem Rules.trace_follows_walk {r : Rules} {f : String → String} (hr : r.Renames f)
    (hworkers : r.workers ≤ 1) {m : Module} (hm : m.IsKnown) :
    (∃ m', (r.lower (some m)).outcome = .ok m') ∧
      (r.lowerModule m).events = m.places.map (.dispatched r.name) ∧
      m.places.map Owner.node = m.nodes ∧
      (m.places = m.nodes.mapIdx fun i n ↦ n :: Node.ancestors (m.nodes.take i)) ∧
      (∀ o ∈ m.places, (o.IsChain fun inner outer ↦ inner ∈ outer.children) ∧
        o.getLast? = some (.module m)) ∧
      (3 ≤ r.verbosity →
        ((r.lower (some m)).events.filterMap Event.record? = m.places.map fun o ↦
          ⟨.debug, "lowering", "Lowering node",
            [("pass", .text r.name), ("node", .text o.node.describe),
              ("kind", .text (o.node.kind?.elim "" Kind.text)), ("owner", .text o.path)]⟩) ∧
        ∀ record : Log.Record, record.isWritten r.verbosity = true) ∧
      (r.verbosity < 3 → (r.lower (some m)).events = []) := by
  have hpresent := Module.node_ne_missing hm
  have hevents := hr.events_lower hworkers hm
  refine ⟨⟨_, hr.carriesOut.outcome_lower hm⟩, hr.events_lowerModule hworkers hm,
    m.map_node_places hpresent, m.places_eq_mapIdx hpresent, fun o ho ↦ m.chain_of_mem_places ho,
    ?_, ?_⟩
  · intro htraced
    have htraced' : traceVerbosity ≤ r.verbosity := htraced
    refine ⟨?_, Log.Record.isWritten_of_traced htraced⟩
    rw [hevents, if_pos htraced', List.filterMap_map]
    exact congrFun List.filterMap_eq_map' m.places
  · intro huntraced
    have huntraced' : ¬ traceVerbosity ≤ r.verbosity := Int.not_le.mpr huntraced
    rw [hevents, if_neg huntraced']

/-- The tree has ten nodes; the eighth is the type of a parameter of a method of a class. -/
theorem Rules.trace_follows_walk_signTree :
    Escape.signTree.IsKnown ∧
      Escape.signTree.places.map Owner.depth = [1, 2, 3, 3, 4, 3, 4, 5, 2, 2] ∧
      (((({ Rules.empty "trace" with verbosity := 3 } : Rules).lower
          (some Escape.signTree)).events.filterMap Event.record?)[7]?.map Log.Record.fields =
        some [("pass", .text "trace"), ("node", .text "this_type"), ("kind", .text "this_type"),
          ("owner", .text ("module lib.package [uid module:lib] > " ++
            "class object [uid class:object] > method fun > parameter __ > this_type"))]) := by
  have hknown : Escape.signTree.IsKnown := by decide
  have hrenames : ({ Rules.empty "trace" with verbosity := 3 } : Rules).Renames id :=
    ⟨fun _ ↦ rfl, rfl, rfl⟩
  obtain ⟨-, -, -, hplaces, -, htrace, -⟩ :=
    trace_follows_walk hrenames (Int.le_refl 1) hknown
  obtain ⟨hrecords, -⟩ := htrace (Int.le_refl 3)
  refine ⟨hknown, ?_, ?_⟩
  · rw [hplaces]
    decide +kernel
  · rw [hrecords, hplaces]
    rfl

end DeclTree
