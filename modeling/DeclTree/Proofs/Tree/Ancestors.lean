import DeclTree.Proofs.Tree.Nodes

/-!
# Ancestors in a walk

A walk only lists nodes, yet it tells which of them lie below which: what a walk visits while the
walk of a node goes on lies below that node. `Node.ancestors` reads the ancestors of the next node
off from the nodes that were visited before it, by the lengths of their walks alone.

The owner chains of a tree are its nodes in the order of the walk, each followed by its ancestors
(`Module.places_eq_mapIdx`), from child to parent up to the root (`Module.chain_of_mem_places`).
-/

set_option autoImplicit false
set_option relaxedAutoImplicit false

namespace DeclTree

namespace Node

/-- The nodes whose walks go on after the nodes visited so far, innermost first. A node and the
visited ones behind it are not yet all that its walk lists. -/
def ancestors : List Node → Owner
  | [] => []
  | n :: visited => ancestors visited ++ if visited.length + 1 < n.nodes.length then [n] else []

/-! ### Walks that have ended -/

/-- No walk of a visited node goes on. -/
inductive Ended : List Node → Prop where
  | nil : Ended []
  | cons {n : Node} {visited : List Node} (hn : n.nodes.length ≤ visited.length + 1)
    (hvisited : Ended visited) : Ended (n :: visited)

theorem Ended.append {visited more : List Node} (hvisited : Ended visited) (hmore : Ended more) :
    Ended (visited ++ more) := by
  induction hvisited with
  | nil => exact hmore
  | @cons n visited hn _ ih =>
    have hlength : n.nodes.length ≤ (visited ++ more).length + 1 := by
      rw [List.length_append]
      omega
    exact .cons hlength ih

theorem Ended.flatMap {ns : List Node} (hns : ∀ n ∈ ns, Ended n.nodes) :
    Ended (ns.flatMap nodes) := by
  induction ns with
  | nil => exact .nil
  | cons n ns ih =>
    obtain ⟨hn, hns⟩ := List.forall_mem_cons.mp hns
    exact hn.append (ih hns)

/-- When the walk of a node has ended, so have the walks of all that it visited. -/
theorem ended_nodes (n : Node) : Ended n.nodes := by
  induction n using Node.induct with
  | step n ih =>
    by_cases hn : n = .missing
    · rw [hn]
      exact .nil
    · have hlength : n.nodes.length = (n.children.flatMap nodes).length + 1 :=
        congrArg List.length (nodes_eq hn)
      rw [nodes_eq hn]
      exact .cons (Nat.le_of_eq hlength) (.flatMap ih)

/-- What has ended is no ancestor of what comes next. -/
theorem ancestors_append_of_ended {visited : List Node} (hvisited : Ended visited)
    (more : List Node) : ancestors (visited ++ more) = ancestors more := by
  induction hvisited with
  | nil => rfl
  | @cons n visited hn _ ih =>
    have hended : ¬ (visited ++ more).length + 1 < n.nodes.length := by
      rw [List.length_append]
      omega
    rw [List.cons_append, ancestors, ih, if_neg hended, List.append_nil]

/-! ### Owner chains -/

/-- The chains of nodes in a row come from their walks in a row, as soon as that is so for each. -/
theorem flatMap_places_eq_mapIdx {o : Owner} {ns : List Node}
    (hns : ∀ n ∈ ns, n.places o = n.nodes.mapIdx fun i x ↦ x :: (ancestors (n.nodes.take i) ++ o)) :
    ns.flatMap (places o) = (ns.flatMap nodes).mapIdx fun i x ↦
      x :: (ancestors ((ns.flatMap nodes).take i) ++ o) := by
  induction ns with
  | nil => rfl
  | cons n ns ih =>
    obtain ⟨hn, hns⟩ := List.forall_mem_cons.mp hns
    rw [List.flatMap_cons, List.flatMap_cons, List.mapIdx_append, hn, ih hns]
    congr 1
    · rw [List.mapIdx_eq_mapIdx_iff]
      intro i hi
      rw [List.take_append_of_le_length (Nat.le_of_lt hi)]
    · rw [List.mapIdx_eq_mapIdx_iff]
      intro i hi
      have htake : (n.nodes ++ ns.flatMap nodes).take (i + n.nodes.length) =
          n.nodes ++ (ns.flatMap nodes).take i := by
        rw [Nat.add_comm, List.take_length_add_append]
      rw [htake, ancestors_append_of_ended n.ended_nodes]

/-- Where no node is missing, the owner chains are the nodes in the order of the walk, each followed
by its ancestors. -/
theorem places_eq_mapIdx {n : Node} {o : Owner}
    (hpresent : ∀ c ∈ n.places o, Owner.node c ≠ .missing) :
    n.places o = n.nodes.mapIdx fun i x ↦ x :: (ancestors (n.nodes.take i) ++ o) := by
  induction n using Node.induct generalizing o with
  | step n ih =>
    obtain ⟨hn, hbelow⟩ := forall_mem_places.mp hpresent
    have hchildren := flatMap_places_eq_mapIdx fun c hc ↦ ih c hc (hbelow c hc)
    have hnodes : n.nodes = n :: n.children.flatMap nodes := nodes_eq hn
    rw [places_eq, hchildren, hnodes, List.mapIdx_cons]
    refine congrArg (_ :: ·) (List.mapIdx_eq_mapIdx_iff.mpr fun i hi ↦ ?_)
    -- The walk of `n` goes on until its last node has been visited.
    have hgoesOn : ((n.children.flatMap nodes).take i).length + 1 < n.nodes.length := by
      rw [hnodes, List.length_cons, List.length_take_of_le (Nat.le_of_lt hi)]
      omega
    rw [List.take_succ_cons, ancestors, if_pos hgoesOn, List.append_assoc]
    rfl

theorem chain_of_mem_places {n : Node} {o c : Owner} (hc : c ∈ n.places o)
    (ho : (n :: o).IsChain fun inner outer ↦ inner ∈ outer.children) :
    (c.IsChain fun inner outer ↦ inner ∈ outer.children) ∧ c.getLast? = (n :: o).getLast? := by
  induction n using Node.induct generalizing o with
  | step n ih =>
    rw [places_eq, List.mem_cons] at hc
    rcases hc with rfl | hc
    · exact ⟨ho, rfl⟩
    · obtain ⟨x, hx, hc⟩ := List.mem_flatMap.mp hc
      obtain ⟨hchain, hlast⟩ := ih x hx hc (.cons_cons hx ho)
      rw [List.getLast?_cons_cons] at hlast
      exact ⟨hchain, hlast⟩

end Node

namespace Module

variable {m : Module}

theorem places_eq_mapIdx (hpresent : ∀ o ∈ m.places, o.node ≠ .missing) :
    m.places = m.nodes.mapIdx fun i n ↦ n :: Node.ancestors (m.nodes.take i) := by
  have hplaces := Node.places_eq_mapIdx (n := .module m) hpresent
  simp only [List.append_nil] at hplaces
  exact hplaces

/-- The owner chains lead to the nodes of the walk, to each of them once. -/
theorem map_node_places (hpresent : ∀ o ∈ m.places, o.node ≠ .missing) :
    m.places.map Owner.node = m.nodes := by
  rw [places_eq_mapIdx hpresent]
  refine List.ext_getElem (by simp) fun i _ _ ↦ ?_
  simp [Owner.node]

/-- An owner chain goes from child to parent and ends at the root. -/
theorem chain_of_mem_places {o : Owner} (ho : o ∈ m.places) :
    (o.IsChain fun inner outer ↦ inner ∈ outer.children) ∧ o.getLast? = some (.module m) :=
  Node.chain_of_mem_places ho (.singleton _)

end Module

end DeclTree
