import DeclTree.Proofs.Tree.Induction
import DeclTree.Tree.Flatten
import Mathlib.Data.List.Basic
import Mathlib.Logic.Relation

/-!
# What flattening keeps

`Module.reached` lists a module and what can be reached from it through submodules, each module
before its own submodules. Flattening keeps those of them that declare something and takes their
submodules away, `Module.flatten_eq`. An empty module vanishes without the modules below it, and no
declaration is lost, doubled or moved, so the declarations are as many as were counted in the tree,
and a flat list is flattened into itself: `Module.flatten_exact`.
-/

set_option autoImplicit false
set_option relaxedAutoImplicit false

namespace DeclTree

namespace Module

/-! ### Modules and their submodules -/

mutual

/-- A module and every module below it through submodules, each before its own submodules. -/
def reached : Module → List Module
  | ⟨head, declarations, submodules⟩ => ⟨head, declarations, submodules⟩ :: reachedAll submodules

def reachedAll : List Module → List Module
  | [] => []
  | m :: ms => reached m ++ reachedAll ms

end

/-- Whether a module declares something itself, and not only through its submodules. -/
def declares (m : Module) : Bool := !m.declarations.isEmpty

/-- A module without its submodules. -/
def pruned (m : Module) : Module := { m with submodules := [] }

/-- Induction over a module and its submodules, whatever is declared there. -/
theorem induct {Q : Module → Prop}
    (step : ∀ head declarations submodules, (∀ m ∈ submodules, Q m) →
      Q ⟨head, declarations, submodules⟩) (m : Module) : Q m := by
  have hstorey : ModuleStorey (fun _ ↦ True) Q :=
    { module := fun _ _ ↦ trivial
      classLike := fun _ _ ↦ trivial
      function := fun _ ↦ trivial
      var := fun _ ↦ trivial
      typeAlias := fun _ ↦ trivial
      enum := fun _ ↦ trivial
      foreign := fun _ ↦ trivial
      missing := trivial
      node := fun head declarations submodules _ hsubmodules ↦
        step head declarations submodules hsubmodules }
  exact hstorey.forModule m

theorem flattenAll_eq_flatMap (ms : List Module) : flattenAll ms = ms.flatMap flatten := by
  induction ms with
  | nil => rfl
  | cons m ms ih => rw [flattenAll, ih, List.flatMap_cons]

theorem flatten_mk (head : ModuleHead) (declarations : List Decl) (submodules : List Module) :
    (mk head declarations submodules).flatten =
      alone head declarations ++ submodules.flatMap flatten := by
  rw [flatten, flattenAll_eq_flatMap]

theorem reachedAll_eq_flatMap (ms : List Module) : reachedAll ms = ms.flatMap reached := by
  induction ms with
  | nil => rfl
  | cons m ms ih => rw [reachedAll, ih, List.flatMap_cons]

theorem reached_mk (head : ModuleHead) (declarations : List Decl) (submodules : List Module) :
    (mk head declarations submodules).reached =
      ⟨head, declarations, submodules⟩ :: submodules.flatMap reached := by
  rw [reached, reachedAll_eq_flatMap]

/-- What is listed is what can be reached by going from modules to their submodules. -/
theorem mem_reached_iff {m x : Module} :
    x ∈ m.reached ↔ Relation.ReflTransGen (fun a b : Module ↦ b ∈ a.submodules) m x := by
  induction m using induct with
  | step head declarations submodules ih =>
    rw [reached_mk, List.mem_cons, List.mem_flatMap, Relation.ReflTransGen.cases_head_iff]
    refine or_congr eq_comm (exists_congr fun s ↦ and_congr_right fun hs ↦ ?_)
    exact ih s hs

/-! ### The flat list -/

/-- A module stands alone in the flat list where it declares something. -/
theorem alone_eq (head : ModuleHead) (declarations : List Decl) (submodules : List Module) :
    alone head declarations =
      ([⟨head, declarations, submodules⟩].filter declares).map pruned := by
  cases declarations with
  | nil => rfl
  | cons d ds => rfl

/-- The flat list holds the modules that are reached and declare something, without their
submodules and in the same order. -/
theorem flatten_eq (m : Module) : m.flatten = (m.reached.filter declares).map pruned := by
  induction m using induct with
  | step head declarations submodules ih =>
    have hbelow : (submodules.flatMap reached).filter declares =
        submodules.flatMap fun s ↦ s.reached.filter declares := List.filter_flatMap ..
    rw [flatten_mk, reached_mk, ← List.singleton_append, List.filter_append, List.map_append,
      ← alone_eq, hbelow, List.map_flatMap, List.flatMap_congr ih]

/-- Leaving out modules that declare nothing, and taking submodules away, moves no declaration. -/
theorem flatMap_declarations_pruned (ms : List Module) :
    ((ms.filter declares).map pruned).flatMap declarations = ms.flatMap declarations := by
  induction ms with
  | nil => rfl
  | cons m ms ih =>
    cases hm : m.declares with
    | true =>
      rw [List.filter_cons_of_pos hm, List.map_cons, List.flatMap_cons, List.flatMap_cons, ih]
      rfl
    | false =>
      have hnone : m.declarations = [] := by
        rwa [declares, Bool.not_eq_false', List.isEmpty_iff] at hm
      rw [List.filter_cons_of_neg (Bool.eq_false_iff.mp hm), List.flatMap_cons, hnone,
        List.nil_append, ih]

theorem countAllDeclarations_eq_length {ms : List Module}
    (hms : ∀ m ∈ ms, m.countDeclarations = (m.reached.flatMap declarations).length) :
    countAllDeclarations ms = ((ms.flatMap reached).flatMap declarations).length := by
  induction ms with
  | nil => rfl
  | cons m ms ih =>
    obtain ⟨hm, hms⟩ := List.forall_mem_cons.mp hms
    rw [countAllDeclarations, hm, ih hms, List.flatMap_cons, List.flatMap_append,
      List.length_append]

/-- What is counted in a tree are the declarations of the modules that are reached. -/
theorem countDeclarations_eq_length (m : Module) :
    m.countDeclarations = (m.reached.flatMap declarations).length := by
  induction m using induct with
  | step head declarations submodules ih =>
    rw [countDeclarations, countAllDeclarations_eq_length ih, reached_mk, List.flatMap_cons,
      List.length_append]

/-- Without submodules only what a module declares itself is counted. -/
theorem countAllDeclarations_pruned (ms : List Module) :
    countAllDeclarations (ms.map pruned) = ((ms.map pruned).flatMap declarations).length := by
  have hreached : (ms.map pruned).flatMap reached = ms.map pruned := by
    rw [List.flatMap_map]
    exact List.map_eq_flatMap.symm
  rw [countAllDeclarations_eq_length fun m _ ↦ countDeclarations_eq_length m, hreached]

theorem flatten_pruned {m : Module} (hm : m.declares) : m.pruned.flatten = [m.pruned] := by
  obtain ⟨head, declarations, submodules⟩ := m
  cases declarations with
  | nil => exact absurd hm Bool.false_ne_true
  | cons d ds => rfl

/-- Flattening is exact. It gives the modules reached from the root through submodules, each module
before its own submodules, that declare something, each as it is but for its submodules, which are
gone. So the declarations of the flat list are those of the modules reached, in the same order and
as many as are counted in the tree, and flattening what is flat changes nothing. -/
theorem flatten_exact (m : Module) :
    (∀ x, x ∈ m.reached ↔ Relation.ReflTransGen (fun a b : Module ↦ b ∈ a.submodules) m x) ∧
      m.flatten = (m.reached.filter fun x ↦ !x.declarations.isEmpty).map
        (fun x ↦ { x with submodules := [] }) ∧
      m.flatten.flatMap declarations = m.reached.flatMap declarations ∧
      countAllDeclarations m.flatten = m.countDeclarations ∧
      flattenAll m.flatten = m.flatten := by
  refine ⟨fun x ↦ mem_reached_iff, flatten_eq m, ?_, ?_, ?_⟩
  · rw [flatten_eq, flatMap_declarations_pruned]
  · rw [flatten_eq, countAllDeclarations_pruned, flatMap_declarations_pruned,
      countDeclarations_eq_length]
  · have hsingle : ∀ x ∈ m.flatten, x.flatten = [x] := by
      intro x hx
      rw [flatten_eq] at hx
      obtain ⟨y, hy, rfl⟩ := List.mem_map.mp hx
      exact flatten_pruned (List.mem_filter.mp hy).2
    rw [flattenAll_eq_flatMap, List.flatMap_congr hsingle, List.flatMap_singleton']

-- The empty module in the middle vanishes, and the one below it stays.
example (head : ModuleHead) (d e : Decl) :
    (mk head [d] [⟨head, [], [⟨head, [e], []⟩]⟩]).flatten =
      [⟨head, [d], []⟩, ⟨head, [e], []⟩] := rfl

end Module

end DeclTree
