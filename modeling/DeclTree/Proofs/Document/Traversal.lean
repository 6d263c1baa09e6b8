import DeclTree.Proofs.Document.NormalForm

/-!
# Going through the nodes of a document

`Document.walk` lists the nodes of a document that are read, a node before what lies in the fields
of its kind, and `Document.traverse` runs an action at each of them. Neither knows of the decoder,
and both go through documents that are refused as well.

Three laws hold of traversals. An action that does nothing at the nodes that are read does nothing
to the document, `traverse_eq_pure`. The nodes that a traversal leaves are those that it finds,
changed one after the other, `walk_traverse`. A traversal that does not see what another has done is
the same after it, `traverse_traverse`.
-/

set_option autoImplicit false
set_option relaxedAutoImplicit false

namespace DeclTree

section Keep

variable {α : Type} {kind : Kind} {field : Document.Field}

theorem Kind.keep_of_mem (h : field ∈ kind.fields) (value nothing : α) :
    kind.keep field value nothing = value := if_pos h

theorem Kind.keep_of_not_mem (h : field ∉ kind.fields) (value nothing : α) :
    kind.keep field value nothing = nothing := if_neg h

end Keep

namespace Document

/-! ### Walks and traversals -/

mutual

/-- The nodes that are read, in source order. -/
def walk : Document → List Fields
  | .null => []
  | .node record => Record.walk record

def Record.walk : Record → List Fields
  | ⟨f, typeParameters, parents, members, parameters, type, params, constraints, default,
      declarations, submodules⟩ =>
    match Kind.ofText? f.kind with
    | none => [f]
    | some kind =>
      f :: (kind.keep .typeParameters (walkAll typeParameters) [] ++
        kind.keep .parents (walkAll parents) [] ++ kind.keep .members (walkAll members) [] ++
        kind.keep .parameters (walkAll parameters) [] ++ kind.keep .type (walk type) [] ++
        kind.keep .params (walkAll params) [] ++ kind.keep .constraints (walkAll constraints) [] ++
        kind.keep .default (walk default) [] ++ kind.keep .declarations (walkAll declarations) [] ++
        kind.keep .submodules (walkAll submodules) [])

def walkAll : List Document → List Fields
  | [] => []
  | doc :: docs => walk doc ++ walkAll docs

end

mutual

/-- Runs an action at every node that is read, in source order. -/
def traverse {m : Type → Type} [Monad m] (g : Fields → m Fields) : Document → m Document
  | .null => pure .null
  | .node record => do return .node (← Record.traverse g record)

def Record.traverse {m : Type → Type} [Monad m] (g : Fields → m Fields) : Record → m Record
  | ⟨f, typeParameters, parents, members, parameters, type, params, constraints, default,
      declarations, submodules⟩ =>
    match Kind.ofText? f.kind with
    | none => do
      return ⟨← g f, typeParameters, parents, members, parameters, type, params, constraints,
        default, declarations, submodules⟩
    | some kind => do
      let f ← g f
      let typeParameters ←
        kind.keep .typeParameters (traverseAll g typeParameters) (pure typeParameters)
      let parents ← kind.keep .parents (traverseAll g parents) (pure parents)
      let members ← kind.keep .members (traverseAll g members) (pure members)
      let parameters ← kind.keep .parameters (traverseAll g parameters) (pure parameters)
      let type ← kind.keep .type (traverse g type) (pure type)
      let params ← kind.keep .params (traverseAll g params) (pure params)
      let constraints ← kind.keep .constraints (traverseAll g constraints) (pure constraints)
      let default ← kind.keep .default (traverse g default) (pure default)
      let declarations ← kind.keep .declarations (traverseAll g declarations) (pure declarations)
      let submodules ← kind.keep .submodules (traverseAll g submodules) (pure submodules)
      return ⟨f, typeParameters, parents, members, parameters, type, params, constraints, default,
        declarations, submodules⟩

def traverseAll {m : Type → Type} [Monad m] (g : Fields → m Fields) :
    List Document → m (List Document)
  | [] => pure []
  | doc :: docs => do return (← traverse g doc) :: (← traverseAll g docs)

end

/-! ### Laws of traversals -/

section Pure

variable {m : Type → Type} [Monad m] {g : Fields → m Fields}

theorem keep_eq_pure {α : Type} {kind : Kind} {field : Field} {x : m α} {a : α} {fs : List Fields}
    (hx : (∀ f ∈ fs, g f = pure f) → x = pure a)
    (hpure : ∀ f ∈ kind.keep field fs [], g f = pure f) :
    kind.keep field x (pure a) = pure a := by
  by_cases hfield : field ∈ kind.fields
  · rw [Kind.keep_of_mem hfield] at hpure ⊢
    exact hx hpure
  · rw [Kind.keep_of_not_mem hfield]

variable [LawfulMonad m]

theorem traverseAll_eq_pure {docs : List Document}
    (hdocs : ∀ doc ∈ docs, (∀ f ∈ doc.walk, g f = pure f) → doc.traverse g = pure doc)
    (hpure : ∀ f ∈ walkAll docs, g f = pure f) : traverseAll g docs = pure docs := by
  induction docs with
  | nil => rw [traverseAll]
  | cons doc docs ih =>
    obtain ⟨hdoc, hrest⟩ := List.forall_mem_cons.mp hdocs
    rw [walkAll, List.forall_mem_append] at hpure
    rw [traverseAll, hdoc hpure.1, ih hrest hpure.2, pure_bind, pure_bind]

theorem traverse_eq_pure :
    Storey (fun doc ↦ (∀ f ∈ doc.walk, g f = pure f) → doc.traverse g = pure doc)
      (fun record ↦ (∀ f ∈ record.walk, g f = pure f) → record.traverse g = pure record) where
  null hpure := by rw [traverse]
  node record hrecord hpure := by
    rw [walk] at hpure
    rw [traverse, hrecord hpure, pure_bind]
  record f typeParameters parents members parameters type params constraints default declarations
      submodules htypeParameters hparents hmembers hparameters htype hparams hconstraints hdefault
      hdeclarations hsubmodules hpure := by
    rw [Record.walk] at hpure
    rw [Record.traverse]
    cases hkind : Kind.ofText? f.kind with
    | none =>
      simp only [hkind, List.forall_mem_singleton] at hpure
      simp only [hpure, pure_bind]
    | some kind =>
      simp only [hkind, List.forall_mem_cons, List.append_assoc, List.forall_mem_append] at hpure
      obtain ⟨hf, h₁, h₂, h₃, h₄, h₅, h₆, h₇, h₈, h₉, h₁₀⟩ := hpure
      simp only [hf, pure_bind, keep_eq_pure (traverseAll_eq_pure htypeParameters) h₁,
        keep_eq_pure (traverseAll_eq_pure hparents) h₂,
        keep_eq_pure (traverseAll_eq_pure hmembers) h₃,
        keep_eq_pure (traverseAll_eq_pure hparameters) h₄, keep_eq_pure htype h₅,
        keep_eq_pure (traverseAll_eq_pure hparams) h₆,
        keep_eq_pure (traverseAll_eq_pure hconstraints) h₇, keep_eq_pure hdefault h₈,
        keep_eq_pure (traverseAll_eq_pure hdeclarations) h₉,
        keep_eq_pure (traverseAll_eq_pure hsubmodules) h₁₀]

end Pure

section State

variable {σ : Type}

theorem run_bind {α β : Type} (x : StateM σ α) (k : α → StateM σ β) (s : σ) :
    (x >>= k) s = k (x s).1 (x s).2 := rfl

theorem run_pure {α : Type} (a : α) (s : σ) : (pure a : StateM σ α) s = (a, s) := rfl

variable {g : Fields → StateM σ Fields}

theorem Record.fields_traverse (record : Record) (s : σ) :
    (record.traverse g s).1.fields = (g record.fields s).1 := by
  obtain ⟨f, typeParameters, parents, members, parameters, type, params, constraints, default,
    declarations, submodules⟩ := record
  cases hkind : Kind.ofText? f.kind with
  | none => simp only [Record.traverse, hkind, run_bind, run_pure]
  | some kind => simp only [Record.traverse, hkind, run_bind, run_pure]

theorem walkAll_traverseAll {docs : List Document}
    (hdocs : ∀ doc ∈ docs, walk <$> doc.traverse g = doc.walk.mapM g) :
    walkAll <$> traverseAll g docs = (walkAll docs).mapM g := by
  induction docs with
  | nil => rw [traverseAll, walkAll, map_pure, walkAll, List.mapM_nil]
  | cons doc docs ih =>
    obtain ⟨hdoc, hrest⟩ := List.forall_mem_cons.mp hdocs
    rw [walkAll, List.mapM_append, ← hdoc, ← ih hrest]
    simp only [traverseAll, map_bind, map_pure, walkAll, bind_map_left]

theorem keep_walk {α : Type} {kind : Kind} {field : Field} {view : α → List Fields}
    {x : StateM σ α} {a : α} (hx : view <$> x = (view a).mapM g) :
    (fun a ↦ kind.keep field (view a) []) <$> kind.keep field x (pure a) =
      (kind.keep field (view a) []).mapM g := by
  by_cases hfield : field ∈ kind.fields
  · simp only [Kind.keep_of_mem hfield, hx]
  · simp only [Kind.keep_of_not_mem hfield, map_pure, List.mapM_nil]

theorem walk_traverse (hg : ∀ f s, (g f s).1.kind = f.kind) :
    Storey (fun doc ↦ walk <$> doc.traverse g = doc.walk.mapM g)
      (fun record ↦ Record.walk <$> record.traverse g = record.walk.mapM g) where
  null := by rw [traverse, walk, map_pure, walk, List.mapM_nil]
  node record hrecord := by
    rw [walk, ← hrecord, traverse, map_bind]
    simp only [map_pure, walk, bind_pure_comp]
  record f typeParameters parents members parameters type params constraints default declarations
      submodules htypeParameters hparents hmembers hparameters htype hparams hconstraints hdefault
      hdeclarations hsubmodules := by
    rw [Record.traverse, Record.walk]
    cases hkind : Kind.ofText? f.kind with
    | none =>
      funext s
      simp only [map_bind, map_pure, List.mapM_cons, List.mapM_nil, pure_bind, run_bind,
        Record.walk, hg, hkind]
    | some kind =>
      simp only [List.mapM_cons, List.mapM_append,
        ← keep_walk (walkAll_traverseAll htypeParameters),
        ← keep_walk (walkAll_traverseAll hparents), ← keep_walk (walkAll_traverseAll hmembers),
        ← keep_walk (walkAll_traverseAll hparameters), ← keep_walk htype,
        ← keep_walk (walkAll_traverseAll hparams), ← keep_walk (walkAll_traverseAll hconstraints),
        ← keep_walk hdefault, ← keep_walk (walkAll_traverseAll hdeclarations),
        ← keep_walk (walkAll_traverseAll hsubmodules), bind_map_left, bind_assoc, map_bind,
        map_pure, pure_bind]
      -- The kind that is left is known only of the result of the action.
      funext s
      simp only [run_bind, Record.walk, hg, hkind]

section Twice

variable {m : Type → Type} [Monad m] {e : Fields → m Fields}

theorem traverseAll_traverseAll {docs : List Document}
    (hdocs : ∀ doc ∈ docs, ∀ s, (doc.traverse g s).1.traverse e = doc.traverse e) (s : σ) :
    traverseAll e (traverseAll g docs s).1 = traverseAll e docs := by
  induction docs generalizing s with
  | nil => rfl
  | cons doc docs ih =>
    obtain ⟨hdoc, hrest⟩ := List.forall_mem_cons.mp hdocs
    rw [traverseAll, run_bind, run_bind, run_pure, traverseAll, hdoc, ih hrest, traverseAll]

theorem keep_traverse {α : Type} {kind : Kind} {field : Field} {visit : α → m α}
    {x : StateM σ α} {a : α} (hx : ∀ s, visit (x s).1 = visit a) (s : σ) :
    kind.keep field (visit (kind.keep field x (pure a) s).1)
      (pure (kind.keep field x (pure a) s).1) = kind.keep field (visit a) (pure a) := by
  by_cases hfield : field ∈ kind.fields
  · simp only [Kind.keep_of_mem hfield, hx]
  · simp only [Kind.keep_of_not_mem hfield]
    rfl

theorem traverse_traverse (hg : ∀ f s, (g f s).1.kind = f.kind) (he : ∀ f s, e (g f s).1 = e f) :
    Storey (fun doc ↦ ∀ s, (doc.traverse g s).1.traverse e = doc.traverse e)
      (fun record ↦ ∀ s, (record.traverse g s).1.traverse e = record.traverse e) where
  null s := rfl
  node record hrecord s := by
    rw [traverse, run_bind, run_pure, traverse, hrecord, traverse]
  record f typeParameters parents members parameters type params constraints default declarations
      submodules htypeParameters hparents hmembers hparameters htype hparams hconstraints hdefault
      hdeclarations hsubmodules s := by
    cases hkind : Kind.ofText? f.kind with
    | none => simp only [Record.traverse, hkind, run_bind, run_pure, hg, he]
    | some kind =>
      simp only [Record.traverse, hkind, run_bind, run_pure, hg, he,
        keep_traverse (traverseAll_traverseAll htypeParameters),
        keep_traverse (traverseAll_traverseAll hparents),
        keep_traverse (traverseAll_traverseAll hmembers),
        keep_traverse (traverseAll_traverseAll hparameters), keep_traverse htype,
        keep_traverse (traverseAll_traverseAll hparams),
        keep_traverse (traverseAll_traverseAll hconstraints), keep_traverse hdefault,
        keep_traverse (traverseAll_traverseAll hdeclarations),
        keep_traverse (traverseAll_traverseAll hsubmodules)]

end Twice

end State

end Document

end DeclTree
