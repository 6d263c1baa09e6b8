import DeclTree.Proofs.Lowering.CarriesOut
import DeclTree.Proofs.Tree.Nodes
import Mathlib.Algebra.BigOperators.Ring.List
import Mathlib.Algebra.Ring.Nat

/-!
# Rewriting node by node

`Node.rewrite` is what a rewriting does at any node of a tree. Unless the node is a self type, the
children of the rewritten node are its children, each rewritten in the scope inside the node,
`Node.children_rewrite`. An argument about rewritten trees thus goes by induction over nodes, with
self types as a case of their own.

Two arguments are made here: a condition on every node passes from a tree to the rewritten tree,
`Rewriting.Establishes.every`, and the self types of a rewritten tree are counted,
`Node.count_rewrite`.
-/

set_option autoImplicit false
set_option relaxedAutoImplicit false

namespace DeclTree

open SelfType (Scope)

variable {w : Rewriting} {scope : Option Scope}

/-! ### Rewriting a node -/

def Node.rewrite (w : Rewriting) (scope : Option Scope) : Node → Node
  | .module m => .module (m.rewrite w scope)
  | .classLike head members =>
    .classLike (head.rewrite w scope) (members.map (Member.rewrite w (head.inner scope)))
  | .function f => .function (f.rewrite w)
  | .var v => .var (v.rewrite w scope)
  | .typeAlias a => .typeAlias (a.rewrite w scope)
  | .enum e => .enum (e.rewrite w)
  | .foreign label => .foreign label
  | .method m => .method (m.rewrite w scope)
  | .property p => .property (p.rewrite w scope)
  | .constructor c => .constructor (c.rewrite w scope)
  | .type t => .type (t.rewrite w scope)
  | .param p => .param (p.rewrite w scope)
  | .typeParam p => .typeParam (p.rewrite w scope)
  | .heritage h => .heritage (h.rewrite w scope)
  | .missing => .missing

section Equations

@[simp] theorem Node.rewrite_module (m : Module) :
    (Node.module m).rewrite w scope = .module (m.rewrite w scope) := rfl

@[simp] theorem Node.rewrite_typeParam (p : TypeParam) :
    (Node.typeParam p).rewrite w scope = .typeParam (p.rewrite w scope) := rfl

@[simp] theorem Node.rewrite_heritage (h : Heritage) :
    (Node.heritage h).rewrite w scope = .heritage (h.rewrite w scope) := rfl

@[simp] theorem Node.rewrite_member (m : Member) :
    m.node.rewrite w scope = (m.rewrite w scope).node := by
  cases m with
  | classLike head members => rw [Member.rewrite, Member.rewriteAll_eq_map]; rfl
  | _ => rfl

@[simp] theorem Node.rewrite_decl (d : Decl) :
    d.node.rewrite w scope = (d.rewrite w scope).node := by
  cases d with
  | classLike head members => rw [Decl.rewrite, Member.rewriteAll_eq_map]; rfl
  | _ => rfl

end Equations

theorem Ty.slot_rewrite (slot : Option Ty) :
    Ty.slot (slot.map (Ty.rewrite w scope)) = (Ty.slot slot).map (Node.rewrite w scope) := by
  cases slot with
  | none => rfl
  | some t => rfl

theorem ClassHead.typeParams_rewrite (head : ClassHead) :
    (head.rewrite w scope).typeParams =
      head.typeParams.map (TypeParam.rewrite w (head.inner scope)) := by
  obtain ⟨form, name, parents, isExported, uid, tags⟩ := head
  cases form with
  | _ => rfl

theorem Node.isSelfType_iff {n : Node} :
    n.isSelfType = true ↔ ∃ nullable tags, n = .type (.self nullable tags) := by
  constructor
  · intro hn
    cases n with
    | type t =>
      cases t with
      | self nullable tags => exact ⟨nullable, tags, rfl⟩
      | _ => exact nomatch hn
    | _ => exact nomatch hn
  · rintro ⟨nullable, tags, rfl⟩
    rfl

/-- The children of a rewritten node are its children, each rewritten in the scope inside. -/
theorem Node.children_rewrite {n : Node} (hn : n.isSelfType = false) :
    (n.rewrite w scope).children = n.children.map (Node.rewrite w (n.inner scope)) := by
  cases n with
  | module m =>
    obtain ⟨head, declarations, submodules⟩ := m
    have hdecls : Decl.node ∘ Decl.rewrite w scope = Node.rewrite w scope ∘ Decl.node :=
      (funext Node.rewrite_decl).symm
    simp only [rewrite, Module.rewrite, children, Decl.rewriteAll_eq_map, Module.rewriteAll_eq_map,
      List.map_append, List.map_map, hdecls]
    rfl
  | classLike head members =>
    have hmembers : Member.node ∘ Member.rewrite w (head.inner scope) =
        Node.rewrite w (head.inner scope) ∘ Member.node := (funext Node.rewrite_member).symm
    simp only [inner_classLike, rewrite, children, ClassHead.typeParams_rewrite, List.map_append,
      List.map_map, hmembers]
    simp only [ClassHead.rewrite, List.map_map]
    rfl
  | function f =>
    simp only [rewrite, Function.rewrite, children, List.map_append, List.map_map, Ty.slot_rewrite]
    rfl
  | var v => exact Ty.slot_rewrite v.type
  | typeAlias a =>
    simp only [rewrite, TypeAlias.rewrite, children, List.map_append, List.map_map,
      Ty.slot_rewrite]
    rfl
  | method m =>
    simp only [rewrite, Method.rewrite, children, List.map_append, List.map_map, Ty.slot_rewrite]
    rfl
  | property p =>
    simp only [rewrite, Property.rewrite, children, List.map_append, List.map_map, Ty.slot_rewrite]
    rfl
  | constructor c =>
    simp only [rewrite, Constructor.rewrite, children, List.map_append, List.map_map]
    rfl
  | type t =>
    cases t with
    | self nullable tags => cases hn
    | foreign label => rfl
    | _ =>
      simp only [rewrite, Ty.rewrite, children, Ty.children, Ty.rewriteAll_eq_map,
        Param.rewriteAll_eq_map, TypeParam.rewriteAll_eq_map, Ty.rewriteSlot_eq_map,
        List.map_append, List.map_map, Ty.slot_rewrite]
      rfl
  | param p =>
    obtain ⟨name, type, isOptional, isVararg⟩ := p
    simp only [rewrite, Param.rewrite, children, Ty.rewriteSlot_eq_map, Ty.slot_rewrite]
    rfl
  | typeParam p =>
    obtain ⟨name, constraints, default⟩ := p
    simp only [rewrite, TypeParam.rewrite, children, Ty.rewriteAll_eq_map, Ty.rewriteSlot_eq_map,
      List.map_append, List.map_map, Ty.slot_rewrite]
    rfl
  | heritage h =>
    simp only [rewrite, Heritage.rewrite, children, List.map_map]
    rfl
  | _ => rfl

theorem Node.rewrite_ne_missing {n : Node} (hn : n ≠ .missing) :
    n.rewrite w scope ≠ .missing := by
  cases n with
  | missing => exact absurd rfl hn
  | _ => exact nofun

theorem Node.isSelfType_rewrite {n : Node} (hn : n.isSelfType = false) :
    (n.rewrite w scope).isSelfType = false := by
  cases n with
  | type t =>
    cases t with
    | self nullable tags => exact nomatch hn
    | _ => rfl
  | _ => rfl

/-- The walk of a rewritten node that is no self type. -/
theorem Node.nodes_rewrite {n : Node} (hn : n.isSelfType = false) (hpresent : n ≠ .missing) :
    (n.rewrite w scope).nodes = n.rewrite w scope ::
      n.children.flatMap fun c ↦ (c.rewrite w (n.inner scope)).nodes := by
  rw [Node.nodes_eq (Node.rewrite_ne_missing hpresent), Node.children_rewrite hn, List.flatMap_map]

/-! ### Conditions on every node -/

/-- What a rewriting has to do at single nodes so that it takes trees in which every node satisfies
`P` to trees in which every node satisfies `Q`. A condition `I` on scopes is carried along: it
passes from the scope around a node to the scope inside. -/
structure Rewriting.Establishes (w : Rewriting) (P Q : Node → Prop) (I : Option Scope → Prop) :
    Prop where
  node : ∀ (n : Node) (scope : Option Scope), n.isSelfType = false → I scope → P n →
    Q (n.rewrite w scope)
  inner : ∀ (n : Node) (scope : Option Scope), I scope → (∀ x ∈ n.nodes, P x) → I (n.inner scope)
  self : ∀ (nullable : Bool) (tags : Provenance) (scope : Option Scope), I scope →
    P (.type (.self nullable tags)) → (w.self scope nullable tags).Every Q

theorem Rewriting.Establishes.forall_mem_nodes {P Q : Node → Prop} {I : Option Scope → Prop}
    (h : w.Establishes P Q I) (n : Node) (hscope : I scope) (hn : ∀ x ∈ n.nodes, P x) :
    ∀ x ∈ (n.rewrite w scope).nodes, Q x := by
  induction n using Node.induct generalizing scope with
  | step n ih =>
    cases hself : n.isSelfType with
    | true =>
      obtain ⟨nullable, tags, rfl⟩ := Node.isSelfType_iff.mp hself
      exact h.self nullable tags scope hscope (hn _ List.mem_cons_self)
    | false =>
      by_cases hpresent : n = .missing
      · subst hpresent
        exact nofun
      · have hbelow := hn
        rw [Node.nodes_eq hpresent, List.forall_mem_cons] at hbelow
        rw [Node.nodes_rewrite hself hpresent, List.forall_mem_cons]
        refine ⟨h.node n scope hself hscope hbelow.1, fun x hx ↦ ?_⟩
        obtain ⟨c, hc, hx⟩ := List.mem_flatMap.mp hx
        exact ih c hc (h.inner n scope hscope hn)
          (fun y hy ↦ hbelow.2 y (List.mem_flatMap.mpr ⟨c, hc, hy⟩)) x hx

/-- The condition passes from a tree to the rewritten tree. -/
theorem Rewriting.Establishes.every {P Q : Node → Prop} {I : Option Scope → Prop}
    (h : w.Establishes P Q I) {m : Module} (hscope : I none) (hm : m.Every P) :
    (m.rewrite w none).Every Q :=
  h.forall_mem_nodes (.module m) hscope hm

/-! ### Counting self types -/

/-- Where every self type leaves `k` self types behind, there are `k` times as many. -/
theorem Node.count_rewrite {k : Nat} (hself : ∀ scope nullable tags,
      ((w.self scope nullable tags).walk fun _ ↦ true).countP Node.isSelfType = k) (n : Node) :
    (n.rewrite w scope).nodes.countP Node.isSelfType =
      k * n.nodes.countP Node.isSelfType := by
  induction n using Node.induct generalizing scope with
  | step n ih =>
    cases hn : n.isSelfType with
    | true =>
      obtain ⟨nullable, tags, rfl⟩ := Node.isSelfType_iff.mp hn
      exact (hself scope nullable tags).trans (Nat.mul_one k).symm
    | false =>
      by_cases hpresent : n = .missing
      · subst hpresent
        rfl
      · have hbelow : n.children.map (fun c ↦
              (c.rewrite w (n.inner scope)).nodes.countP Node.isSelfType) =
            n.children.map fun c ↦ k * c.nodes.countP Node.isSelfType :=
          List.map_congr_left fun c hc ↦ ih c hc
        rw [Node.nodes_rewrite hn hpresent, Node.nodes_eq hpresent,
          List.countP_cons_of_neg (by simp [Node.isSelfType_rewrite hn]),
          List.countP_cons_of_neg (by simp [hn]), List.countP_flatMap, List.countP_flatMap]
        exact (congrArg List.sum hbelow).trans (List.sum_map_mul_left ..)

end DeclTree
