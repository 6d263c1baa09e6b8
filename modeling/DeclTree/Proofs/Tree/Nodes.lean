import DeclTree.Lowering.Rules
import DeclTree.Owner
import DeclTree.Proofs.Tree.Every
import Mathlib.Data.List.Basic

/-!
# Trees as nodes

Whatever its storey, a node stands above its children. `Node.nodes` continues the walks of the
storeys to single nodes, and `Node.nodes_eq` says that a walk is a node followed by the walks of its
children. Children are smaller than their parent, so a property passes from all children to the
node and thus to every node: `Node.induct`.

`Node.places` lists the owner chains of a node and of everything below it, in source order.
-/

set_option autoImplicit false
set_option relaxedAutoImplicit false

namespace DeclTree

/-! ### Walking from a node -/

/-- A node and everything below it, in source order; a missing node is not visited. -/
def Node.nodes : Node → List Node
  | .module m => m.nodes
  | .classLike head members => (Member.classLike head members).walk fun _ ↦ true
  | .function f => f.walk fun _ ↦ true
  | .var v => (Decl.var v).walk fun _ ↦ true
  | .typeAlias a => (Decl.typeAlias a).walk fun _ ↦ true
  | .enum e => (Decl.enum e).walk fun _ ↦ true
  | .foreign label => (Decl.foreign label).walk fun _ ↦ true
  | .method m => (Member.method m).walk fun _ ↦ true
  | .property p => (Member.property p).walk fun _ ↦ true
  | .constructor c => (Member.constructor c).walk fun _ ↦ true
  | .type t => t.walk fun _ ↦ true
  | .param p => p.walk fun _ ↦ true
  | .typeParam p => p.walk fun _ ↦ true
  | .heritage h => h.walk fun _ ↦ true
  | .missing => []

theorem flatMap_nodes_types (ts : List Ty) :
    (ts.map Node.type).flatMap Node.nodes = Ty.walkAll (fun _ ↦ true) ts := by
  rw [List.flatMap_map, Ty.walkAll_eq_flatMap]
  rfl

theorem flatMap_nodes_slot (slot : Option Ty) :
    (Ty.slot slot).flatMap Node.nodes = Ty.walkSlot (fun _ ↦ true) slot := by
  cases slot with
  | none => rfl
  | some t => exact List.flatMap_singleton Node.nodes (.type t)

theorem flatMap_nodes_params (ps : List Param) :
    (ps.map Node.param).flatMap Node.nodes = Param.walkAll (fun _ ↦ true) ps := by
  rw [List.flatMap_map, Param.walkAll_eq_flatMap]
  rfl

theorem flatMap_nodes_typeParams (ps : List TypeParam) :
    (ps.map Node.typeParam).flatMap Node.nodes = TypeParam.walkAll (fun _ ↦ true) ps := by
  rw [List.flatMap_map, TypeParam.walkAll_eq_flatMap]
  rfl

theorem flatMap_nodes_parents (hs : List Heritage) :
    (hs.map Node.heritage).flatMap Node.nodes = hs.flatMap (Heritage.walk fun _ ↦ true) :=
  List.flatMap_map ..

theorem flatMap_nodes_members (ms : List Member) :
    (ms.map Member.node).flatMap Node.nodes = Member.walkAll (fun _ ↦ true) ms := by
  rw [List.flatMap_map, Member.walkAll_eq_flatMap]
  refine List.flatMap_congr fun m _ ↦ ?_
  cases m with
  | _ => rfl

theorem flatMap_nodes_decls (ds : List Decl) :
    (ds.map Decl.node).flatMap Node.nodes = Decl.walkAll (fun _ ↦ true) ds := by
  rw [List.flatMap_map, Decl.walkAll_eq_flatMap]
  refine List.flatMap_congr fun d _ ↦ ?_
  cases d with
  | _ => rfl

theorem flatMap_nodes_modules (ms : List Module) :
    (ms.map Node.module).flatMap Node.nodes = Module.walkAll (fun _ ↦ true) ms := by
  rw [List.flatMap_map, Module.walkAll_eq_flatMap]
  rfl

/-- A walk is the node, and then the walks of its children in order. -/
theorem Node.nodes_eq {n : Node} (hn : n ≠ .missing) :
    n.nodes = n :: n.children.flatMap Node.nodes := by
  cases n with
  | missing => exact absurd rfl hn
  | module m =>
    obtain ⟨head, declarations, submodules⟩ := m
    rw [children, List.flatMap_append, flatMap_nodes_decls, flatMap_nodes_modules]
    rfl
  | classLike head members =>
    rw [children, List.flatMap_append, List.flatMap_append, flatMap_nodes_typeParams,
      flatMap_nodes_parents, flatMap_nodes_members]
    rfl
  | function f =>
    rw [children, List.flatMap_append, List.flatMap_append, flatMap_nodes_typeParams,
      flatMap_nodes_params, flatMap_nodes_slot]
    rfl
  | var v =>
    rw [children, flatMap_nodes_slot]
    rfl
  | typeAlias a =>
    rw [children, List.flatMap_append, flatMap_nodes_typeParams, flatMap_nodes_slot]
    rfl
  | enum e => rfl
  | foreign label => rfl
  | method m =>
    rw [children, List.flatMap_append, List.flatMap_append, flatMap_nodes_typeParams,
      flatMap_nodes_params, flatMap_nodes_slot]
    rfl
  | property p =>
    rw [children, List.flatMap_append, flatMap_nodes_typeParams, flatMap_nodes_slot]
    rfl
  | constructor c =>
    rw [children, List.flatMap_append, flatMap_nodes_typeParams, flatMap_nodes_params]
    rfl
  | type t =>
    rw [children]
    cases t with
    | named name args target nullable tags =>
      rw [Ty.children, flatMap_nodes_types]
      rfl
    | function params result nullable tags =>
      rw [Ty.children, List.flatMap_append, flatMap_nodes_params, flatMap_nodes_slot]
      rfl
    | union alternatives nullable tags =>
      rw [Ty.children, flatMap_nodes_types]
      rfl
    | self nullable tags => rfl
    | generated name typeParams target nullable tags =>
      rw [Ty.children, flatMap_nodes_typeParams]
      rfl
    | foreign label => rfl
  | param p =>
    obtain ⟨name, type, isOptional, isVararg⟩ := p
    rw [children, flatMap_nodes_slot]
    rfl
  | typeParam p =>
    obtain ⟨name, constraints, default⟩ := p
    rw [children, List.flatMap_append, flatMap_nodes_types, flatMap_nodes_slot]
    rfl
  | heritage h =>
    rw [children, flatMap_nodes_types]
    rfl

/-- What holds of a node and of everything below it holds of whatever is visited. -/
theorem Node.Every.forall_mem_nodes {P : Node → Prop} {n : Node} (hn : n.Every P) :
    ∀ x ∈ n.nodes, P x := by
  cases n with
  | foreign label => exact List.forall_mem_singleton.mpr hn
  | missing => exact List.forall_mem_nil P
  | _ => exact hn

/-! ### Nodes in their slots -/

theorem Node.node_of_decl? {n : Node} {d : Decl} (hd : n.decl? = some d) : d.node = n := by
  cases n with
  | module m => obtain rfl := Option.some.inj hd; rfl
  | classLike head members => obtain rfl := Option.some.inj hd; rfl
  | function f => obtain rfl := Option.some.inj hd; rfl
  | var v => obtain rfl := Option.some.inj hd; rfl
  | typeAlias a => obtain rfl := Option.some.inj hd; rfl
  | enum e => obtain rfl := Option.some.inj hd; rfl
  | foreign label => obtain rfl := Option.some.inj hd; rfl
  | _ => exact nomatch hd

theorem Node.node_of_member? {n : Node} {m : Member} (hm : n.member? = some m) : m.node = n := by
  cases n with
  | method m => obtain rfl := Option.some.inj hm; rfl
  | property p => obtain rfl := Option.some.inj hm; rfl
  | constructor c => obtain rfl := Option.some.inj hm; rfl
  | function f => obtain rfl := Option.some.inj hm; rfl
  | classLike head members => obtain rfl := Option.some.inj hm; rfl
  | _ => exact nomatch hm

theorem Node.node_of_module? {n : Node} {m : Module} (hm : n.module? = some m) :
    .module m = n := by
  cases n with
  | module m => obtain rfl := Option.some.inj hm; rfl
  | _ => exact nomatch hm

theorem Node.node_of_type? {n : Node} {t : Ty} (ht : n.type? = some t) : .type t = n := by
  cases n with
  | type t => obtain rfl := Option.some.inj ht; rfl
  | _ => exact nomatch ht

theorem Node.node_of_param? {n : Node} {p : Param} (hp : n.param? = some p) : .param p = n := by
  cases n with
  | param p => obtain rfl := Option.some.inj hp; rfl
  | _ => exact nomatch hp

theorem Node.node_of_typeParam? {n : Node} {p : TypeParam} (hp : n.typeParam? = some p) :
    .typeParam p = n := by
  cases n with
  | typeParam p => obtain rfl := Option.some.inj hp; rfl
  | _ => exact nomatch hp

theorem Node.node_of_heritage? {n : Node} {h : Heritage} (hh : n.heritage? = some h) :
    .heritage h = n := by
  cases n with
  | heritage h => obtain rfl := Option.some.inj hh; rfl
  | _ => exact nomatch hh

/-! ### Induction over nodes -/

/-- There is less below a child than below the node above it. -/
theorem Node.length_nodes_lt {c n : Node} (hc : c ∈ n.children) :
    c.nodes.length < n.nodes.length := by
  have hn : n ≠ .missing := by
    rintro rfl
    exact nomatch hc
  have hle : c.nodes.length ≤ (n.children.flatMap Node.nodes).length := by
    rw [List.flatMap_def]
    exact (List.sublist_flatten_of_mem (List.mem_map_of_mem hc)).length_le
  rw [Node.nodes_eq hn, List.length_cons]
  omega

/-- What passes from the children of a node to the node holds of every node. -/
theorem Node.induct {P : Node → Prop} (step : ∀ n : Node, (∀ c ∈ n.children, P c) → P n)
    (n : Node) : P n :=
  step n fun c hc ↦
    have := Node.length_nodes_lt hc
    Node.induct step c
termination_by n.nodes.length

/-! ### Owner chains -/

/-- The owner chains of a node enclosed by `o` and of everything below it, in source order. -/
def Node.places (o : Owner) (n : Node) : List Owner :=
  (n :: o) :: n.children.attach.flatMap fun c ↦
    have := Node.length_nodes_lt c.property
    c.val.places (n :: o)
termination_by n.nodes.length

theorem Node.places_eq (o : Owner) (n : Node) :
    n.places o = (n :: o) :: n.children.flatMap (Node.places (n :: o)) := by
  rw [Node.places, List.flatMap_subtype (g := Node.places (n :: o)) fun _ _ ↦ rfl,
    List.unattach_attach]

theorem Node.forall_mem_places {P : Owner → Prop} {o : Owner} {n : Node} :
    (∀ c ∈ n.places o, P c) ↔
      P (n :: o) ∧ ∀ x ∈ n.children, ∀ c ∈ x.places (n :: o), P c := by
  rw [Node.places_eq, List.forall_mem_cons]
  simp only [List.mem_flatMap, forall_exists_index, and_imp]
  exact and_congr_right fun _ ↦
    ⟨fun h x hx c hc ↦ h c x hx hc, fun h c x hx hc ↦ h x hx c hc⟩

/-- A chain ends at a node of the tree, unless it ends at a missing one. -/
theorem Node.mem_nodes_of_mem_places {n : Node} {o c : Owner} (hc : c ∈ n.places o)
    (hpresent : c.node ≠ .missing) : c.node ∈ n.nodes := by
  induction n using Node.induct generalizing o with
  | step n ih =>
    rw [Node.places_eq, List.mem_cons] at hc
    rcases hc with rfl | hc
    · change n ≠ .missing at hpresent
      rw [Node.nodes_eq hpresent]
      exact List.mem_cons_self
    · obtain ⟨x, hx, hc⟩ := List.mem_flatMap.mp hc
      have hn : n ≠ .missing := by
        rintro rfl
        exact nomatch hx
      rw [Node.nodes_eq hn]
      exact List.mem_cons_of_mem n (List.mem_flatMap.mpr ⟨x, hx, ih x hx hc⟩)

/-- The owner chains of all nodes of a tree. -/
def Module.places (m : Module) : List Owner := (Node.module m).places []

end DeclTree
