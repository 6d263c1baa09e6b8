import DeclTree.Proofs.Fault
import DeclTree.Proofs.Lowering.Completion
import DeclTree.Proofs.Lowering.Stages
import DeclTree.Proofs.Tree.Nodes

/-!
# Nodes that no traversal knows

A tree may hold declarations that are missing, and declarations and types from outside. A node of
this sort is unknown, and a tree has no unknown node exactly when it is known,
`Module.firstUnknown?_eq_none_iff`.

`Run.StopsAt` says of a run that it fails where the first unknown node stands among given nodes, and
succeeds where there is none. It passes from the parts of a traversal to the whole, so a registry
that carries out a rewriting one declaration after the other fails at the first unknown node in
source order, `Rules.Halts.failure?_lower`. Missing nodes and declarations from outside are faults
in every registry. What becomes of a type from outside is up to the rule for self types, whose kind
it has: where there is no such rule it is a fault as well, but the rule that resolves self types
breaks down on it.
-/

set_option autoImplicit false
set_option relaxedAutoImplicit false

namespace DeclTree

/-! ### Unknown nodes -/

/-- Whether a node is missing or from outside. -/
def Node.isUnknown : Node → Bool
  | .foreign _ => true
  | .type (.foreign _) => true
  | .missing => true
  | _ => false

/-- Whether an owner chain leads to an unknown node. -/
def Owner.isUnknown (o : Owner) : Bool := o.node.isUnknown

/-- The owner chain of the first unknown node in source order. -/
def Module.firstUnknown? (m : Module) : Option Owner := m.places.find? Owner.isUnknown

theorem Member.node_ne_missing (m : Member) : m.node ≠ .missing := by
  cases m with
  | _ => exact nofun

theorem Decl.node_eq_missing_iff {d : Decl} : d.node = .missing ↔ d = .missing := by
  cases d with
  | missing => exact iff_of_true rfl rfl
  | _ => exact iff_of_false nofun nofun

/-- Only a module can hold a missing node. -/
theorem Node.isKnown_iff {n : Node} :
    n.isKnown ↔ n.isUnknown = false ∧ Node.missing ∉ n.children := by
  cases n with
  | module m =>
    have hmissing : Node.missing ∈ (Node.module m).children ↔ Decl.missing ∈ m.declarations := by
      simp [children, Decl.node_eq_missing_iff]
    rw [hmissing]
    constructor
    · intro hknown
      exact ⟨rfl, fun hmem ↦ ne_missing_of_isKnown hknown hmem rfl⟩
    · rintro ⟨-, hpresent⟩
      exact isKnown_of_ne_missing fun d hd heq ↦ hpresent (heq ▸ hd)
  | type t =>
    cases t with
    | _ => simp [isKnown, isUnknown, children, Ty.children, Ty.slot]
  | classLike head members =>
    simp [isKnown, isUnknown, children, Member.node_ne_missing]
  | _ => simp [isKnown, isUnknown, children, Ty.slot]

/-- No chain below a node leads to an unknown node exactly when all nodes are known. -/
theorem Node.forall_places_iff {n : Node} (hn : n ≠ .missing) (o : Owner) :
    (∀ c ∈ n.places o, Owner.isUnknown c = false) ↔ ∀ x ∈ n.nodes, x.isKnown := by
  induction n using Node.induct generalizing o with
  | step n ih =>
    have hchildren : (∀ x ∈ n.children, ∀ c ∈ x.places (n :: o), Owner.isUnknown c = false) ↔
        .missing ∉ n.children ∧ ∀ x ∈ n.children, ∀ y ∈ x.nodes, y.isKnown := by
      constructor
      · intro hplaces
        have hpresent : ∀ x ∈ n.children, x ≠ .missing := by
          rintro x hx rfl
          exact nomatch (Node.forall_mem_places.mp (hplaces _ hx)).1
        exact ⟨fun hmem ↦ hpresent _ hmem rfl,
          fun x hx ↦ (ih x hx (hpresent x hx) _).mp (hplaces x hx)⟩
      · rintro ⟨hpresent, hknown⟩ x hx
        have hx' : x ≠ .missing := fun heq ↦ hpresent (heq ▸ hx)
        exact (ih x hx hx' _).mpr (hknown x hx)
    have hnodes : (∀ x ∈ n.nodes, x.isKnown) ↔
        n.isKnown ∧ ∀ x ∈ n.children, ∀ y ∈ x.nodes, y.isKnown := by
      rw [Node.nodes_eq hn, List.forall_mem_cons, List.forall_mem_flatMap]
    rw [Node.forall_mem_places, hchildren, hnodes, Node.isKnown_iff, and_assoc]
    rfl

theorem Module.firstUnknown?_eq_none_iff {m : Module} : m.firstUnknown? = none ↔ m.IsKnown := by
  have hplaces : (∀ c ∈ m.places, Owner.isUnknown c = false) ↔ m.IsKnown :=
    Node.forall_places_iff (n := .module m) nofun []
  rw [← hplaces, Module.firstUnknown?, List.find?_eq_none]
  simp only [Bool.not_eq_true]

/-! ### Runs that stop at an unknown node -/

namespace Run

variable {α β γ : Type}

theorem failure?_of_ok {x : Run α} {a : α} (hx : x.outcome = .ok a) : x.failure? = none := by
  rw [failure?, hx]

theorem failure?_bind {x : Run α} {f : α → Run β} {later : Option Failure}
    (hf : ∀ a, (f a).failure? = later) : (x >>= f).failure? = x.failure?.or later := by
  cases hx : x.outcome with
  | error e =>
    rw [failure?_eq_some_iff.mpr (outcome_bind_of_error hx f), failure?_eq_some_iff.mpr hx,
      Option.some_or]
  | ok a =>
    have hlater : (x >>= f).failure? = (f a).failure? := by
      rw [failure?, failure?, outcome_bind_of_ok hx]
    rw [hlater, hf, failure?_of_ok hx, Option.none_or]

/-- A run over nodes enclosed by `o` fails for the first unknown node among them and what they hold,
and succeeds where there is none. -/
def StopsAt (failure : Owner → Failure) (x : Run α) (nodes : List Node) (o : Owner) : Prop :=
  x.failure? = ((nodes.flatMap (Node.places o)).find? Owner.isUnknown).map failure

variable {failure : Owner → Failure} {o : Owner}

theorem stopsAt_pure (a : α) : StopsAt failure (Pure.pure a) [] o := rfl

theorem StopsAt.bind {x : Run α} {f : α → Run β} {ns ns' : List Node}
    (hx : StopsAt failure x ns o) (hf : ∀ a, StopsAt failure (f a) ns' o) :
    StopsAt failure (x >>= f) (ns ++ ns') o := by
  rw [StopsAt, failure?_bind hf, hx, List.flatMap_append, List.find?_append, Option.map_or]

theorem StopsAt.bind_pure {x : Run α} {ns : List Node} (hx : StopsAt failure x ns o)
    (f : α → β) : StopsAt failure (x >>= fun a ↦ Pure.pure (f a)) ns o := by
  have hbind := hx.bind fun a ↦ stopsAt_pure (f a)
  rwa [List.append_nil] at hbind

theorem stopsAt_sequence_map {f : γ → Run α} {node : γ → Node} {cs : List γ}
    (hf : ∀ c ∈ cs, StopsAt failure (f c) [node c] o) :
    StopsAt failure (sequence (cs.map f)) (cs.map node) o :=
  sequence_map_of_parts (P := fun x ns ↦ StopsAt failure x ns o) stopsAt_pure StopsAt.bind hf

/-- A run that fails at an unknown node stops there, before anything below it. -/
theorem stopsAt_of_unknown {x : Run α} {n : Node} (hn : n.isUnknown = true)
    (hx : x.outcome = .error (failure (n :: o))) : StopsAt failure x [n] o := by
  have hfirst : (n.places o).find? Owner.isUnknown = some (n :: o) := by
    rw [Node.places_eq]
    exact List.find?_cons_of_pos hn
  rw [StopsAt, List.flatMap_singleton, hfirst]
  exact failure?_eq_some_iff.mpr hx

/-- At a known node, a run stops where the runs below it do. -/
theorem stopsAt_of_known {x : Run α} {y : Run β} {n : Node} (hn : n.isUnknown = false)
    (hy : StopsAt failure y n.children (n :: o))
    (hfails : ∀ e, y.outcome = .error e → x.outcome = .error e)
    (hsucceeds : (∀ c ∈ n.nodes, c.isKnown) → ∃ a, x.outcome = .ok a) :
    StopsAt failure x [n] o := by
  have hplaces : (n.places o).find? Owner.isUnknown =
      (n.children.flatMap (Node.places (n :: o))).find? Owner.isUnknown := by
    rw [Node.places_eq]
    exact List.find?_cons_of_neg (Bool.eq_false_iff.mp hn)
  rw [StopsAt, List.flatMap_singleton]
  cases hfirst : (n.places o).find? Owner.isUnknown with
  | none =>
    have hpresent : n ≠ .missing := by
      rintro rfl
      exact nomatch hn
    have hknown : ∀ c ∈ n.nodes, c.isKnown := by
      refine (Node.forall_places_iff hpresent o).mp fun c hc ↦ ?_
      exact Bool.eq_false_iff.mpr (List.find?_eq_none.mp hfirst c hc)
    obtain ⟨a, ha⟩ := hsucceeds hknown
    exact failure?_of_ok ha
  | some c =>
    rw [hplaces] at hfirst
    rw [StopsAt, hfirst] at hy
    exact failure?_eq_some_iff.mpr (hfails _ (failure?_eq_some_iff.mp hy))

end Run

/-! ### Registries that halt -/

namespace Rules

/-- How a registry fails at an unknown node, with `alien` for types from outside. -/
def failureAt (r : Rules) (alien : Owner → Failure) (o : Owner) : Failure :=
  match o.node with
  | .missing => .fault (r.unsupported o "nil node")
  | .type _ => alien o
  | _ => .fault (r.unsupported o "no default traversal")

/-- A registry that carries out a rewriting, one declaration after the other, and fails at types
from outside as `alien` says. -/
structure Halts (r : Rules) (w : Rewriting) (alien : Owner → Failure) : Prop
    extends r.CarriesOut w where
  sequential : r.workers ≤ 1
  foreignType : ∀ label o,
    (r.apply .selfType (.type (.foreign label) :: o) fun _ ↦
        (Ty.foreign label).descend r (.type (.foreign label) :: o)).outcome =
      .error (alien (.type (.foreign label) :: o))

variable {r : Rules} {w : Rewriting} {alien : Owner → Failure}

theorem outcome_visit_of_error {α : Type} (kind : Kind) {n : Node} {o : Owner}
    {fits : Node → Option α} {below : Owner → Run Node} {e : Failure} (hkind : n.kind? = some kind)
    (happly : (r.apply kind (n :: o) fun _ ↦ below (n :: o)).outcome = .error e) :
    (r.visit n o fits below).outcome = .error e := by
  simp only [visit, hkind]
  rw [Run.outcome_bind_of_ok (a := ()) rfl, Run.outcome_bind_of_error happly]

namespace Halts

variable (h : r.Halts w alien) {o : Owner}
include h

/-- A known node that is passed over stops where going on below it does. -/
theorem stopsAt_visit {α : Type} (kind : Kind) {n : Node} {fits : Node → Option α}
    {below : Owner → Run Node} (hkind : n.kind? = some kind) (hself : kind ≠ .selfType)
    (henum : kind ≠ .enumDecl) (hn : n.isUnknown = false)
    (hbelow : (below (n :: o)).StopsAt (r.failureAt alien) n.children (n :: o))
    (hsucceeds : (∀ c ∈ n.nodes, c.isKnown) → ∃ a, (r.visit n o fits below).outcome = .ok a) :
    (r.visit n o fits below).StopsAt (r.failureAt alien) [n] o := by
  refine Run.stopsAt_of_known hn hbelow (fun e he ↦ ?_) hsucceeds
  refine outcome_visit_of_error kind hkind ?_
  rw [h.passes kind _ _ hself henum, he]

/-! ### Types -/

omit h in
theorem stopsAt_types {failure : Owner → Failure} {ts : List Ty}
    (hts : ∀ t ∈ ts, ∀ o, (t.lower r o).StopsAt failure [.type t] o) :
    (Ty.lowerAll r o ts).StopsAt failure (ts.map .type) o := by
  rw [Ty.lowerAll_eq_sequence]
  exact Run.stopsAt_sequence_map fun t ht ↦ hts t ht o

omit h in
theorem stopsAt_slot {failure : Owner → Failure} {slot : Option Ty}
    (hslot : ∀ t ∈ slot, ∀ o, (t.lower r o).StopsAt failure [.type t] o) :
    (Ty.lowerSlot r o slot).StopsAt failure (Ty.slot slot) o := by
  cases slot with
  | none => exact Run.stopsAt_pure none
  | some t => exact (hslot t rfl o).bind_pure some

omit h in
theorem stopsAt_params {failure : Owner → Failure} {ps : List Param}
    (hps : ∀ p ∈ ps, ∀ o, (p.lower r o).StopsAt failure [.param p] o) :
    (Param.lowerAll r o ps).StopsAt failure (ps.map .param) o := by
  rw [Param.lowerAll_eq_sequence]
  exact Run.stopsAt_sequence_map fun p hp ↦ hps p hp o

omit h in
theorem stopsAt_typeParams {failure : Owner → Failure} {ps : List TypeParam}
    (hps : ∀ p ∈ ps, ∀ o, (p.lower r o).StopsAt failure [.typeParam p] o) :
    (TypeParam.lowerAll r o ps).StopsAt failure (ps.map .typeParam) o := by
  rw [TypeParam.lowerAll_eq_sequence]
  exact Run.stopsAt_sequence_map fun p hp ↦ hps p hp o

theorem stops_types :
    TypeStorey (fun t ↦ ∀ o, (t.lower r o).StopsAt (r.failureAt alien) [.type t] o)
      (fun p ↦ ∀ o, (p.lower r o).StopsAt (r.failureAt alien) [.param p] o)
      (fun p ↦ ∀ o, (p.lower r o).StopsAt (r.failureAt alien) [.typeParam p] o) where
  named name args target nullable tags hargs o := by
    refine h.stopsAt_visit .namedType rfl (by decide) (by decide) rfl ?_
      fun hknown ↦ ⟨_, h.lowers_types.forType _ o hknown⟩
    exact (stopsAt_types hargs).bind_pure _
  function params result nullable tags hparams hresult o := by
    refine h.stopsAt_visit .functionType rfl (by decide) (by decide) rfl ?_
      fun hknown ↦ ⟨_, h.lowers_types.forType _ o hknown⟩
    exact (stopsAt_params hparams).bind fun _ ↦ (stopsAt_slot hresult).bind_pure _
  union alternatives nullable tags halternatives o := by
    refine h.stopsAt_visit .unionType rfl (by decide) (by decide) rfl ?_
      fun hknown ↦ ⟨_, h.lowers_types.forType _ o hknown⟩
    exact (stopsAt_types halternatives).bind_pure _
  self nullable tags o := by
    refine Run.stopsAt_of_known rfl (Run.stopsAt_pure ()) (fun e he ↦ nomatch he)
      fun hknown ↦ ⟨_, h.lowers_types.forType _ o hknown⟩
  generated name typeParams target nullable tags htypeParams o := by
    refine h.stopsAt_visit .generatedType rfl (by decide) (by decide) rfl ?_
      fun hknown ↦ ⟨_, h.lowers_types.forType _ o hknown⟩
    exact (stopsAt_typeParams htypeParams).bind_pure _
  foreign label o :=
    Run.stopsAt_of_unknown rfl (outcome_visit_of_error .selfType rfl (h.foreignType label o))
  param name type isOptional isVararg htype o := by
    refine h.stopsAt_visit .param rfl (by decide) (by decide) rfl ?_
      fun hknown ↦ ⟨_, h.lowers_types.forParam _ o hknown⟩
    exact (stopsAt_slot htype).bind_pure _
  typeParam name constraints default hconstraints hdefault o := by
    refine h.stopsAt_visit .typeParam rfl (by decide) (by decide) rfl ?_
      fun hknown ↦ ⟨_, h.lowers_types.forTypeParam _ o hknown⟩
    exact (stopsAt_types hconstraints).bind fun _ ↦ (stopsAt_slot hdefault).bind_pure _

/-! ### Members -/

theorem stopsAt_allTypeParams (o : Owner) (ps : List TypeParam) :
    (TypeParam.lowerAll r o ps).StopsAt (r.failureAt alien) (ps.map .typeParam) o :=
  stopsAt_typeParams fun p _ ↦ h.stops_types.forTypeParam p

theorem stopsAt_allParams (o : Owner) (ps : List Param) :
    (Param.lowerAll r o ps).StopsAt (r.failureAt alien) (ps.map .param) o :=
  stopsAt_params fun p _ ↦ h.stops_types.forParam p

theorem stopsAt_anySlot (o : Owner) (slot : Option Ty) :
    (Ty.lowerSlot r o slot).StopsAt (r.failureAt alien) (Ty.slot slot) o :=
  stopsAt_slot fun t _ ↦ h.stops_types.forType t

theorem stopsAt_allParents (o : Owner) (hs : List Heritage) :
    (Heritage.lowerAll r o hs).StopsAt (r.failureAt alien) (hs.map .heritage) o := by
  rw [Heritage.lowerAll_eq_sequence]
  refine Run.stopsAt_sequence_map fun x _ ↦ ?_
  refine h.stopsAt_visit .heritage rfl (by decide) (by decide) rfl ?_
    fun hknown ↦ ⟨_, h.outcome_heritage o hknown⟩
  exact (stopsAt_types fun t _ ↦ h.stops_types.forType t).bind_pure _

/-- Functions and methods have the same three parts. -/
theorem stopsAt_signature (o : Owner) (typeParams : List TypeParam) (params : List Param)
    (result : Option Ty) (node : List TypeParam → List Param → Option Ty → Node) :
    Run.StopsAt (r.failureAt alien)
      (do
        let typeParams ← TypeParam.lowerAll r o typeParams
        let params ← Param.lowerAll r o params
        let result ← Ty.lowerSlot r o result
        return node typeParams params result)
      (typeParams.map .typeParam ++ params.map .param ++ Ty.slot result) o := by
  rw [List.append_assoc]
  refine (h.stopsAt_allTypeParams o typeParams).bind fun _ ↦ ?_
  refine (h.stopsAt_allParams o params).bind fun _ ↦ ?_
  exact (h.stopsAt_anySlot o result).bind_pure _

omit h in
theorem stopsAt_members {failure : Owner → Failure} {ms : List Member}
    (hms : ∀ m ∈ ms, ∀ o, (m.lower r o).StopsAt failure [m.node] o) :
    (Member.lowerAll r o ms).StopsAt failure (ms.map Member.node) o := by
  rw [Member.lowerAll_eq_sequence]
  exact Run.stopsAt_sequence_map fun m hm ↦ hms m hm o

theorem stopsAt_classLike {head : ClassHead} {members : List Member}
    (hmembers : ∀ m ∈ members, ∀ o, (m.lower r o).StopsAt (r.failureAt alien) [m.node] o) :
    ((Member.classLike head members).descend r o).StopsAt (r.failureAt alien)
      (Node.classLike head members).children o := by
  have hhead : (head.lower r o).StopsAt (r.failureAt alien)
      (head.typeParams.map .typeParam ++ head.parents.map .heritage) o :=
    (h.stopsAt_allTypeParams o _).bind fun _ ↦ (h.stopsAt_allParents o _).bind_pure _
  exact hhead.bind fun _ ↦ (stopsAt_members hmembers).bind_pure _

theorem stops_members :
    MemberStorey fun m ↦ ∀ o, (m.lower r o).StopsAt (r.failureAt alien) [m.node] o where
  method m o := by
    refine h.stopsAt_visit .method rfl (by decide) (by decide) rfl ?_
      fun hknown ↦ ⟨_, h.lowers_members.forMember (.method m) o hknown⟩
    exact h.stopsAt_signature _ _ _ _ _
  property p o := by
    refine h.stopsAt_visit .property rfl (by decide) (by decide) rfl ?_
      fun hknown ↦ ⟨_, h.lowers_members.forMember (.property p) o hknown⟩
    exact (h.stopsAt_allTypeParams _ _).bind fun _ ↦ (h.stopsAt_anySlot _ _).bind_pure _
  constructor c o := by
    refine h.stopsAt_visit .constructor rfl (by decide) (by decide) rfl ?_
      fun hknown ↦ ⟨_, h.lowers_members.forMember (.constructor c) o hknown⟩
    exact (h.stopsAt_allTypeParams _ _).bind fun _ ↦ (h.stopsAt_allParams _ _).bind_pure _
  function f o := by
    refine h.stopsAt_visit .functionDecl rfl (by decide) (by decide) rfl ?_
      fun hknown ↦ ⟨_, h.lowers_members.forMember (.function f) o hknown⟩
    exact h.stopsAt_signature _ _ _ _ _
  classLike head members hmembers o := by
    refine h.stopsAt_visit head.form.kind rfl head.form.kind_ne_selfType
      head.form.kind_ne_enumDecl rfl (h.stopsAt_classLike hmembers) ?_
    exact fun hknown ↦ ⟨_, h.lowers_members.forMember (.classLike head members) o hknown⟩

/-! ### Declarations and modules -/

theorem stopsAt_module {m : Module}
    (hm : (m.descend r (.module m :: o)).StopsAt (r.failureAt alien) (Node.module m).children
      (.module m :: o)) :
    (m.lower r o).StopsAt (r.failureAt alien) [.module m] o := by
  refine h.stopsAt_visit .moduleDecl rfl (by decide) (by decide) rfl hm fun hknown ↦ ?_
  exact ⟨_, h.visit_passes .moduleDecl Node.module rfl (by decide) (by decide) rfl
    (h.lowers_modules.forModule m o hknown)⟩

theorem stops_modules :
    ModuleStorey (fun d ↦ ∀ o, (d.lower r o).StopsAt (r.failureAt alien) [d.node] o)
      (fun m ↦ ∀ o, (m.descend r (.module m :: o)).StopsAt (r.failureAt alien)
        (Node.module m).children (.module m :: o)) where
  module m hm o :=
    h.stopsAt_visit .moduleDecl rfl (by decide) (by decide) rfl (hm o)
      fun hknown ↦ ⟨_, h.lowers_modules.forDecl (.module m) o nofun hknown⟩
  classLike head members o := by
    refine h.stopsAt_visit head.form.kind rfl head.form.kind_ne_selfType
      head.form.kind_ne_enumDecl rfl (h.stopsAt_classLike fun m _ ↦ h.stops_members.forMember m) ?_
    exact fun hknown ↦ ⟨_, h.lowers_modules.forDecl (.classLike head members) o nofun hknown⟩
  function f o := by
    refine h.stopsAt_visit .functionDecl rfl (by decide) (by decide) rfl ?_
      fun hknown ↦ ⟨_, h.lowers_modules.forDecl (.function f) o nofun hknown⟩
    exact h.stopsAt_signature _ _ _ _ _
  var v o := by
    refine h.stopsAt_visit .variableDecl rfl (by decide) (by decide) rfl ?_
      fun hknown ↦ ⟨_, h.lowers_modules.forDecl (.var v) o nofun hknown⟩
    exact (h.stopsAt_anySlot _ _).bind_pure _
  typeAlias a o := by
    refine h.stopsAt_visit .aliasDecl rfl (by decide) (by decide) rfl ?_
      fun hknown ↦ ⟨_, h.lowers_modules.forDecl (.typeAlias a) o nofun hknown⟩
    exact (h.stopsAt_allTypeParams _ _).bind fun _ ↦ (h.stopsAt_anySlot _ _).bind_pure _
  enum e o :=
    Run.stopsAt_of_known rfl (Run.stopsAt_pure ()) (fun _ he ↦ nomatch he)
      fun _ ↦ ⟨_, h.outcome_enum e o⟩
  foreign label o := by
    refine Run.stopsAt_of_unknown rfl (outcome_visit_of_error .variableDecl rfl ?_)
    rw [h.passes .variableDecl _ _ (by decide) (by decide)]
    rfl
  missing o := Run.stopsAt_of_unknown rfl rfl
  node head declarations submodules hdeclarations hsubmodules o := by
    have hdecls : (r.gather .missing (.module ⟨head, declarations, submodules⟩ :: o)
        (Decl.lowerEach r (.module ⟨head, declarations, submodules⟩ :: o) declarations)).StopsAt
        (r.failureAt alien) (declarations.map Decl.node)
        (.module ⟨head, declarations, submodules⟩ :: o) := by
      rw [gather_eq_sequence h.sequential, Decl.lowerEach_eq_map]
      exact Run.stopsAt_sequence_map fun d hd ↦ hdeclarations d hd _
    have hmods : (Module.lowerAll r (.module ⟨head, declarations, submodules⟩ :: o)
        submodules).StopsAt (r.failureAt alien) (submodules.map .module)
        (.module ⟨head, declarations, submodules⟩ :: o) := by
      rw [Module.lowerAll_eq_sequence]
      exact Run.stopsAt_sequence_map fun m hm ↦ h.stopsAt_module (hsubmodules m hm _)
    exact hdecls.bind fun _ ↦ hmods.bind_pure _

/-- The registry takes a tree to a tree exactly when the tree is known, and otherwise fails at the
first unknown node. -/
theorem failure?_lower (m : Module) :
    (r.lower (some m)).failure? = m.firstUnknown?.map (r.failureAt alien) := by
  have hmodule : (m.lower r []).StopsAt (r.failureAt alien) [.module m] [] :=
    h.stopsAt_module (h.stops_modules.forModule m [])
  rw [Run.StopsAt, List.flatMap_singleton] at hmodule
  rw [lower, Run.failure?, Run.outcome_traced]
  exact hmodule

end Halts

end Rules

/-! ### Passes that stop at unknown nodes -/

/-- Whether a failure is a fault for a node that is not supported, with the owner chain of the node
in its details. -/
def Failure.Names (o : Owner) : Failure → Prop
  | .fault f => f.is .unsupportedNode ∧ f.details = ["owner path: " ++ o.path]
  | .crash => False

theorem Rules.names_unsupported (r : Rules) (o : Owner) (reason : String) :
    (Failure.fault (r.unsupported o reason)).Names o := by
  constructor
  · exact Fault.is_under (Fault.is_under (Fault.is_wrap (Fault.is_ofSentinel _) _) _) _
  · have hdetail : "owner path: " ++ o.path ≠ "" := by simp
    rw [unsupported, Fault.withHint, Fault.details_under _ rfl,
      Fault.details_withDetail _ hdetail, Fault.details_wrap]
    rfl

/-- Whether a pass gives a tree exactly when it is known and otherwise fails with a fault that names
the first unknown node. -/
def Pass.StopsAtUnknown (x : Pass) (m : Module) : Prop :=
  ((∃ m', (x.lower (some m)).outcome = .ok (some m')) ↔ m.IsKnown) ∧
    (¬ m.IsKnown → ∃ o e, m.firstUnknown? = some o ∧ (x.lower (some m)).outcome = .error e ∧
      e.Names o)

/-- The pass of a registry stops at an unknown node when the registry names the first one. -/
theorem Rules.Halts.stopsAtUnknown_iff {r : Rules} {w : Rewriting} {alien : Owner → Failure}
    (h : r.Halts w alien) {x : Pass} {m : Module}
    (hx : (x.lower (some m)).outcome = (some <$> r.lower (some m)).outcome) :
    x.StopsAtUnknown m ↔ ∀ o, m.firstUnknown? = some o → (r.failureAt alien o).Names o := by
  have hfailure := h.failure?_lower m
  cases hfirst : m.firstUnknown? with
  | none =>
    have hknown : m.IsKnown := Module.firstUnknown?_eq_none_iff.mp hfirst
    have hok : (x.lower (some m)).outcome = .ok (some (m.rewrite w none)) := by
      rw [hx]
      exact Run.outcome_map_of_ok (h.outcome_lower hknown) some
    refine iff_of_true ⟨iff_of_true ⟨_, hok⟩ hknown, fun hunknown ↦ absurd hknown hunknown⟩ nofun
  | some o =>
    have hunknown : ¬ m.IsKnown := by
      rw [← Module.firstUnknown?_eq_none_iff, hfirst]
      exact nofun
    have herror : (x.lower (some m)).outcome = .error (r.failureAt alien o) := by
      rw [hfirst] at hfailure
      rw [hx]
      exact Run.outcome_bind_of_error (Run.failure?_eq_some_iff.mp hfailure) _
    constructor
    · rintro ⟨-, hstops⟩ o' ho'
      obtain ⟨first, e, hsame, he, hnames⟩ := hstops hunknown
      obtain rfl : first = o := Option.some.inj (hsame.symm.trans hfirst)
      obtain rfl : first = o' := Option.some.inj ho'
      rwa [← Except.error.inj (he.symm.trans herror)]
    · intro hnames
      refine ⟨iff_of_false ?_ hunknown, fun _ ↦ ⟨o, _, hfirst, herror, hnames o rfl⟩⟩
      rintro ⟨m', hm'⟩
      exact nomatch herror.symm.trans hm'

theorem Rules.names_failureAt (r : Rules) {alien : Owner → Failure} {o : Owner}
    (halien : ∀ t, o.node = .type t → (alien o).Names o) : (r.failureAt alien o).Names o := by
  unfold failureAt
  split
  · exact r.names_unsupported o _
  · next t ht => exact halien t ht
  · exact r.names_unsupported o _

section Registries

variable {workers : Int} (hworkers : workers ≤ 1) (verbosity : Int)
include hworkers

/-- Without a rule for self types a type from outside is a fault. -/
theorem Rules.halts_empty (name : String) (f : String → String) :
    ({ Rules.empty name with rename := f, workers, verbosity } : Rules).Halts (.identifiers f)
      fun o ↦ .fault
        (({ Rules.empty name with rename := f, workers, verbosity } : Rules).unsupported o
          "no default traversal") where
  toCarriesOut := Stage.carriesOut_identifiers name f workers verbosity
  sequential := hworkers
  foreignType _ _ := rfl

theorem Escape.halts (p : Profile) :
    (Escape.rules p workers verbosity).Halts (.renaming p.escape)
      fun o ↦ .fault ((Escape.rules p workers verbosity).unsupported o "no default traversal") where
  toCarriesOut := Escape.carriesOut p workers verbosity
  sequential := hworkers
  foreignType _ _ := rfl

/-- The rule for self types breaks down on a type from outside. -/
theorem SelfType.halts (top : Name) :
    (SelfType.rules top workers verbosity).Halts (.selfTypes top) fun _ ↦ .crash where
  toCarriesOut := SelfType.carriesOut top workers verbosity _
  sequential := hworkers
  foreignType _ _ := rfl

end Registries

/-- Among the unknown nodes only types from outside are not named by the registry that resolves self
types. -/
theorem SelfType.names_failureAt_iff (r : Rules) {o : Owner} (ho : o.isUnknown = true) :
    (r.failureAt (fun _ ↦ .crash) o).Names o ↔ ∀ label, o.node ≠ .type (.foreign label) := by
  constructor
  · intro hnames label hnode
    rw [Rules.failureAt, hnode] at hnames
    exact hnames
  · intro hnode
    refine r.names_failureAt fun t ht ↦ ?_
    rw [Owner.isUnknown, ht] at ho
    cases t with
    | foreign label => exact absurd ht (hnode label)
    | _ => exact nomatch ho

/-- Unknown nodes end a pass that lowers one declaration after the other. Escaping and a registry
without rules give a tree exactly when there are none, and otherwise a fault that names the first of
them. Resolving self types does so unless the first of them is a type from outside, and then it
breaks down. -/
theorem Pass.stops_at_first_unknown (m : Module) (p : Profile) (name : String)
    (f : String → String) (top : Name) {workers : Int} (hworkers : workers ≤ 1)
    (verbosity : Int) :
    (Escape.pass p false workers verbosity).StopsAtUnknown m ∧
      ({ Rules.empty name with rename := f, workers, verbosity } : Rules).pass.StopsAtUnknown m ∧
      ((SelfType.pass top workers verbosity).StopsAtUnknown m ↔
        ∀ o label, m.firstUnknown? = some o → o.node ≠ .type (.foreign label)) ∧
      ∀ o label, m.firstUnknown? = some o → o.node = .type (.foreign label) →
        ((SelfType.pass top workers verbosity).lower (some m)).outcome = .error .crash := by
  refine ⟨?_, ?_, ?_, ?_⟩
  · have hpass : ((Escape.pass p false workers verbosity).lower (some m)).outcome =
        (some <$> (Escape.rules p workers verbosity).lower (some m)).outcome :=
      Run.outcome_bind_of_ok (a := ()) rfl _
    refine ((Escape.halts hworkers verbosity p).stopsAtUnknown_iff hpass).mpr fun o _ ↦ ?_
    exact Rules.names_failureAt _ fun _ _ ↦ Rules.names_unsupported _ o _
  · refine ((Rules.halts_empty hworkers verbosity name f).stopsAtUnknown_iff rfl).mpr fun o _ ↦ ?_
    exact Rules.names_failureAt _ fun _ _ ↦ Rules.names_unsupported _ o _
  · have hhalts := SelfType.halts hworkers verbosity top
    have hpass : (SelfType.pass top workers verbosity).StopsAtUnknown m ↔ _ :=
      hhalts.stopsAtUnknown_iff rfl
    rw [hpass]
    refine forall_congr' fun o ↦ ?_
    rw [forall_comm]
    refine forall_congr' fun hfirst ↦ ?_
    exact SelfType.names_failureAt_iff _ (List.find?_some hfirst)
  · intro o label hfirst hnode
    have hfailure := (SelfType.halts hworkers verbosity top).failure?_lower m
    rw [hfirst, Option.map_some, Rules.failureAt, hnode] at hfailure
    exact Run.outcome_bind_of_error (Run.failure?_eq_some_iff.mp hfailure) _

/-- A module with one declaration. -/
def dock (d : Decl) : Module := ⟨⟨some (.ident "dock"), none, "", [], []⟩, [d], []⟩

/-- A variable of a self type, and after it a module with one declaration. -/
def dockTree (d : Decl) : Module :=
  ⟨⟨some (.ident "bay"), none, "", [], []⟩,
    [.var ⟨.ident "home", some (.self false ⟨[]⟩), none, true, false, true, ⟨[]⟩⟩,
      .module (dock d)],
    []⟩

theorem firstUnknown?_dockTree :
    (dockTree (.foreign "buoy")).firstUnknown? =
      some [.foreign "buoy", .module (dock (.foreign "buoy")),
        .module (dockTree (.foreign "buoy"))] := by
  simp only [dockTree, dock, Module.firstUnknown?, Module.places, Node.places_eq, Node.children,
    Ty.slot, Ty.children, Decl.node, List.map_cons, List.map_nil, List.append_nil,
    List.flatMap_cons, List.flatMap_nil, Option.map_some, Option.toList_some]
  rfl

/-- The tree holds one declaration from outside, which resolving self types names as well. -/
theorem Pass.stops_at_first_unknown_dockTree :
    (1 : Int) ≤ 1 ∧ ¬ (dockTree (.foreign "buoy")).IsKnown ∧
      ∃ f, ((SelfType.pass (.ident "Any") 1 0).lower (some (dockTree (.foreign "buoy")))).outcome =
          .error (.fault f) ∧ f.is .unsupportedNode ∧
        f.details = ["owner path: module bay > module dock > variable"] := by
  have hunknown : ¬ (dockTree (.foreign "buoy")).IsKnown := by decide
  have hworkers : (1 : Int) ≤ 1 := by decide
  obtain ⟨-, -, hself, -⟩ := stops_at_first_unknown (dockTree (.foreign "buoy")) .default "copy" id
    (.ident "Any") hworkers 0
  have hstops : (SelfType.pass (.ident "Any") 1 0).StopsAtUnknown (dockTree (.foreign "buoy")) := by
    refine hself.mpr fun o label hfirst ↦ ?_
    obtain rfl := Option.some.inj (hfirst.symm.trans firstUnknown?_dockTree)
    exact nofun
  obtain ⟨o, e, hfirst, houtcome, hnames⟩ := hstops.2 hunknown
  obtain rfl := Option.some.inj (hfirst.symm.trans firstUnknown?_dockTree)
  refine ⟨hworkers, hunknown, ?_⟩
  cases e with
  | fault f => exact ⟨f, houtcome, hnames.1, hnames.2⟩
  | crash => exact hnames.elim

/-- A variable whose type is a union with a type from outside. -/
def crew : Variable :=
  ⟨.ident "crew", some (.union [.self false ⟨[]⟩, .foreign "crew"] false ⟨[]⟩), none, true, false,
    true, ⟨[]⟩⟩

/-- On a type from outside the pass for self types breaks down instead of naming the node. -/
theorem SelfType.breaks_down_dockTree :
    ¬ (SelfType.pass (.ident "Any") 1 0).StopsAtUnknown (dockTree (.var crew)) ∧
      ((SelfType.pass (.ident "Any") 1 0).lower (some (dockTree (.var crew)))).outcome =
        .error .crash := by
  have hcrash : ((SelfType.pass (.ident "Any") 1 0).lower
      (some (dockTree (.var crew)))).outcome = .error .crash := rfl
  refine ⟨?_, hcrash⟩
  rintro ⟨-, hstops⟩
  obtain ⟨o, e, -, he, hnames⟩ := hstops (by decide)
  obtain rfl : e = .crash := Except.error.inj (he.symm.trans hcrash)
  exact hnames

end DeclTree
