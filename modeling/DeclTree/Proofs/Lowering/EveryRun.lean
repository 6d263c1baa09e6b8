import DeclTree.Proofs.Lowering.Completion
import DeclTree.Proofs.Tree.Induction

/-!
# Properties of every run of a traversal

Ways of saying something about all runs that a traversal is made of. `Run.Yields` is a condition on
the result of a run that succeeds. `Rules.Follows` is for conditions on whole runs, with their
events and failures, and on the nodes that they are runs over: a condition that passes from the
parts of a traversal to the whole holds of the traversal of every tree, `Rules.Follows.lowerModule`.
`Rules.Inherits` is for conditions that are not about nodes.

They are told what fits the slot of a node: a node that may replace it, `Node.Replaces`.
-/

set_option autoImplicit false
set_option relaxedAutoImplicit false

namespace DeclTree

/-! ### What a successful run yields -/

namespace Run

variable {α β γ δ : Type} {P : α → Prop} {Q : β → Prop}

theorem events_bind_of_ok {x : Run α} {a : α} (hx : x.outcome = .ok a) (f : α → Run β) :
    (x >>= f).events = x.events ++ (f a).events := by
  change (Run.bind x f).events = x.events ++ (f a).events
  rw [Run.bind, hx]

theorem events_bind_of_error {x : Run α} {e : Failure} (hx : x.outcome = .error e)
    (f : α → Run β) : (x >>= f).events = x.events := by
  change (Run.bind x f).events = x.events
  rw [Run.bind, hx]

theorem events_bind_of_silent (x : Run α) {f : α → Run β} (hf : ∀ a, (f a).events = []) :
    (x >>= f).events = x.events := by
  cases hx : x.outcome with
  | error e => exact events_bind_of_error hx f
  | ok a => rw [events_bind_of_ok hx, hf, List.append_nil]

/-- Whatever a run gives where it succeeds satisfies a condition. -/
def Yields (x : Run α) (P : α → Prop) : Prop := ∀ a, x.outcome = .ok a → P a

theorem yields_pure {a : α} (ha : P a) : Yields (Pure.pure a : Run α) P := by
  rintro _ ⟨⟩
  exact ha

theorem yields_throw (f : Fault) : Yields (throw f : Run α) P := nofun

theorem yields_bind {x : Run α} {f : α → Run β} (hx : x.Yields P) (hf : ∀ a, P a → (f a).Yields Q) :
    Yields (x >>= f) Q := by
  intro b hb
  cases houtcome : x.outcome with
  | error e =>
    rw [outcome_bind_of_error houtcome] at hb
    exact nomatch hb
  | ok a =>
    rw [outcome_bind_of_ok houtcome] at hb
    exact hf a (hx a houtcome) b hb

theorem yields_true (x : Run α) : x.Yields fun _ ↦ True := fun _ _ ↦ trivial

/-- Runs one after the other give a list; what each of them fixes of its result, they fix of the
results in order. -/
theorem yields_sequence_map {f : γ → Run α} {cs : List γ} {g : α → δ} {h : γ → δ}
    (hf : ∀ c ∈ cs, (f c).Yields fun a ↦ g a = h c) :
    (sequence (cs.map f)).Yields fun as ↦ as.map g = cs.map h := by
  induction cs with
  | nil => exact yields_pure rfl
  | cons c cs ih =>
    obtain ⟨hc, hcs⟩ := List.forall_mem_cons.mp hf
    refine yields_bind hc fun a ha ↦ ?_
    refine yields_bind (ih hcs) fun as has ↦ ?_
    exact yields_pure (by rw [List.map_cons, ha, has, List.map_cons])

theorem yields_length_sequence_map (f : γ → Run α) (cs : List γ) :
    (sequence (cs.map f)).Yields fun as ↦ as.length = cs.length := by
  intro as has
  have hunits := yields_sequence_map (g := fun _ ↦ ()) (h := fun _ ↦ ()) (fun c _ _ _ ↦ rfl) as has
  simpa using congrArg List.length hunits

end Run

/-- Fitting a node into a slot is not reported. -/
theorem Rules.events_take {α : Type} (r : Rules) (o : Owner) (fits : Node → Option α) (got : Node) :
    (r.take o fits got).events = [] := by
  unfold take
  split
  · rfl
  · rfl

/-! ### What fits a slot -/

/-- Whether a node may stand in the slot of another: any type in that of a type, and elsewhere only
a node of the same kind. -/
def Node.Replaces (got old : Node) : Prop :=
  match old with
  | .type _ => got.type?.isSome
  | _ => got.kind? = old.kind?

/-- A slot takes only what may replace the node that stands in it. -/
def Node.Guards {α : Type} (n : Node) (fits : Node → Option α) : Prop :=
  ∀ got a, fits got = some a → got.Replaces n

namespace Node

theorem guards_type (t : Ty) : (Node.type t).Guards Node.type? :=
  fun _ _ hfits ↦ Option.isSome_of_mem hfits

theorem guards_param (p : Param) : (Node.param p).Guards Node.param? := by
  intro got a hfits
  cases got with
  | param q => rfl
  | _ => exact nomatch hfits

theorem guards_typeParam (p : TypeParam) : (Node.typeParam p).Guards Node.typeParam? := by
  intro got a hfits
  cases got with
  | typeParam q => rfl
  | _ => exact nomatch hfits

theorem guards_heritage (h : Heritage) : (Node.heritage h).Guards Node.heritage? := by
  intro got a hfits
  cases got with
  | heritage g => rfl
  | _ => exact nomatch hfits

theorem guards_module (m : Module) : (Node.module m).Guards Node.module? := by
  intro got a hfits
  cases got with
  | module k => rfl
  | _ => exact nomatch hfits

theorem kind?_of_replacesDecl? {old got : Node} {d : Decl}
    (hfits : old.replacesDecl? got = some d) :
    got.kind? = old.kind? ∧ got.decl? = some d := by
  unfold replacesDecl? at hfits
  split at hfits
  · next hkind => exact ⟨hkind, hfits⟩
  · exact nomatch hfits

theorem kind?_of_replacesMember? {old got : Node} {m : Member}
    (hfits : old.replacesMember? got = some m) :
    got.kind? = old.kind? ∧ got.member? = some m := by
  unfold replacesMember? at hfits
  split at hfits
  · next hkind => exact ⟨hkind, hfits⟩
  · exact nomatch hfits

theorem guards_decl (d : Decl) : d.node.Guards d.node.replacesDecl? := by
  intro got a hfits
  cases d with
  | _ => exact (kind?_of_replacesDecl? hfits).1

theorem guards_member (m : Member) : m.node.Guards m.node.replacesMember? := by
  intro got a hfits
  cases m with
  | _ => exact (kind?_of_replacesMember? hfits).1

end Node

/-! ### Conditions on whole runs -/

/-- A condition on runs that holds of those that only give a value and passes through binds passes
from runs to their sequence. -/
theorem Run.sequence_of_parts {P : {α : Type} → Run α → Prop}
    (hpure : ∀ {α : Type} (a : α), P (Pure.pure a : Run α))
    (hbind : ∀ {α β : Type} {x : Run α} {f : α → Run β}, P x → (∀ a, P (f a)) → P (x >>= f))
    {α : Type} {runs : List (Run α)} (hruns : ∀ x ∈ runs, P x) : P (sequence runs) := by
  have hmapped := sequence_map_of_parts (P := fun x (_ : List Unit) ↦ P x) (f := id)
    (g := fun _ ↦ ()) hpure hbind hruns
  rwa [List.map_id] at hmapped

/-- A condition on runs over nodes enclosed by an owner chain that passes from the parts of a
traversal to the whole. At a node, the part is a run over its children. -/
structure Rules.Follows (r : Rules) (P : {α : Type} → Run α → List Node → Owner → Prop) :
    Prop where
  pure : ∀ {α : Type} (a : α) (o : Owner), P (pure a : Run α) [] o
  bind : ∀ {α β : Type} {x : Run α} {f : α → Run β} {ns ns' : List Node} {o : Owner}, P x ns o →
    (∀ a, P (f a) ns' o) → P (x >>= f) (ns ++ ns') o
  visit : ∀ {α : Type} {n : Node} {fits : Node → Option α}, n.Guards fits →
    ∀ {o : Owner} {below : Owner → Run Node}, P (below (n :: o)) n.children (n :: o) →
      P (r.visit n o fits below) [n] o
  gather : ∀ {α γ : Type} (blank : α) {f : γ → Run α} {node : γ → Node} {cs : List γ} {o : Owner},
    (∀ c ∈ cs, P (f c) [node c] o) → P (r.gather blank o (cs.map f)) (cs.map node) o
  unsupported : ∀ {α : Type} (o : Owner) (reason : String),
    P (Run.throw (r.unsupported o reason) : Run α) [] o

namespace Rules.Follows

variable {r : Rules} {P : {α : Type} → Run α → List Node → Owner → Prop}

section Lists

variable (h : r.Follows P) {o : Owner}
include h

theorem bind_pure {α β : Type} {x : Run α} {ns : List Node} (hx : P x ns o) (g : α → β) :
    P (x >>= fun a ↦ Pure.pure (g a)) ns o := by
  have hbind := h.bind hx fun a ↦ h.pure (g a) o
  rwa [List.append_nil] at hbind

theorem sequence_map {α γ : Type} {f : γ → Run α} {node : γ → Node} {cs : List γ}
    (hf : ∀ c ∈ cs, P (f c) [node c] o) : P (Run.sequence (cs.map f)) (cs.map node) o :=
  Run.sequence_map_of_parts (P := fun x ns ↦ P x ns o) (fun a ↦ h.pure a o) h.bind hf

theorem types {ts : List Ty} (hts : ∀ t ∈ ts, ∀ o, P (t.descend r o) t.children o) :
    P (Ty.lowerAll r o ts) (ts.map .type) o := by
  rw [Ty.lowerAll_eq_sequence]
  exact h.sequence_map fun t ht ↦ h.visit (Node.guards_type t) (hts t ht _)

theorem slot {slot : Option Ty} (hslot : ∀ t ∈ slot, ∀ o, P (t.descend r o) t.children o) :
    P (Ty.lowerSlot r o slot) (Ty.slot slot) o := by
  cases slot with
  | none => exact h.pure none o
  | some t => exact h.bind_pure (h.visit (Node.guards_type t) (hslot t rfl _)) some

theorem params {ps : List Param}
    (hps : ∀ p ∈ ps, ∀ o, P (p.descend r o) (Node.param p).children o) :
    P (Param.lowerAll r o ps) (ps.map .param) o := by
  rw [Param.lowerAll_eq_sequence]
  exact h.sequence_map fun p hp ↦ h.visit (Node.guards_param p) (hps p hp _)

theorem typeParams {ps : List TypeParam}
    (hps : ∀ p ∈ ps, ∀ o, P (p.descend r o) (Node.typeParam p).children o) :
    P (TypeParam.lowerAll r o ps) (ps.map .typeParam) o := by
  rw [TypeParam.lowerAll_eq_sequence]
  exact h.sequence_map fun p hp ↦ h.visit (Node.guards_typeParam p) (hps p hp _)

theorem members {ms : List Member} (hms : ∀ m ∈ ms, ∀ o, P (m.descend r o) m.node.children o) :
    P (Member.lowerAll r o ms) (ms.map Member.node) o := by
  rw [Member.lowerAll_eq_sequence]
  exact h.sequence_map fun m hm ↦ h.visit (Node.guards_member m) (hms m hm _)

end Lists

/-! ### The storeys of the tree -/

theorem forTypes (h : r.Follows P) :
    TypeStorey (fun t ↦ ∀ o, P (t.descend r o) t.children o)
      (fun p ↦ ∀ o, P (p.descend r o) (Node.param p).children o)
      (fun p ↦ ∀ o, P (p.descend r o) (Node.typeParam p).children o) where
  named _ _ _ _ _ hargs _ := h.bind_pure (h.types hargs) _
  function _ _ _ _ hparams hresult _ :=
    h.bind (h.params hparams) fun _ ↦ h.bind_pure (h.slot hresult) _
  union _ _ _ halternatives _ := h.bind_pure (h.types halternatives) _
  self _ _ o := h.pure _ o
  generated _ _ _ _ _ htypeParams _ := h.bind_pure (h.typeParams htypeParams) _
  foreign _ o := h.unsupported o _
  param _ _ _ _ htype _ := h.bind_pure (h.slot htype) _
  typeParam _ _ _ hconstraints hdefault _ :=
    h.bind (h.types hconstraints) fun _ ↦ h.bind_pure (h.slot hdefault) _

section Signatures

variable (h : r.Follows P) (o : Owner)
include h

theorem allTypes (ts : List Ty) : P (Ty.lowerAll r o ts) (ts.map .type) o :=
  h.types fun t _ ↦ h.forTypes.forType t

theorem allSlots (slot : Option Ty) : P (Ty.lowerSlot r o slot) (Ty.slot slot) o :=
  h.slot fun t _ ↦ h.forTypes.forType t

theorem allParams (ps : List Param) : P (Param.lowerAll r o ps) (ps.map .param) o :=
  h.params fun p _ ↦ h.forTypes.forParam p

theorem allTypeParams (ps : List TypeParam) : P (TypeParam.lowerAll r o ps) (ps.map .typeParam) o :=
  h.typeParams fun p _ ↦ h.forTypes.forTypeParam p

theorem allParents (hs : List Heritage) : P (Heritage.lowerAll r o hs) (hs.map .heritage) o := by
  rw [Heritage.lowerAll_eq_sequence]
  refine h.sequence_map fun x _ ↦ h.visit (Node.guards_heritage x) ?_
  exact h.bind_pure (h.allTypes _ x.args) _

/-- Functions and methods have the same three parts. -/
theorem signature (typeParams : List TypeParam) (params : List Param) (result : Option Ty)
    (node : List TypeParam → List Param → Option Ty → Node) :
    P (do
        let typeParams ← TypeParam.lowerAll r o typeParams
        let params ← Param.lowerAll r o params
        let result ← Ty.lowerSlot r o result
        return node typeParams params result)
      (typeParams.map .typeParam ++ params.map .param ++ Ty.slot result) o := by
  rw [List.append_assoc]
  refine h.bind (h.allTypeParams o typeParams) fun _ ↦ ?_
  refine h.bind (h.allParams o params) fun _ ↦ ?_
  exact h.bind_pure (h.allSlots o result) _

theorem head (head : ClassHead) :
    P (head.lower r o) (head.typeParams.map .typeParam ++ head.parents.map .heritage) o :=
  h.bind (h.allTypeParams o _) fun _ ↦ h.bind_pure (h.allParents o _) _

end Signatures

theorem forMembers (h : r.Follows P) :
    MemberStorey fun m ↦ ∀ o, P (m.descend r o) m.node.children o where
  method _ o := h.signature o _ _ _ _
  property _ o := h.bind (h.allTypeParams o _) fun _ ↦ h.bind_pure (h.allSlots o _) _
  constructor _ o := h.bind (h.allTypeParams o _) fun _ ↦ h.bind_pure (h.allParams o _) _
  function _ o := h.signature o _ _ _ _
  classLike head _ hmembers o :=
    h.bind (h.head o head) fun _ ↦ h.bind_pure (h.members hmembers) _

theorem forModules (h : r.Follows P) :
    ModuleStorey (fun d ↦ ∀ o, P (d.descend r o) d.node.children o)
      (fun m ↦ ∀ o, P (m.descend r o) (Node.module m).children o) where
  module _ hm := hm
  classLike head members := h.forMembers.forMember (.classLike head members)
  function _ o := h.signature o _ _ _ _
  var _ o := h.bind_pure (h.allSlots o _) _
  typeAlias _ o := h.bind (h.allTypeParams o _) fun _ ↦ h.bind_pure (h.allSlots o _) _
  enum _ o := h.pure _ o
  foreign _ o := h.unsupported o _
  missing o := h.unsupported o _
  node head declarations submodules hdeclarations hsubmodules o := by
    have hdecls : P (r.gather .missing o (Decl.lowerEach r o declarations))
        (declarations.map Decl.node) o := by
      rw [Decl.lowerEach_eq_map]
      exact h.gather _ fun d hd ↦ h.visit (Node.guards_decl d) (hdeclarations d hd _)
    have hmods : P (Module.lowerAll r o submodules) (submodules.map .module) o := by
      rw [Module.lowerAll_eq_sequence]
      exact h.sequence_map fun m hm ↦ h.visit (Node.guards_module m) (hsubmodules m hm _)
    exact h.bind hdecls fun _ ↦ h.bind_pure hmods _

/-- What passes from the parts of a traversal to the whole holds of lowering every module. -/
theorem lowerModule (h : r.Follows P) (m : Module) : P (r.lowerModule m) [.module m] [] :=
  h.visit (Node.guards_module m) (h.forModules.forModule m _)

end Rules.Follows

/-- A condition on runs, whatever nodes they are over, that passes from the parts of a traversal to
the whole. -/
structure Rules.Inherits (r : Rules) (P : {α : Type} → Run α → Prop) : Prop where
  pure : ∀ {α : Type} (a : α), P (pure a : Run α)
  bind : ∀ {α β : Type} {x : Run α} {f : α → Run β}, P x → (∀ a, P (f a)) → P (x >>= f)
  visit : ∀ {α : Type} {n : Node} {fits : Node → Option α}, n.Guards fits →
    ∀ {o : Owner} {below : Owner → Run Node}, P (below (n :: o)) → P (r.visit n o fits below)
  gather : ∀ {α : Type} (blank : α) (o : Owner) {runs : List (Run α)}, (∀ x ∈ runs, P x) →
    P (r.gather blank o runs)
  unsupported : ∀ {α : Type} (o : Owner) (reason : String),
    P (Run.throw (r.unsupported o reason) : Run α)

namespace Rules.Inherits

variable {r : Rules} {P : {α : Type} → Run α → Prop}

theorem follows (h : r.Inherits P) : r.Follows fun x _ _ ↦ P x where
  pure a _ := h.pure a
  bind := h.bind
  visit := h.visit
  gather {_ _} blank {_ _ _ o} hf := h.gather blank o (List.forall_mem_map.mpr hf)
  unsupported := h.unsupported

theorem lowerModule (h : r.Inherits P) (m : Module) : P (r.lowerModule m) :=
  h.follows.lowerModule m

end Rules.Inherits

end DeclTree
