import DeclTree.Proofs.Fault
import DeclTree.Proofs.Lowering.Composition
import DeclTree.Proofs.Lowering.EveryRun

/-!
# Registries of arbitrary rules

A registry is plain when it has no fallback, and has rules for nodes other than modules and
class-like declarations only. These rules may do what they like: fail, or go on below their node as
often as they please, or return any node, or none.

Whatever they do, a plain registry keeps the skeleton of a tree: its modules and class-like
declarations, with all that is their own, and how many nodes of which kind they hold. When in
addition its rules do not go on below their nodes and it lowers one declaration after the other,
then the first rule that returns what does not fit the slot of its node ends the run. A rule that
goes on there could make up for that.
-/

set_option autoImplicit false
set_option relaxedAutoImplicit false

namespace DeclTree

/-! ### Skeletons -/

/-- A class-like declaration without its members, with its type parameters and parents counted. -/
structure ClassOutline where
  form : ClassForm
  typeParams : Nat
  name : Name
  parents : Nat
  isExported : Bool
  uid : Uid
  tags : Provenance

/-- What is left of a tree when only its modules and class-like declarations are kept: of every
other declaration and member there is only the kind. -/
inductive Skeleton where
  | module (head : ModuleHead) (declarations submodules : List Skeleton)
  | classLike (outline : ClassOutline) (members : List Skeleton)
  | single (kind : Option Kind)

/-- The outline of a class-like declaration, its name changed by a function. The form is kept
without its type parameters. -/
def ClassHead.outline (f : String → String) (head : ClassHead) : ClassOutline where
  form := head.form.withTypeParams []
  typeParams := head.typeParams.length
  name := head.name.map f
  parents := head.parents.length
  isExported := head.isExported
  uid := head.uid
  tags := head.tags

mutual

def Member.skeleton (f : String → String) : Member → Skeleton
  | .classLike head members => .classLike (head.outline f) (Member.skeletons f members)
  | m => .single m.node.kind?

def Member.skeletons (f : String → String) : List Member → List Skeleton
  | [] => []
  | m :: ms => Member.skeleton f m :: Member.skeletons f ms

end

mutual

def Decl.skeleton (f : String → String) : Decl → Skeleton
  | .module m => Module.skeleton f m
  | .classLike head members => Member.skeleton f (.classLike head members)
  | d => .single d.node.kind?

def Decl.skeletons (f : String → String) : List Decl → List Skeleton
  | [] => []
  | d :: ds => Decl.skeleton f d :: Decl.skeletons f ds

/-- The skeleton of a module, the names of its modules and class-like declarations changed by a
function. -/
def Module.skeleton (f : String → String) : Module → Skeleton
  | ⟨head, declarations, submodules⟩ =>
    .module (head.rename f) (Decl.skeletons f declarations) (Module.skeletons f submodules)

def Module.skeletons (f : String → String) : List Module → List Skeleton
  | [] => []
  | m :: ms => Module.skeleton f m :: Module.skeletons f ms

end

theorem Member.skeletons_eq_map (f : String → String) (ms : List Member) :
    Member.skeletons f ms = ms.map (Member.skeleton f) := by
  induction ms with
  | nil => rfl
  | cons m ms ih => rw [Member.skeletons, ih, List.map_cons]

theorem Decl.skeletons_eq_map (f : String → String) (ds : List Decl) :
    Decl.skeletons f ds = ds.map (Decl.skeleton f) := by
  induction ds with
  | nil => rfl
  | cons d ds ih => rw [Decl.skeletons, ih, List.map_cons]

theorem Module.skeletons_eq_map (f : String → String) (ms : List Module) :
    Module.skeletons f ms = ms.map (Module.skeleton f) := by
  induction ms with
  | nil => rfl
  | cons m ms ih => rw [Module.skeletons, ih, List.map_cons]

/-- The kinds of the nodes that hold declarations or members. -/
def Kind.containers : List Kind := [.moduleDecl, .classDecl, .interfaceDecl, .objectDecl]

theorem ClassForm.kind_mem_containers (form : ClassForm) : form.kind ∈ Kind.containers := by
  cases form with
  | _ => simp [ClassForm.kind, Kind.containers]

/-- A declaration that holds no others has only its kind in a skeleton. -/
theorem Decl.skeleton_of_kind {d : Decl} (f : String → String)
    (hd : ∀ kind ∈ Kind.containers, d.node.kind? ≠ some kind) :
    d.skeleton f = .single d.node.kind? := by
  cases d with
  | module m => exact absurd rfl (hd .moduleDecl (by decide))
  | classLike head members => exact absurd rfl (hd head.form.kind head.form.kind_mem_containers)
  | _ => rfl

theorem Member.skeleton_of_kind {m : Member} (f : String → String)
    (hm : ∀ kind ∈ Kind.containers, m.node.kind? ≠ some kind) :
    m.skeleton f = .single m.node.kind? := by
  cases m with
  | classLike head members => exact absurd rfl (hm head.form.kind head.form.kind_mem_containers)
  | _ => rfl

/-! ### Plain registries -/

/-- A registry without rules for containers. -/
structure Rules.Plain (r : Rules) : Prop where
  containers : ∀ kind ∈ Kind.containers, r.rule? kind = none
  fallback : r.fallback = none

/-- The rules of a registry look at the owner chain alone: none of them goes on below its node, so
none dispatches another rule. -/
def Rules.OfOwner (r : Rules) : Prop :=
  ∀ kind rule, r.rule? kind = some rule →
    ∀ o, ∃ x, rule o = .ends x ∧ ∀ e ∈ x.events, e.isDispatch = false

namespace Rules

variable {r : Rules}

/-- What a visit gives fits the slot of the node. -/
theorem yields_visit {α : Type} (n : Node) (o : Owner) (fits : Node → Option α)
    (below : Owner → Run Node) :
    (r.visit n o fits below).Yields fun a ↦ ∃ got, fits got = some a := by
  unfold visit
  split
  · exact Run.yields_throw _
  · refine Run.yields_bind (Run.yields_true _) fun _ _ ↦ ?_
    refine Run.yields_bind (Run.yields_true _) fun got _ ↦ ?_
    unfold take
    split
    · next a hfits => exact Run.yields_pure ⟨got, hfits⟩
    · exact Run.yields_throw _

/-- Where no rule stands in the way, a visit takes what going on below the node gives. -/
theorem yields_visit_of_no_rule {α : Type} {n : Node} {kind : Kind} {o : Owner}
    {fits : Node → Option α} {below : Owner → Run Node} {P : α → Prop}
    (hkind : n.kind? = some kind) (hrule : r.rule? kind = none) (hfallback : r.fallback = none)
    (hbelow : (below (n :: o)).Yields fun got ↦ ∀ a, fits got = some a → P a) :
    (r.visit n o fits below).Yields P := by
  have happly : r.apply kind (n :: o) (fun _ ↦ below (n :: o)) = below (n :: o) := by
    simp only [apply, hrule, hfallback]
  simp only [visit, hkind, happly]
  refine Run.yields_bind (Run.yields_true _) fun _ _ ↦ ?_
  refine Run.yields_bind hbelow fun got hgot ↦ ?_
  unfold take
  split
  · next a hfits => exact Run.yields_pure (hgot a hfits)
  · exact Run.yields_throw _

namespace Plain

/-! ### The skeleton is kept -/

/-- A class-like declaration keeps what is its own, and the number of its type parameters and
parents. -/
theorem yields_head (head : ClassHead) (o : Owner) :
    (head.lower r o).Yields fun head' ↦ head'.outline id = head.outline r.rename := by
  have htypeParams : (TypeParam.lowerAll r o head.typeParams).Yields
      fun ps ↦ ps.length = head.typeParams.length := by
    rw [TypeParam.lowerAll_eq_sequence]
    exact Run.yields_length_sequence_map _ _
  have hparents : (Heritage.lowerAll r o head.parents).Yields
      fun hs ↦ hs.length = head.parents.length := by
    rw [Heritage.lowerAll_eq_sequence]
    exact Run.yields_length_sequence_map _ _
  refine Run.yields_bind htypeParams fun ps hps ↦ ?_
  refine Run.yields_bind hparents fun hs hhs ↦ ?_
  refine Run.yields_pure ?_
  obtain ⟨form, name, parents, isExported, uid, tags⟩ := head
  cases form with
  | object => simp only [ClassHead.outline, ClassHead.typeParams, ClassForm.withTypeParams,
      ClassForm.typeParams, hhs, Name.map_map, Function.id_comp]
  | _ => simp only [ClassHead.outline, ClassHead.typeParams, ClassForm.withTypeParams,
      ClassForm.typeParams] at hps ⊢; rw [hps, hhs, Name.map_map, Function.id_comp]

/-- What takes the place of a member is of its kind, which is all that a skeleton has of a member
that holds no others. -/
theorem yields_member_of_kind {m : Member}
    (hm : ∀ kind ∈ Kind.containers, m.node.kind? ≠ some kind) (o : Owner) :
    (m.lower r o).Yields fun m' ↦ m'.skeleton id = m.skeleton r.rename := by
  intro m' hm'
  obtain ⟨got, hgot⟩ := yields_visit _ _ _ _ m' hm'
  obtain ⟨hkind, hmember⟩ := Node.kind?_of_replacesMember? hgot
  rw [← Node.node_of_member? hmember] at hkind
  rw [Member.skeleton_of_kind _ hm, Member.skeleton_of_kind _ (hkind ▸ hm), hkind]

theorem yields_decl_of_kind {d : Decl}
    (hd : ∀ kind ∈ Kind.containers, d.node.kind? ≠ some kind) (o : Owner) :
    (d.lower r o).Yields fun d' ↦ d'.skeleton id = d.skeleton r.rename := by
  intro d' hd'
  obtain ⟨got, hgot⟩ := yields_visit _ _ _ _ d' hd'
  obtain ⟨hkind, hdecl⟩ := Node.kind?_of_replacesDecl? hgot
  rw [← Node.node_of_decl? hdecl] at hkind
  rw [Decl.skeleton_of_kind _ hd, Decl.skeleton_of_kind _ (hkind ▸ hd), hkind]

/-- Going on below a class-like declaration gives one with the same skeleton. -/
theorem yields_classLike {head : ClassHead} {members : List Member} (o : Owner)
    (hmembers : ∀ m ∈ members, ∀ o : Owner,
      (m.lower r o).Yields fun m' ↦ m'.skeleton id = m.skeleton r.rename) :
    ((Member.classLike head members).descend r o).Yields fun got ↦
      ∃ head' members', got = .classLike head' members' ∧
        (Member.classLike head' members').skeleton id =
          (Member.classLike head members).skeleton r.rename := by
  have hlist : (Member.lowerAll r o members).Yields fun members' ↦
      members'.map (Member.skeleton id) = members.map (Member.skeleton r.rename) := by
    rw [Member.lowerAll_eq_sequence]
    exact Run.yields_sequence_map fun m hm ↦ hmembers m hm o
  refine Run.yields_bind (yields_head head o) fun head' hhead ↦ ?_
  refine Run.yields_bind hlist fun members' hmembers' ↦ ?_
  refine Run.yields_pure ⟨head', members', rfl, ?_⟩
  rw [Member.skeleton, Member.skeleton, Member.skeletons_eq_map, Member.skeletons_eq_map, hhead,
    hmembers']

theorem yields_members (h : r.Plain) :
    MemberStorey fun m ↦ ∀ o : Owner,
      (m.lower r o).Yields fun m' ↦ m'.skeleton id = m.skeleton r.rename where
  method m := yields_member_of_kind (by simp [Member.node, Node.kind?, Kind.containers])
  property p := yields_member_of_kind (by simp [Member.node, Node.kind?, Kind.containers])
  constructor c := yields_member_of_kind (by simp [Member.node, Node.kind?, Kind.containers])
  function f := yields_member_of_kind (by simp [Member.node, Node.kind?, Kind.containers])
  classLike head members hmembers o := by
    refine yields_visit_of_no_rule rfl (h.containers _ head.form.kind_mem_containers) h.fallback ?_
    rintro got hgot m' hm'
    obtain ⟨head', members', rfl, hskeleton⟩ := yields_classLike _ hmembers got hgot
    obtain ⟨-, hmember⟩ := Node.kind?_of_replacesMember? hm'
    obtain rfl := Option.some.inj hmember
    exact hskeleton

theorem yields_modules (h : r.Plain) :
    ModuleStorey
      (fun d ↦ ∀ o : Owner, (d.lower r o).Yields fun d' ↦ d'.skeleton id = d.skeleton r.rename)
      (fun m ↦ ∀ o : Owner, (m.descend r o).Yields fun got ↦
        ∃ m', got = .module m' ∧ m'.skeleton id = m.skeleton r.rename) where
  module m hm o := by
    refine yields_visit_of_no_rule rfl (h.containers .moduleDecl (by decide)) h.fallback ?_
    rintro got hgot d' hd'
    obtain ⟨m', rfl, hskeleton⟩ := hm _ got hgot
    obtain ⟨-, hdecl⟩ := Node.kind?_of_replacesDecl? hd'
    obtain rfl := Option.some.inj hdecl
    exact hskeleton
  classLike head members o := by
    refine yields_visit_of_no_rule rfl (h.containers _ head.form.kind_mem_containers) h.fallback ?_
    rintro got hgot d' hd'
    obtain ⟨head', members', rfl, hskeleton⟩ :=
      yields_classLike _ (fun m _ ↦ h.yields_members.forMember m) got hgot
    obtain ⟨-, hdecl⟩ := Node.kind?_of_replacesDecl? hd'
    obtain rfl := Option.some.inj hdecl
    exact hskeleton
  function f := yields_decl_of_kind (by simp [Decl.node, Node.kind?, Kind.containers])
  var v := yields_decl_of_kind (by simp [Decl.node, Node.kind?, Kind.containers])
  typeAlias a := yields_decl_of_kind (by simp [Decl.node, Node.kind?, Kind.containers])
  enum e := yields_decl_of_kind (by simp [Decl.node, Node.kind?, Kind.containers])
  foreign label := yields_decl_of_kind (by simp [Decl.node, Node.kind?, Kind.containers])
  missing := yields_decl_of_kind (by simp [Decl.node, Node.kind?])
  node head declarations submodules hdeclarations hsubmodules o := by
    have hdecls : (r.gather .missing o (Decl.lowerEach r o declarations)).Yields fun ds ↦
        ds.map (Decl.skeleton id) = declarations.map (Decl.skeleton r.rename) := by
      rw [Decl.lowerEach_eq_map]
      intro ds hds
      exact Run.yields_sequence_map (fun d hd ↦ hdeclarations d hd o) ds
        (outcome_gather_eq_ok_iff.mp hds)
    have hmods : (Module.lowerAll r o submodules).Yields fun ms ↦
        ms.map (Module.skeleton id) = submodules.map (Module.skeleton r.rename) := by
      rw [Module.lowerAll_eq_sequence]
      refine Run.yields_sequence_map fun m hm ↦ ?_
      refine yields_visit_of_no_rule rfl (h.containers .moduleDecl (by decide)) h.fallback ?_
      rintro got hgot m' hm'
      obtain ⟨k, rfl, hskeleton⟩ := hsubmodules m hm _ got hgot
      obtain rfl := Option.some.inj hm'
      exact hskeleton
    refine Run.yields_bind hdecls fun ds hds ↦ ?_
    refine Run.yields_bind hmods fun ms hms ↦ ?_
    refine Run.yields_pure ⟨_, rfl, ?_⟩
    simp only [Module.skeleton, Decl.skeletons_eq_map, Module.skeletons_eq_map, hds, hms,
      ModuleHead.rename_rename, Function.id_comp]

theorem skeleton_lowered (h : r.Plain) {m m' : Module}
    (hm : (r.lower (some m)).outcome = .ok m') : m'.skeleton id = m.skeleton r.rename := by
  have hlowers : (r.lowerModule m).Yields fun m' ↦ m'.skeleton id = m.skeleton r.rename := by
    refine yields_visit_of_no_rule rfl (h.containers .moduleDecl (by decide)) h.fallback ?_
    rintro got hgot m' hm'
    obtain ⟨k, rfl, hskeleton⟩ := h.yields_modules.forModule m _ got hgot
    obtain rfl := Option.some.inj hm'
    exact hskeleton
  rw [lower, Run.outcome_traced] at hm
  exact hlowers m' hm

end Plain

/-! ### What does not fit ends the run -/

/-- There is a rule for the node of an owner chain, and it gives a node there. -/
def Returns (r : Rules) (o : Owner) (got : Node) : Prop :=
  ∃ kind rule, o.node.kind? = some kind ∧ r.rule? kind = some rule ∧
    ∀ below, ((rule o).run below).outcome = .ok got

/-- Once a rule was called that returns what does not fit, a run fails for it. -/
def EndsAtMisfit (r : Rules) {α : Type} (x : Run α) : Prop :=
  ∀ o got, r.Returns o got → ¬ got.Replaces o.node → Event.dispatched r.name o ∈ x.events →
    x.outcome = .error (.fault (r.mismatch o got))

theorem is_mismatch (r : Rules) (o : Owner) (got : Node) :
    (r.mismatch o got).is .unsupportedNode :=
  Fault.is_under (Fault.is_wrap (Fault.is_ofSentinel _) _) _

theorem endsAtMisfit_of_silent {α : Type} {x : Run α} (hx : x.events = []) :
    r.EndsAtMisfit x := by
  intro o got _ _ hmem
  rw [hx] at hmem
  exact nomatch hmem

theorem endsAtMisfit_bind {α β : Type} {x : Run α} {f : α → Run β} (hx : r.EndsAtMisfit x)
    (hf : ∀ a, r.EndsAtMisfit (f a)) : r.EndsAtMisfit (x >>= f) := by
  intro o got hreturns hmisfit hmem
  cases houtcome : x.outcome with
  | error e =>
    rw [Run.events_bind_of_error houtcome] at hmem
    exact Run.outcome_bind_of_error (hx o got hreturns hmisfit hmem) f
  | ok a =>
    rw [Run.events_bind_of_ok houtcome, List.mem_append] at hmem
    rw [Run.outcome_bind_of_ok houtcome]
    rcases hmem with hmem | hmem
    · rw [hx o got hreturns hmisfit hmem] at houtcome
      exact nomatch houtcome
    · exact hf a o got hreturns hmisfit hmem

namespace Plain

/-- At a node with a rule, only this rule is called, and what it returns has to fit. -/
theorem endsAtMisfit_of_rule (hrules : r.OfOwner) {α : Type} {n : Node} {kind : Kind} {rule : Rule}
    {fits : Node → Option α} (hkind : n.kind? = some kind) (hrule : r.rule? kind = some rule)
    (hguards : n.Guards fits) (o : Owner) (below : Owner → Run Node) :
    r.EndsAtMisfit (r.visit n o fits below) := by
  obtain ⟨x, hx, hsilent⟩ := hrules kind rule hrule (n :: o)
  have happly : r.apply kind (n :: o) (fun _ ↦ below (n :: o)) = x := by
    simp only [apply, hrule, hx, Course.run]
  intro place got hreturns hmisfit hmem
  simp only [visit, hkind, happly] at hmem ⊢
  rw [Run.events_bind_of_ok rfl, Run.events_bind_of_silent _ (r.events_take _ fits),
    List.mem_append] at hmem
  obtain rfl : place = n :: o := by
    rcases hmem with hmem | hmem
    · exact (Event.dispatched.inj (List.mem_singleton.mp hmem)).2
    · cases hsilent _ hmem
  obtain ⟨kind', rule', hkind', hrule', hgot⟩ := hreturns
  obtain rfl : kind = kind' := Option.some.inj (hkind.symm.trans hkind')
  obtain rfl := Option.some.inj (hrule.symm.trans hrule')
  have hunfit : fits got = none := by
    rw [Option.eq_none_iff_forall_ne_some]
    exact fun a hfits ↦ hmisfit (hguards got a hfits)
  have hx' : x.outcome = .ok got := by
    simpa only [hx, Course.run] using hgot fun _ ↦ below (n :: o)
  rw [Run.outcome_bind_of_ok rfl, Run.outcome_bind_of_ok hx', take, hunfit]
  rfl

/-- At a node without one, the calls are those below the node. -/
theorem endsAtMisfit_of_no_rule (h : r.Plain) {α : Type} {n : Node} {kind : Kind}
    {fits : Node → Option α} (hkind : n.kind? = some kind) (hrule : r.rule? kind = none)
    {o : Owner} {below : Owner → Run Node} (hbelow : r.EndsAtMisfit (below (n :: o))) :
    r.EndsAtMisfit (r.visit n o fits below) := by
  have happly : r.apply kind (n :: o) (fun _ ↦ below (n :: o)) = below (n :: o) := by
    simp only [apply, hrule, h.fallback]
  simp only [visit, hkind, happly]
  refine endsAtMisfit_bind ?_ fun _ ↦
    endsAtMisfit_bind hbelow fun got ↦ endsAtMisfit_of_silent (r.events_take _ fits got)
  intro place got hreturns _ hmem
  obtain ⟨-, rfl⟩ := Event.dispatched.inj (List.mem_singleton.mp hmem)
  obtain ⟨kind', rule, hkind', hrule', -⟩ := hreturns
  obtain rfl : kind = kind' := Option.some.inj (hkind.symm.trans hkind')
  cases hrule.symm.trans hrule'

/-- Ending at a misfit passes from the parts of a traversal to the whole. -/
theorem inherits_endsAtMisfit (h : r.Plain) (hworkers : r.workers ≤ 1) (hrules : r.OfOwner) :
    r.Inherits fun x ↦ r.EndsAtMisfit x where
  pure _ := endsAtMisfit_of_silent rfl
  bind := endsAtMisfit_bind
  visit {_ n fits} hguards o below hbelow := by
    cases hkind : n.kind? with
    | none =>
      simp only [visit, hkind]
      exact endsAtMisfit_of_silent rfl
    | some kind =>
      cases hrule : r.rule? kind with
      | some rule => exact endsAtMisfit_of_rule hrules hkind hrule hguards o below
      | none => exact h.endsAtMisfit_of_no_rule hkind hrule hbelow
  gather blank o runs hruns := by
    rw [gather_eq_sequence hworkers]
    exact Run.sequence_of_parts (fun _ ↦ endsAtMisfit_of_silent rfl) endsAtMisfit_bind hruns
  unsupported _ _ := endsAtMisfit_of_silent rfl

/-- A plain registry is safe whatever its rules do. A tree that it gives has the skeleton of the
input, the names of modules and class-like declarations renamed. And when one declaration is lowered
after the other and the rules look at the owner chain alone, a rule that was called and returned a
node which may not replace its own is the reason why the run failed: there is no tree. -/
theorem keeps_skeleton_or_ends_at_misfit (h : r.Plain) (m : Module) :
    (∀ m', (r.lower (some m)).outcome = .ok m' → m'.skeleton id = m.skeleton r.rename) ∧
      (r.workers ≤ 1 → r.OfOwner →
        ∀ o got, Event.dispatched r.name o ∈ (r.lowerModule m).events → r.Returns o got →
          ¬ got.Replaces o.node →
            (r.lower (some m)).outcome = .error (.fault (r.mismatch o got)) ∧
              (r.mismatch o got).is .unsupportedNode) := by
  refine ⟨fun m' hm' ↦ h.skeleton_lowered hm', fun hworkers hrules o got hmem hreturns hmisfit ↦ ?_⟩
  refine ⟨?_, r.is_mismatch o got⟩
  rw [lower, Run.outcome_traced]
  exact (h.inherits_endsAtMisfit hworkers hrules).lowerModule m o got hreturns hmisfit hmem

/-- Self types become a named type, which fits; of a variable nothing is left, which does not. -/
def careless : Rules :=
  ((Rules.empty "careless").on .selfType fun _ ↦ .ends (pure (.type (Ty.bare (.ident "Any"))))).on
    .variableDecl fun _ ↦ .ends (pure .missing)

/-- A class with one property, and the given variables beside it. -/
def kioskTree (type : Ty) (vars : List Variable) : Module :=
  ⟨⟨some (.ident "city"), none, "", [], []⟩,
    .classLike ⟨.cls false [], .ident "Kiosk", [], true, "class:Kiosk", ⟨[]⟩⟩
      [.property ⟨"next", [], some type, true, false, true, false, false⟩] :: vars.map .var,
    []⟩

def stock : Variable := ⟨.ident "stock", none, none, true, false, true, ⟨[]⟩⟩

theorem plain_careless : careless.Plain where
  containers := by decide
  fallback := rfl

theorem ofOwner_careless : careless.OfOwner := by
  intro kind rule hrule o
  simp only [careless, on, empty] at hrule
  split at hrule
  · obtain rfl := Option.some.inj hrule
    exact ⟨_, rfl, List.forall_mem_nil _⟩
  · split at hrule
    · obtain rfl := Option.some.inj hrule
      exact ⟨_, rfl, List.forall_mem_nil _⟩
    · cases hrule

theorem keeps_skeleton_or_ends_at_misfit_kioskTree :
    careless.Plain ∧ careless.workers ≤ 1 ∧ careless.OfOwner ∧
      (careless.lower (some (kioskTree (.self false ⟨[]⟩) []))).outcome =
        .ok (kioskTree (Ty.bare (.ident "Any")) []) ∧
      (kioskTree (Ty.bare (.ident "Any")) []).skeleton id =
        (kioskTree (.self false ⟨[]⟩) []).skeleton id ∧
      ∃ f, (careless.lower (some (kioskTree (.self false ⟨[]⟩) [stock]))).outcome =
        .error (.fault f) ∧ f.is .unsupportedNode := by
  have hworkers : careless.workers ≤ 1 := by decide
  refine ⟨plain_careless, hworkers, ofOwner_careless, rfl, ?_, ?_⟩
  · exact (plain_careless.keeps_skeleton_or_ends_at_misfit _).1 _ rfl
  · have hdispatched : Event.dispatched "careless"
        [.var stock, .module (kioskTree (.self false ⟨[]⟩) [stock])] ∈
          (careless.lowerModule (kioskTree (.self false ⟨[]⟩) [stock])).events := by
      refine List.mem_of_getElem? (i := 4) rfl
    refine ⟨_, (plain_careless.keeps_skeleton_or_ends_at_misfit _).2 hworkers ofOwner_careless
      _ .missing hdispatched ?_ ?_⟩
    · exact ⟨.variableDecl, fun _ ↦ .ends (pure .missing), rfl, rfl, fun _ ↦ rfl⟩
    · exact nofun

end Plain

end Rules

end DeclTree
