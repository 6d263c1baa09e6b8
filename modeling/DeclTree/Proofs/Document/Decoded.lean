import DeclTree.Proofs.Document.Reading
import DeclTree.Proofs.Provenance
import DeclTree.Proofs.Tree.Nodes
import DeclTree.Proofs.Tree.WellFormed

/-!
# What the decoder accepts is sound

Whatever a document holds, a tree that the decoder gives is one that could have been written: names
are well formed and there where they have to be, references are to identities, no tag is repeated,
and nothing is missing or comes from outside. What is known of identities depends on what is done
about missing ones.

`Decoding.Yields` is a condition on the results of successful decoding, and `Storey` packages
induction over documents. `every_of_toModule` draws the conclusion for modules.
-/

set_option autoImplicit false
set_option relaxedAutoImplicit false

namespace DeclTree.Document

/-! ### Induction over documents -/

/-- The cases of an induction over documents and their records. -/
structure Storey (P : Document → Prop) (Q : Record → Prop) : Prop where
  null : P .null
  node : ∀ record, Q record → P (.node record)
  record : ∀ f typeParameters parents members parameters type params constraints default
    declarations submodules, (∀ doc ∈ typeParameters, P doc) → (∀ doc ∈ parents, P doc) →
    (∀ doc ∈ members, P doc) → (∀ doc ∈ parameters, P doc) → P type → (∀ doc ∈ params, P doc) →
    (∀ doc ∈ constraints, P doc) → P default → (∀ doc ∈ declarations, P doc) →
    (∀ doc ∈ submodules, P doc) →
    Q ⟨f, typeParameters, parents, members, parameters, type, params, constraints, default,
      declarations, submodules⟩

namespace Storey

variable {P : Document → Prop} {Q : Record → Prop}

mutual

theorem forDocument (h : Storey P Q) : ∀ doc, P doc
  | .null => h.null
  | .node record => h.node record (forRecord h record)

theorem forRecord (h : Storey P Q) : ∀ record, Q record
  | ⟨f, typeParameters, parents, members, parameters, type, params, constraints, default,
      declarations, submodules⟩ =>
    h.record f typeParameters parents members parameters type params constraints default
      declarations submodules (forDocuments h typeParameters) (forDocuments h parents)
      (forDocuments h members) (forDocuments h parameters) (forDocument h type)
      (forDocuments h params) (forDocuments h constraints) (forDocument h default)
      (forDocuments h declarations) (forDocuments h submodules)

theorem forDocuments (h : Storey P Q) : ∀ docs : List Document, ∀ doc ∈ docs, P doc
  | [] => List.forall_mem_nil P
  | doc :: docs => List.forall_mem_cons.mpr ⟨forDocument h doc, forDocuments h docs⟩

end

end Storey

/-! ### What successful decoding yields -/

namespace Decoding

/-- Whatever decoding gives where it succeeds satisfies a condition. -/
def Yields {α : Type} (x : Decoding α) (P : α → Prop) : Prop :=
  ∀ taken a taken', x taken = .ok (a, taken') → P a

variable {α β : Type} {P : α → Prop} {Q : β → Prop}

theorem yields_pure {a : α} (ha : P a) : Yields (pure a : Decoding α) P := by
  rintro taken _ taken' ⟨⟩
  exact ha

theorem yields_refuse (place : Place) (flaw : Flaw) : Yields (refuse place flaw) P := nofun

theorem yields_bind {x : Decoding α} {k : α → Decoding β} (hx : Yields x P)
    (hk : ∀ a, P a → Yields (k a) Q) : Yields (x >>= k) Q := by
  intro taken b taken' hb
  change Except.bind (x taken) (fun (a, taken) ↦ k a taken) = .ok (b, taken') at hb
  cases hresult : x taken with
  | error refusal =>
    rw [hresult] at hb
    exact nomatch hb
  | ok result =>
    obtain ⟨a, between⟩ := result
    rw [hresult] at hb
    exact hk a (hx taken a between hresult) between b taken' hb

theorem Yields.imp {P' : α → Prop} {x : Decoding α} (hx : Yields x P) (himp : ∀ a, P a → P' a) :
    Yields x P' :=
  fun taken a taken' ha ↦ himp a (hx taken a taken' ha)

theorem Yields.of_run' {x : Decoding α} (hx : Yields x P) {taken : Nat} {a : α}
    (ha : x.run' taken = .ok a) : P a := by
  change Except.map Prod.fst (x taken) = .ok a at ha
  cases hresult : x taken with
  | error refusal =>
    rw [hresult] at ha
    exact nomatch ha
  | ok result =>
    obtain ⟨found, taken'⟩ := result
    rw [hresult] at ha
    obtain rfl := Except.ok.inj ha
    exact hx taken found taken' hresult

theorem yields_true (x : Decoding α) : Yields x fun _ ↦ True := fun _ _ _ _ ↦ trivial

/-- A list of readings yields a list whose entries each satisfy what their reading yields. -/
theorem yields_readAll {read : Place → Document → Decoding α} {docs : List Document}
    (hread : ∀ doc ∈ docs, ∀ place, Yields (read place doc) P) (place : Place) (i : Nat) :
    Yields (readAll read place i docs) fun as ↦ ∀ a ∈ as, P a := by
  induction docs generalizing i with
  | nil => exact yields_pure (List.forall_mem_nil P)
  | cons doc docs ih =>
    obtain ⟨hdoc, hdocs⟩ := List.forall_mem_cons.mp hread
    refine yields_bind (hdoc _) fun a ha ↦ ?_
    refine yields_bind (ih hdocs (i + 1)) fun as has ↦ ?_
    exact yields_pure (List.forall_mem_cons.mpr ⟨ha, has⟩)

theorem yields_fit (place : Place) (fits : Node → Option α) (flaw : Kind → Flaw) (n : Node) :
    Yields (fit place fits flaw n) fun a ↦ fits n = some a := by
  unfold fit
  split
  · exact yields_pure ‹_›
  · exact yields_refuse _ _
  · exact yields_refuse _ _

/-! ### Plain fields -/

theorem yields_nameAt (place : Place) (text : String) :
    Yields (nameAt place text) Name.WellFormed := by
  unfold nameAt
  split
  · next name hparse => exact yields_pure (Name.parse_eq_ok_iff.mp hparse).1
  · exact yields_refuse _ _

theorem yields_requiredName (place : Place) (f : Fields) :
    Yields (requiredName place f) Name.WellFormed := by
  unfold requiredName
  split
  · exact yields_refuse _ _
  · exact yields_nameAt _ _

theorem yields_requiredText (place : Place) (f : Fields) :
    Yields (requiredText place f) (· ≠ "") := by
  unfold requiredText
  split
  · exact yields_refuse _ _
  · next hname => exact yields_pure hname

theorem yields_optionalName (place : Place) (text : String) :
    Yields (optionalName place text) fun name ↦ ∀ n ∈ name, n.WellFormed := by
  unfold optionalName
  split
  · exact yields_pure nofun
  · rw [map_eq_pure_bind]
    refine yields_bind (yields_nameAt _ _) fun name hname ↦ ?_
    exact yields_pure fun n hn ↦ Option.mem_some.mp hn ▸ hname

theorem yields_namesAt (place : Place) (texts : List String) :
    Yields (namesAt place texts) fun names ↦ ∀ n ∈ names, n.WellFormed := by
  induction texts with
  | nil => exact yields_pure (List.forall_mem_nil _)
  | cons text texts ih =>
    refine yields_bind (yields_nameAt _ _) fun name hname ↦ ?_
    refine yields_bind ih fun names hnames ↦ ?_
    exact yields_pure (List.forall_mem_cons.mpr ⟨hname, hnames⟩)

theorem yields_imports (place : Place) (i : Nat) (texts : List String) :
    Yields (imports place i texts) fun names ↦ ∀ n ∈ names, n.WellFormed := by
  induction texts generalizing i with
  | nil => exact yields_pure (List.forall_mem_nil _)
  | cons text texts ih =>
    refine yields_bind (yields_nameAt _ _) fun name hname ↦ ?_
    refine yields_bind (ih (i + 1)) fun names hnames ↦ ?_
    exact yields_pure (List.forall_mem_cons.mpr ⟨hname, hnames⟩)

theorem yields_receiver (place : Place) (f : Fields) :
    Yields (receiver place f) fun r ↦ ∀ x ∈ r, x.WellFormed := by
  unfold receiver
  split
  · exact yields_pure nofun
  · refine yields_bind (yields_nameAt _ _) fun name hname ↦ ?_
    refine yields_bind (yields_namesAt _ _) fun typeParams htypeParams ↦ ?_
    exact yields_pure fun x hx ↦ Option.mem_some.mp hx ▸ ⟨hname, htypeParams⟩

end Decoding

theorem isTarget_reference? (text : String) : Uid.IsTarget (Uid.reference? text) := by
  unfold Uid.reference? Uid.IsTarget
  split
  · nofun
  · next htext => exact fun heq ↦ htext (Option.some.inj heq)

theorem Fields.provenance_wellFormed (f : Fields) : f.provenance.WellFormed :=
  Provenance.nodup_ofList f.tags

/-- What holds of every identity that a policy lets through: of those that are not empty, and of
those of the supply. -/
def UidPolicy.Grants (policy : UidPolicy) (Identity : Uid → Prop) : Prop :=
  (∀ uid, uid ≠ "" → Identity uid) ∧
    match policy with
    | .required => True
    | .minted supply => ∀ n, Identity (supply n)

open Decoding

theorem Decoding.yields_uid {policy : UidPolicy} {Identity : Uid → Prop}
    (hpolicy : policy.Grants Identity) (place : Place) (f : Fields) :
    Yields (Decoding.uid policy place f) Identity := by
  obtain ⟨hgiven, hsupply⟩ := hpolicy
  unfold Decoding.uid
  split
  · next huid => exact yields_pure (hgiven _ huid)
  · cases policy with
    | required => exact yields_refuse _ _
    | minted supply =>
      rintro taken _ _ ⟨⟩
      exact hsupply taken

end DeclTree.Document

namespace DeclTree

/-! ### Nodes in their slots -/

namespace Node

variable {P : Node → Prop} {n : Node}

theorem Every.decl {d : Decl} (hn : n.Every P) (hd : n.decl? = some d) :
    d.Every P ∧ d ≠ .missing := by
  obtain rfl := node_of_decl? hd
  cases d with
  | module m => exact ⟨Decl.every_module.mpr hn, nofun⟩
  | classLike head members => exact ⟨Decl.every_classLike.mpr hn, nofun⟩
  | function f => exact ⟨Decl.every_function.mpr hn, nofun⟩
  | foreign label => exact ⟨Decl.every_foreign.mpr hn, nofun⟩
  | missing => exact nomatch hd
  | _ => exact ⟨hn, nofun⟩

theorem Every.member {m : Member} (hn : n.Every P) (hm : n.member? = some m) : m.Every P := by
  obtain rfl := node_of_member? hm
  cases m with
  | function f => exact Member.every_function.mpr hn
  | _ => exact hn

theorem Every.module {m : Module} (hn : n.Every P) (hm : n.module? = some m) : m.Every P := by
  obtain rfl := node_of_module? hm
  exact hn

theorem Every.type {t : Ty} (hn : n.Every P) (ht : n.type? = some t) : t.Every P := by
  obtain rfl := node_of_type? ht
  exact hn

theorem Every.param {p : Param} (hn : n.Every P) (hp : n.param? = some p) : p.Every P := by
  obtain rfl := node_of_param? hp
  exact hn

theorem Every.typeParam {p : TypeParam} (hn : n.Every P) (hp : n.typeParam? = some p) :
    p.Every P := by
  obtain rfl := node_of_typeParam? hp
  exact hn

theorem Every.heritage {h : Heritage} (hn : n.Every P) (hh : n.heritage? = some h) :
    h.Every P := by
  obtain rfl := node_of_heritage? hh
  exact hn

end Node

namespace Document

open Decoding

/-! ### Lists and slots -/

section Lists

variable {policy : UidPolicy} {P : Node → Prop}

theorem yields_readFitting {α : Type} {fits : Node → Option α} (flaw : Kind → Flaw) {Q : α → Prop}
    (hfits : ∀ n a, n.Every P → fits n = some a → Q a) {doc : Document}
    (hdoc : ∀ place, Yields (decode policy place doc) (Node.Every P)) (place : Place) :
    Yields (readFitting policy fits flaw place doc) Q := by
  refine yields_bind (hdoc place) fun n hn ↦ ?_
  exact (yields_fit place fits flaw n).imp fun a ha ↦ hfits n a hn ha

theorem yields_readType {doc : Document}
    (hdoc : ∀ place, Yields (decode policy place doc) (Node.Every P)) (place : Place) :
    Yields (readType policy place doc) (Ty.Every P) := by
  cases doc with
  | null => exact yields_refuse _ _
  | node record =>
    refine yields_bind (hdoc place) fun n hn ↦ ?_
    exact (yields_fit _ _ _ _).imp fun t ht ↦ hn.type ht

theorem yields_decodeModule {doc : Document}
    (hdoc : ∀ place, Yields (decode policy place doc) (Node.Every P)) (place : Place) :
    Yields (decodeModule policy place doc) (Module.Every P) := by
  cases doc with
  | null => exact yields_refuse _ _
  | node record =>
    refine yields_bind (yields_true _) fun _ _ ↦ ?_
    refine yields_bind (hdoc place) fun n hn ↦ ?_
    exact (yields_fit _ _ _ _).imp fun m hm ↦ hn.module hm

variable {docs : List Document}
  (hdocs : ∀ doc ∈ docs, ∀ place, Yields (decode policy place doc) (Node.Every P))
include hdocs

theorem yields_types (place : Place) :
    Yields (decodeTypes policy place 0 docs) fun ts ↦ ∀ t ∈ ts, t.Every P := by
  rw [decodeTypes_eq_readAll]
  exact yields_readAll (fun doc hdoc ↦ yields_readType (hdocs doc hdoc)) place 0

theorem yields_params (place : Place) :
    Yields (decodeParams policy place 0 docs) fun ps ↦ ∀ p ∈ ps, p.Every P := by
  rw [decodeParams_eq_readAll]
  refine yields_readAll (fun doc hdoc ↦ ?_) place 0
  exact yields_readFitting _ (fun n p hn hp ↦ hn.param hp) (hdocs doc hdoc)

theorem yields_typeParams (place : Place) :
    Yields (decodeTypeParams policy place 0 docs) fun ps ↦ ∀ p ∈ ps, p.Every P := by
  rw [decodeTypeParams_eq_readAll]
  refine yields_readAll (fun doc hdoc ↦ ?_) place 0
  exact yields_readFitting _ (fun n p hn hp ↦ hn.typeParam hp) (hdocs doc hdoc)

theorem yields_parents (place : Place) :
    Yields (decodeParents policy place 0 docs) fun hs ↦ ∀ h ∈ hs, h.Every P := by
  rw [decodeParents_eq_readAll]
  refine yields_readAll (fun doc hdoc ↦ ?_) place 0
  exact yields_readFitting _ (fun n h hn hh ↦ hn.heritage hh) (hdocs doc hdoc)

theorem yields_members (place : Place) :
    Yields (decodeMembers policy place 0 docs) fun ms ↦ ∀ m ∈ ms, m.Every P := by
  rw [decodeMembers_eq_readAll]
  refine yields_readAll (fun doc hdoc ↦ ?_) place 0
  exact yields_readFitting _ (fun n m hn hm ↦ hn.member hm) (hdocs doc hdoc)

theorem yields_decls (place : Place) :
    Yields (decodeDecls policy place 0 docs) fun ds ↦ ∀ d ∈ ds, d.Every P ∧ d ≠ .missing := by
  rw [decodeDecls_eq_readAll]
  refine yields_readAll (fun doc hdoc ↦ ?_) place 0
  exact yields_readFitting _ (fun n d hn hd ↦ hn.decl hd) (hdocs doc hdoc)

theorem yields_modules (place : Place) :
    Yields (decodeModules policy place 0 docs) fun ms ↦ ∀ m ∈ ms, m.Every P := by
  rw [decodeModules_eq_readAll]
  exact yields_readAll (fun doc hdoc ↦ yields_decodeModule (hdocs doc hdoc)) place 0

omit hdocs

theorem yields_slot {doc : Document}
    (hdoc : ∀ place, Yields (decode policy place doc) (Node.Every P)) (place : Place) :
    Yields (decodeSlot policy place doc) fun slot ↦ ∀ t ∈ slot, t.Every P := by
  cases doc with
  | null => exact yields_pure nofun
  | node record =>
    refine yields_bind (hdoc place) fun n hn ↦ ?_
    refine yields_bind (yields_fit _ _ _ _) fun t ht ↦ ?_
    exact yields_pure fun u hu ↦ Option.mem_some.mp hu ▸ hn.type ht

end Lists

/-! ### Records -/

variable {policy : UidPolicy} {Identity : Uid → Prop}

theorem decode_sound (hpolicy : policy.Grants Identity) :
    Storey
      (fun doc ↦ ∀ place,
        Yields (decode policy place doc) (Node.Every (Node.LocallySound Identity)))
      (fun record ↦ ∀ place,
        Yields (record.decode policy place) (Node.Every (Node.LocallySound Identity))) where
  null place := yields_refuse _ _
  node record hrecord := hrecord
  record f typeParameters parents members parameters type params constraints default declarations
      submodules htypeParameters hparents hmembers hparameters htype hparams hconstraints hdefault
      hdeclarations hsubmodules place := by
    have htags := f.provenance_wellFormed
    have htarget := isTarget_reference? f.reference
    unfold Record.decode
    cases Kind.ofText? f.kind with
    | none => exact yields_refuse _ _
    | some kind =>
      cases kind with
      | moduleDecl =>
        refine yields_bind (yields_true _) fun annotations _ ↦ ?_
        refine yields_bind (yields_decls hdeclarations _) fun ds hds ↦ ?_
        refine yields_bind (yields_modules hsubmodules _) fun ms hms ↦ ?_
        refine yields_bind (yields_optionalName _ _) fun name hname ↦ ?_
        refine yields_bind (yields_optionalName _ _) fun shortName hshortName ↦ ?_
        refine yields_bind (yields_imports _ _ _) fun imports himports ↦ ?_
        refine yields_pure (Module.every_iff.mpr ⟨⟨⟨hname, hshortName, himports⟩, ?_⟩,
          fun d hd ↦ (hds d hd).1, hms⟩)
        exact isKnown_of_ne_missing fun d hd ↦ (hds d hd).2
      | classDecl =>
        refine yields_bind (yields_requiredName _ _) fun name hname ↦ ?_
        refine yields_bind (yields_uid hpolicy _ _) fun uid huid ↦ ?_
        refine yields_bind (yields_typeParams htypeParameters _) fun tps htps ↦ ?_
        refine yields_bind (yields_parents hparents _) fun hs hhs ↦ ?_
        refine yields_bind (yields_members hmembers _) fun ms hms ↦ ?_
        exact yields_pure (Member.every_classLike.mpr ⟨⟨hname, huid, htags⟩, htps, hhs, hms⟩)
      | interfaceDecl =>
        refine yields_bind (yields_requiredName _ _) fun name hname ↦ ?_
        refine yields_bind (yields_uid hpolicy _ _) fun uid huid ↦ ?_
        refine yields_bind (yields_typeParams htypeParameters _) fun tps htps ↦ ?_
        refine yields_bind (yields_parents hparents _) fun hs hhs ↦ ?_
        refine yields_bind (yields_members hmembers _) fun ms hms ↦ ?_
        exact yields_pure (Member.every_classLike.mpr ⟨⟨hname, huid, htags⟩, htps, hhs, hms⟩)
      | objectDecl =>
        refine yields_bind (yields_requiredName _ _) fun name hname ↦ ?_
        refine yields_bind (yields_uid hpolicy _ _) fun uid huid ↦ ?_
        refine yields_bind (yields_parents hparents _) fun hs hhs ↦ ?_
        refine yields_bind (yields_members hmembers _) fun ms hms ↦ ?_
        exact yields_pure (Member.every_classLike.mpr
          ⟨⟨hname, huid, htags⟩, List.forall_mem_nil _, hhs, hms⟩)
      | functionDecl =>
        refine yields_bind (yields_requiredName _ _) fun name hname ↦ ?_
        refine yields_bind (yields_uid hpolicy _ _) fun uid huid ↦ ?_
        refine yields_bind (yields_typeParams htypeParameters _) fun tps htps ↦ ?_
        refine yields_bind (yields_params hparameters _) fun ps hps ↦ ?_
        refine yields_bind (yields_slot htype _) fun result hresult ↦ ?_
        refine yields_bind (yields_receiver _ _) fun receiver hreceiver ↦ ?_
        exact yields_pure (Function.every_iff.mpr
          ⟨⟨hname, huid, htags, hreceiver⟩, htps, hps, hresult⟩)
      | variableDecl =>
        refine yields_bind (yields_requiredName _ _) fun name hname ↦ ?_
        refine yields_bind (yields_slot htype _) fun t ht ↦ ?_
        refine yields_bind (yields_receiver _ _) fun receiver hreceiver ↦ ?_
        exact yields_pure (Decl.every_var.mpr ⟨⟨hname, htags, hreceiver⟩, ht⟩)
      | aliasDecl =>
        refine yields_bind (yields_requiredName _ _) fun name hname ↦ ?_
        refine yields_bind (yields_uid hpolicy _ _) fun uid huid ↦ ?_
        refine yields_bind (yields_typeParams htypeParameters _) fun tps htps ↦ ?_
        refine yields_bind (yields_slot htype _) fun t ht ↦ ?_
        exact yields_pure (Decl.every_typeAlias.mpr ⟨⟨hname, huid, htags⟩, htps, ht⟩)
      | enumDecl =>
        refine yields_bind (yields_true _) fun tokens _ ↦ ?_
        refine yields_bind (yields_requiredName _ _) fun name hname ↦ ?_
        refine yields_bind (yields_uid hpolicy _ _) fun uid huid ↦ ?_
        exact yields_pure (Decl.every_enum.mpr ⟨hname, huid⟩)
      | method =>
        refine yields_bind (yields_requiredText _ _) fun name hname ↦ ?_
        refine yields_bind (yields_typeParams htypeParameters _) fun tps htps ↦ ?_
        refine yields_bind (yields_params hparameters _) fun ps hps ↦ ?_
        refine yields_bind (yields_slot htype _) fun result hresult ↦ ?_
        exact yields_pure (Member.every_method.mpr ⟨hname, htps, hps, hresult⟩)
      | property =>
        refine yields_bind (yields_requiredText _ _) fun name hname ↦ ?_
        refine yields_bind (yields_typeParams htypeParameters _) fun tps htps ↦ ?_
        refine yields_bind (yields_slot htype _) fun t ht ↦ ?_
        exact yields_pure (Member.every_property.mpr ⟨hname, htps, ht⟩)
      | constructor =>
        refine yields_bind (yields_typeParams htypeParameters _) fun tps htps ↦ ?_
        refine yields_bind (yields_params hparameters _) fun ps hps ↦ ?_
        exact yields_pure (Member.every_constructor.mpr ⟨trivial, htps, hps⟩)
      | param =>
        refine yields_bind (yields_requiredText _ _) fun name hname ↦ ?_
        refine yields_bind (yields_slot htype _) fun t ht ↦ ?_
        exact yields_pure (Param.every_iff.mpr ⟨hname, ht⟩)
      | typeParam =>
        refine yields_bind (yields_requiredName _ _) fun name hname ↦ ?_
        refine yields_bind (yields_types hconstraints _) fun ts hts ↦ ?_
        refine yields_bind (yields_slot hdefault _) fun t ht ↦ ?_
        exact yields_pure (TypeParam.every_iff.mpr ⟨hname, hts, ht⟩)
      | heritage =>
        refine yields_bind (yields_requiredName _ _) fun name hname ↦ ?_
        refine yields_bind (yields_types hparams _) fun ts hts ↦ ?_
        exact yields_pure (Heritage.every_iff.mpr ⟨⟨hname, htarget⟩, hts⟩)
      | namedType =>
        refine yields_bind (yields_requiredName _ _) fun name hname ↦ ?_
        refine yields_bind (yields_types hparams _) fun ts hts ↦ ?_
        exact yields_pure (Ty.every_named.mpr ⟨⟨hname, htarget, htags⟩, hts⟩)
      | functionType =>
        refine yields_bind (yields_params hparameters _) fun ps hps ↦ ?_
        refine yields_bind (yields_slot htype _) fun result hresult ↦ ?_
        exact yields_pure (Ty.every_function.mpr ⟨htags, hps, hresult⟩)
      | unionType =>
        refine yields_bind (yields_types hparams _) fun ts hts ↦ ?_
        exact yields_pure (Ty.every_union.mpr ⟨htags, hts⟩)
      | selfType => exact yields_pure (Ty.every_self.mpr htags)
      | generatedType =>
        refine yields_bind (yields_requiredName _ _) fun name hname ↦ ?_
        refine yields_bind (yields_typeParams htypeParameters _) fun tps htps ↦ ?_
        exact yields_pure (Ty.every_generated.mpr ⟨⟨hname, htarget, htags⟩, htps⟩)

/-- Every tree that the decoder gives is sound. -/
theorem every_of_toModule (hpolicy : policy.Grants Identity) {doc : Document} {m : Module}
    (hm : doc.toModule policy = .ok m) : m.Every (Node.LocallySound Identity) := by
  exact (yields_decodeModule ((decode_sound hpolicy).forDocument doc) []).of_run' hm

end Document

end DeclTree
