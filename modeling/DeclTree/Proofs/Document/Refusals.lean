import DeclTree.Document.Text
import DeclTree.Proofs.Document.Grammar
import DeclTree.Proofs.Document.Places
import DeclTree.Proofs.Fault

/-!
# Where documents are refused

A document that is refused has a flaw at a place. `Flaw.Describes` says what each flaw claims of
what stands at its place, and `Decoding.RefusesBelow` that a reading only ever refuses for a flaw
that is there, at a place below the one where it reads. Readings keep this when they are put
together, since a reading of a field or of an entry is a step further down, `RefusesBelow.step`.

`refused_where_flawed` adds what becomes of a refusal as a fault: its classes, and its one detail,
which is the place as text.
-/

set_option autoImplicit false
set_option relaxedAutoImplicit false

namespace DeclTree

/-! ### The classes of flaws -/

theorem Name.Flaw.layers_fault_ne_nil (flaw : Name.Flaw) : flaw.fault.layers ≠ [] := by
  cases flaw with
  | _ => exact Fault.layers_wrap_ne_nil _ _

theorem Name.Flaw.sentinels_fault (flaw : Name.Flaw) : flaw.fault.sentinels = [.invalidName] := by
  have hcause : (Fault.ofSentinel .invalidName).layers ≠ [] := List.cons_ne_nil _ _
  induction flaw with
  | within text flaw ih => exact (Fault.sentinels_wrap flaw.layers_fault_ne_nil _).trans ih
  | _ => exact (Fault.sentinels_wrap hcause _).trans (Fault.sentinels_ofSentinel .invalidName)

theorem Name.Flaw.details_fault (flaw : Name.Flaw) : flaw.fault.details = [] := by
  induction flaw with
  | within text flaw ih => exact (Fault.details_wrap _ _).trans ih
  | _ => exact Fault.details_wrap _ _

namespace Document

/-- The classes that a flaw belongs to. -/
def Flaw.classes : Flaw → List Sentinel
  | .unknownKind _ => [.unsupportedNode]
  | .badName _ => [.invalidTree, .invalidName]
  | _ => [.invalidTree]

namespace Flaw

theorem layers_fault_ne_nil (flaw : Flaw) : flaw.fault.layers ≠ [] := by
  cases flaw with
  | badName flaw => exact Fault.layers_under_ne_nil _ _
  | _ => exact Fault.layers_wrap_ne_nil _ _

theorem sentinels_fault (flaw : Flaw) : flaw.fault.sentinels = flaw.classes := by
  have hworded : ∀ (s : Sentinel) (text : String),
      ((Fault.ofSentinel s).wrap text).sentinels = [s] := fun s text ↦
    (Fault.sentinels_wrap (List.cons_ne_nil _ _) text).trans (Fault.sentinels_ofSentinel s)
  cases flaw with
  | badName flaw =>
    rw [fault, Fault.sentinels_mark flaw.layers_fault_ne_nil, flaw.sentinels_fault]
    rfl
  | _ => exact hworded _ _

theorem details_fault (flaw : Flaw) : flaw.fault.details = [] := by
  cases flaw with
  | badName flaw => exact (Fault.details_under _ rfl).trans flaw.details_fault
  | _ => exact Fault.details_wrap _ _

end Flaw

/-- A refusal for a flaw is a fault of the classes of the flaw, with the place as its one detail. -/
theorem Refusal.exists_fault (place : Place) (flaw : Flaw) :
    ∃ f, (Refusal.flawed place flaw).failure = .fault f ∧ f.sentinels = flaw.classes ∧
      f.details = ["at " ++ place.text] := by
  have htext : "at " ++ place.text ≠ "" := by simp
  have hsentinels : (flaw.fault.withDetail ("at " ++ place.text)).sentinels = flaw.classes :=
    (Fault.sentinels_withDetail flaw.layers_fault_ne_nil _).trans flaw.sentinels_fault
  have hdetails :
      (flaw.fault.withDetail ("at " ++ place.text)).details = ["at " ++ place.text] := by
    rw [Fault.details_withDetail _ htext, flaw.details_fault, List.nil_append]
  rw [failure]
  cases flaw.hint? with
  | none => exact ⟨_, rfl, hsentinels, hdetails⟩
  | some hint =>
    refine ⟨_, rfl, ?_, (Fault.details_under _ rfl).trans hdetails⟩
    exact (Fault.sentinels_withHint (Fault.layers_under_ne_nil _ _) _).trans hsentinels

/-! ### Flaws that are there -/

/-- What a flaw says of what stands at its place. -/
def Flaw.Describes : Flaw → Spot → Prop
  | .nullNode, .node .null => True
  | .nullModule, .node .null => True
  | .nullType, .node .null => True
  | .unknownKind kind, .node (.node record) =>
    record.fields.kind = kind ∧ Kind.ofText? kind = none
  | .notModule kind, .node (.node record) =>
    record.fields.kind = kind ∧ ∃ k, Kind.ofText? kind = some k ∧ k ≠ .moduleDecl
  | .notDeclaration kind, .node doc => doc.kind? = some kind ∧ kind ∉ Kind.declarations
  | .notType kind, .node doc => doc.kind? = some kind ∧ kind ∉ Kind.types
  | .notMember kind, .node doc => doc.kind? = some kind ∧ kind ∉ Kind.members
  | .unexpected kind, .node doc => doc.kind? = some kind
  | .noName kind, .node (.node record) => record.fields.kind = kind ∧ record.fields.name = ""
  | .noUid kind name, .node (.node record) =>
    record.fields.kind = kind ∧ record.fields.name = name ∧ record.fields.uid = ""
  | .badName flaw, .name text => Name.parse text = .error flaw
  | .badName flaw, .receiver r =>
    Name.parse r.name = .error flaw ∨ ∃ text ∈ r.typeParameters, Name.parse text = .error flaw
  | _, _ => False

namespace Decoding

/-- Reading at a place, where there stands what is given, ends in no refusal but for a flaw that is
there or further down. -/
def RefusesBelow {α : Type} (x : Decoding α) (place : Place) (spot : Spot) : Prop :=
  ∀ taken refusal, x taken = .error refusal →
    ∃ below target flaw, refusal = .flawed (place ++ below) flaw ∧ spot.at? below = some target ∧
      flaw.Describes target

variable {α β : Type} {place : Place} {spot : Spot}

theorem refusesBelow_pure (a : α) : RefusesBelow (pure a : Decoding α) place spot := nofun

theorem refusesBelow_refuse {flaw : Flaw} (hflaw : flaw.Describes spot) :
    RefusesBelow (refuse place flaw : Decoding α) place spot := by
  rintro taken _ ⟨⟩
  exact ⟨[], spot, flaw, by rw [List.append_nil], rfl, hflaw⟩

/-- What is read after something else may use what that yields. -/
theorem refusesBelow_bind {P : α → Prop} {x : Decoding α} {k : α → Decoding β}
    (hx : RefusesBelow x place spot) (hyields : Yields x P)
    (hk : ∀ a, P a → RefusesBelow (k a) place spot) : RefusesBelow (x >>= k) place spot := by
  intro taken refusal hrefusal
  change Except.bind (x taken) (fun (a, taken) ↦ k a taken) = .error refusal at hrefusal
  cases hresult : x taken with
  | error first =>
    rw [hresult] at hrefusal
    obtain rfl := Except.error.inj hrefusal
    exact hx taken first hresult
  | ok result =>
    obtain ⟨a, between⟩ := result
    rw [hresult] at hrefusal
    exact hk a (hyields taken a between hresult) between refusal hrefusal

theorem RefusesBelow.bind {x : Decoding α} {k : α → Decoding β} (hx : RefusesBelow x place spot)
    (hk : ∀ a, RefusesBelow (k a) place spot) : RefusesBelow (x >>= k) place spot :=
  refusesBelow_bind hx (yields_true x) fun a _ ↦ hk a

/-- A reading one step further down is a reading below. -/
theorem RefusesBelow.step {x : Decoding α} {step : Step} {next : Spot}
    (hstep : spot.step? step = some next) (hx : RefusesBelow x (place ++ [step]) next) :
    RefusesBelow x place spot := by
  intro taken refusal hrefusal
  obtain ⟨below, target, flaw, rfl, htarget, hflaw⟩ := hx taken refusal hrefusal
  refine ⟨step :: below, target, flaw, ?_, ?_, hflaw⟩
  · rw [List.append_assoc, List.singleton_append]
  · rw [Spot.at?_cons_of_step hstep, htarget]

/-! ### Plain fields -/

theorem refusesBelow_nameAt {text : String}
    (hspot : ∀ flaw, Name.parse text = .error flaw → (Flaw.badName flaw).Describes spot) :
    RefusesBelow (nameAt place text) place spot := by
  unfold nameAt
  cases hparse : Name.parse text with
  | ok name => exact refusesBelow_pure name
  | error flaw => exact refusesBelow_refuse (hspot flaw hparse)

/-- A name in a field of its own, which is there if the name is not empty. -/
theorem refusesBelow_field {key text : String}
    (hspot : text ≠ "" → spot.step? (.field key) = some (.name text)) (htext : text ≠ "") :
    RefusesBelow (nameAt (place.field key) text) place spot :=
  .step (hspot htext) (refusesBelow_nameAt fun _ hparse ↦ hparse)

theorem refusesBelow_optionalName {key text : String}
    (hspot : text ≠ "" → spot.step? (.field key) = some (.name text)) :
    RefusesBelow (optionalName (place.field key) text) place spot := by
  unfold optionalName
  split
  · exact refusesBelow_pure none
  · next htext =>
    rw [map_eq_pure_bind]
    exact (refusesBelow_field hspot htext).bind fun name ↦ refusesBelow_pure (some name)

theorem refusesBelow_namesAt {texts : List String}
    (hspot : ∀ text ∈ texts, ∀ flaw, Name.parse text = .error flaw →
      (Flaw.badName flaw).Describes spot) :
    RefusesBelow (namesAt place texts) place spot := by
  induction texts with
  | nil => exact refusesBelow_pure []
  | cons text texts ih =>
    obtain ⟨htext, htexts⟩ := List.forall_mem_cons.mp hspot
    exact (refusesBelow_nameAt htext).bind fun _ ↦ (ih htexts).bind fun _ ↦ refusesBelow_pure _

/-- The entries of a list are read at their indexes. -/
theorem refusesBelow_imports {texts rest : List String} {i : Nat} (hrest : texts.drop i = rest) :
    RefusesBelow (imports place i rest) place (.names texts) := by
  induction rest generalizing i with
  | nil => exact refusesBelow_pure []
  | cons text rest ih =>
    have htext : texts[i]? = some text := by rw [← List.head?_drop, hrest, List.head?_cons]
    have hnext : texts.drop (i + 1) = rest := by rw [← List.tail_drop, hrest, List.tail_cons]
    have hstep : (Spot.names texts).step? (.index i) = some (.name text) := by
      rw [Spot.step?, htext, Option.map_some]
    refine (RefusesBelow.step hstep (refusesBelow_nameAt fun _ hparse ↦ hparse)).bind fun _ ↦ ?_
    exact (ih hnext).bind fun _ ↦ refusesBelow_pure _

theorem refusesBelow_readAll {read : Place → Document → Decoding α} {docs rest : List Document}
    {i : Nat} (hread : ∀ doc ∈ docs, ∀ place, RefusesBelow (read place doc) place (.node doc))
    (hrest : docs.drop i = rest) :
    RefusesBelow (readAll read place i rest) place (.nodes docs) := by
  induction rest generalizing i with
  | nil => exact refusesBelow_pure []
  | cons doc rest ih =>
    have hdoc : docs[i]? = some doc := by rw [← List.head?_drop, hrest, List.head?_cons]
    have hnext : docs.drop (i + 1) = rest := by rw [← List.tail_drop, hrest, List.tail_cons]
    have hstep : (Spot.nodes docs).step? (.index i) = some (.node doc) := by
      rw [Spot.step?, hdoc, Option.map_some]
    refine (RefusesBelow.step hstep (hread doc (List.mem_of_getElem? hdoc) _)).bind fun _ ↦ ?_
    exact (ih hnext).bind fun _ ↦ refusesBelow_pure _

/-- A list without nulls is read. -/
theorem refusesBelow_present (f : α → β) {entries : List (Option α)}
    (hentries : entries.all Option.isSome = true) :
    RefusesBelow (present f entries) place spot := by
  intro taken refusal hrefusal
  obtain ⟨bs, taken', hok⟩ := (accepts_present f hentries taken).mpr trivial
  exact nomatch hrefusal.symm.trans hok

theorem refusesBelow_requiredName (place : Place) (record : Record) :
    RefusesBelow (requiredName place record.fields) place (.node (.node record)) := by
  unfold requiredName
  split
  · next hempty => exact refusesBelow_refuse ⟨rfl, hempty⟩
  · next hname => exact refusesBelow_field (fun h ↦ if_neg h) hname

theorem refusesBelow_requiredText (place : Place) (record : Record) :
    RefusesBelow (requiredText place record.fields) place (.node (.node record)) := by
  unfold requiredText
  split
  · next hempty => exact refusesBelow_refuse ⟨rfl, hempty⟩
  · exact refusesBelow_pure _

theorem refusesBelow_uid (policy : UidPolicy) (place : Place) (record : Record) :
    RefusesBelow (Decoding.uid policy place record.fields) place (.node (.node record)) := by
  unfold Decoding.uid
  split
  · exact refusesBelow_pure _
  · next huid =>
    cases policy with
    | required => exact refusesBelow_refuse ⟨rfl, rfl, not_not.mp huid⟩
    | minted supply => exact nofun

theorem refusesBelow_receiver (place : Place) (record : Record) :
    RefusesBelow (receiver place record.fields) place (.node (.node record)) := by
  unfold receiver
  cases hreceiver : record.fields.receiver with
  | none => exact refusesBelow_pure none
  | some r =>
    have hstep : (Spot.node (.node record)).step? (.field "extend") = some (.receiver r) := by
      change record.fields.receiver.map Spot.receiver = _
      rw [hreceiver, Option.map_some]
    refine (RefusesBelow.step hstep (refusesBelow_nameAt fun _ hparse ↦ .inl hparse)).bind
      fun _ ↦ ?_
    refine (RefusesBelow.step hstep (refusesBelow_namesAt fun text htext _ hparse ↦
      .inr ⟨text, htext, hparse⟩)).bind fun _ ↦ ?_
    exact refusesBelow_pure _

theorem refusesBelow_requireModule (place : Place) (record : Record) :
    RefusesBelow (requireModule place record.fields) place (.node (.node record)) := by
  unfold requireModule
  split
  · exact refusesBelow_pure ()
  · next hkind =>
    split
    · next hnone => exact refusesBelow_refuse ⟨rfl, hnone⟩
    · next k hsome =>
      refine refusesBelow_refuse ⟨rfl, k, hsome, ?_⟩
      rintro rfl
      exact hkind (Kind.text_of_ofText? hsome).symm

end Decoding

/-! ### Nodes in their slots -/

open Decoding

/-- Reading the document refuses only for flaws that are there. -/
def RefusesFlaws (policy : UidPolicy) (doc : Document) : Prop :=
  ∀ place, RefusesBelow (decode policy place doc) place (.node doc)

/-- What is decoded has the kind that the document names, and that is a kind. -/
theorem yields_some_kind (policy : UidPolicy) (place : Place) (doc : Document) :
    Yields (decode policy place doc) fun n ↦ n.kind? = doc.kind? ∧ doc.kind? ≠ none := by
  intro taken n taken' hn
  refine ⟨yields_kind policy place doc taken n taken' hn, fun hnone ↦ ?_⟩
  cases doc with
  | null => exact yields_refuse (P := fun _ ↦ False) place .nullNode taken n taken' hn
  | node record =>
    rw [kind?] at hnone
    obtain ⟨f, typeParameters, parents, members, parameters, type, params, constraints, default,
      declarations, submodules⟩ := record
    simp only [decode, Record.decode, hnone] at hn
    exact yields_refuse (P := fun _ ↦ False) place (.unknownKind f.kind) taken n taken' hn

/-- A node that does not fit its slot has a kind that may not stand there. -/
theorem refusesBelow_fit {α : Type} {fits : Node → Option α} {allowed : List Kind}
    {flaw : Kind → Flaw} (hfits : ∀ n : Node, n.FitsByKind fits allowed) {doc : Document}
    (hflaw : ∀ kind, doc.kind? = some kind → kind ∉ allowed → (flaw kind).Describes (.node doc))
    (place : Place) {n : Node} (hn : n.kind? = doc.kind? ∧ doc.kind? ≠ none) :
    RefusesBelow (fit place fits flaw n) place (.node doc) := by
  obtain ⟨hkind, hknown⟩ := hn
  unfold fit
  split
  · exact refusesBelow_pure _
  · next kind hnone hsome =>
    refine refusesBelow_refuse (hflaw kind (hkind.symm.trans hsome) fun hallowed ↦ ?_)
    have hfit := (hfits n).mpr ⟨kind, hallowed, hsome⟩
    rw [hnone] at hfit
    exact nomatch hfit
  · next hnone => exact absurd (hkind.symm.trans hnone) hknown

section Lists

variable {policy : UidPolicy}

theorem RefusesFlaws.fitting {α : Type} {fits : Node → Option α} {allowed : List Kind}
    {doc : Document} (hdoc : doc.RefusesFlaws policy) (flaw : Kind → Flaw)
    (hfits : ∀ n : Node, n.FitsByKind fits allowed)
    (hflaw : ∀ kind, doc.kind? = some kind → kind ∉ allowed → (flaw kind).Describes (.node doc))
    (place : Place) :
    RefusesBelow (readFitting policy fits flaw place doc) place (.node doc) :=
  refusesBelow_bind (hdoc place) (yields_some_kind policy place doc) fun _ hn ↦
    refusesBelow_fit hfits hflaw place hn

theorem RefusesFlaws.type {doc : Document} (hdoc : doc.RefusesFlaws policy) (place : Place) :
    RefusesBelow (readType policy place doc) place (.node doc) := by
  cases doc with
  | null => exact refusesBelow_refuse trivial
  | node record =>
    exact hdoc.fitting .notType (fun n ↦ n.slotsByKind.type)
      (fun _ hkind hother ↦ ⟨hkind, hother⟩) place

theorem RefusesFlaws.module {doc : Document} (hdoc : doc.RefusesFlaws policy) (place : Place) :
    RefusesBelow (decodeModule policy place doc) place (.node doc) := by
  cases doc with
  | null => exact refusesBelow_refuse trivial
  | node record =>
    refine (refusesBelow_requireModule place record).bind fun _ ↦ ?_
    exact hdoc.fitting .unexpected (fun n ↦ n.slotsByKind.module)
      (fun _ hkind _ ↦ hkind) place

theorem refusesBelow_slot (spot : Spot) (key : String) {doc : Document}
    (hspot : spot.step? (.field key) = Spot.slot? doc)
    (hdoc : ∀ x ∈ doc.filled, x.RefusesFlaws policy) (place : Place) :
    RefusesBelow (decodeSlot policy (place.field key) doc) place spot := by
  cases doc with
  | null => exact refusesBelow_pure none
  | node record =>
    have hrecord : (Document.node record).RefusesFlaws policy :=
      hdoc _ (List.mem_singleton_self _)
    have hslot : decodeSlot policy (place.field key) (.node record) =
        readType policy (place.field key) (.node record) >>= fun t ↦ pure (some t) := by
      simp only [decodeSlot, readType, bind_assoc]
    rw [hslot]
    exact (RefusesBelow.step hspot (hrecord.type _)).bind fun _ ↦ refusesBelow_pure _

variable (spot : Spot) (key : String) {docs : List Document}
  (hspot : spot.step? (.field key) = some (.nodes docs))
  (hdocs : ∀ doc ∈ docs, doc.RefusesFlaws policy) (place : Place)
include hspot hdocs

/-- Lists of nodes that must be of one kind. -/
theorem refusesBelow_all {α : Type} {fits : Node → Option α} {allowed : List Kind}
    {flaw : Kind → Flaw} (hfits : ∀ n : Node, n.FitsByKind fits allowed)
    (hflaw : ∀ (doc : Document) (kind : Kind), doc.kind? = some kind → kind ∉ allowed →
      (flaw kind).Describes (.node doc)) :
    RefusesBelow (readAll (readFitting policy fits flaw) (place.field key) 0 docs) place spot :=
  .step hspot (refusesBelow_readAll
    (fun doc hdoc ↦ (hdocs doc hdoc).fitting flaw hfits (hflaw doc)) rfl)

theorem refusesBelow_types :
    RefusesBelow (decodeTypes policy (place.field key) 0 docs) place spot := by
  rw [decodeTypes_eq_readAll]
  exact .step hspot (refusesBelow_readAll (fun doc hdoc ↦ (hdocs doc hdoc).type) rfl)

theorem refusesBelow_modules :
    RefusesBelow (decodeModules policy (place.field key) 0 docs) place spot := by
  rw [decodeModules_eq_readAll]
  exact .step hspot (refusesBelow_readAll (fun doc hdoc ↦ (hdocs doc hdoc).module) rfl)

theorem refusesBelow_params :
    RefusesBelow (decodeParams policy (place.field key) 0 docs) place spot := by
  rw [decodeParams_eq_readAll]
  exact refusesBelow_all spot key hspot hdocs place (fun n ↦ n.slotsByKind.param)
    fun _ _ hkind _ ↦ hkind

theorem refusesBelow_typeParams :
    RefusesBelow (decodeTypeParams policy (place.field key) 0 docs) place spot := by
  rw [decodeTypeParams_eq_readAll]
  exact refusesBelow_all spot key hspot hdocs place (fun n ↦ n.slotsByKind.typeParam)
    fun _ _ hkind _ ↦ hkind

theorem refusesBelow_parents :
    RefusesBelow (decodeParents policy (place.field key) 0 docs) place spot := by
  rw [decodeParents_eq_readAll]
  exact refusesBelow_all spot key hspot hdocs place (fun n ↦ n.slotsByKind.heritage)
    fun _ _ hkind _ ↦ hkind

theorem refusesBelow_members :
    RefusesBelow (decodeMembers policy (place.field key) 0 docs) place spot := by
  rw [decodeMembers_eq_readAll]
  exact refusesBelow_all spot key hspot hdocs place (fun n ↦ n.slotsByKind.member)
    fun _ _ hkind hother ↦ ⟨hkind, hother⟩

theorem refusesBelow_decls :
    RefusesBelow (decodeDecls policy (place.field key) 0 docs) place spot := by
  rw [decodeDecls_eq_readAll]
  exact refusesBelow_all spot key hspot hdocs place (fun n ↦ n.slotsByKind.decl)
    fun _ _ hkind hother ↦ ⟨hkind, hother⟩

end Lists

/-! ### Records -/

theorem refusesBelow_record {policy : UidPolicy} {record : Record}
    (hannotated : record.fields.annotations.all Option.isSome = true)
    (hvalued : record.fields.tokens.all Option.isSome = true)
    (hbelow : ∀ field : Field, ∀ doc ∈ field.documents record, doc.RefusesFlaws policy)
    (place : Place) :
    RefusesBelow (record.decode policy place) place (.node (.node record)) := by
  have hname := refusesBelow_requiredName place record
  have htext := refusesBelow_requiredText place record
  have huid := refusesBelow_uid policy place record
  have hreceiver := refusesBelow_receiver place record
  have hoptional : RefusesBelow (optionalName (place.field "name") record.fields.name) place
      (.node (.node record)) := refusesBelow_optionalName fun h ↦ if_neg h
  have hshort : RefusesBelow (optionalName (place.field "short_name") record.fields.shortName) place
      (.node (.node record)) := refusesBelow_optionalName fun h ↦ if_neg h
  have himports : RefusesBelow (imports (place.field "imports") 0 record.fields.imports) place
      (.node (.node record)) :=
    have hstep : (Spot.node (.node record)).step? (.field "imports") =
        some (.names record.fields.imports) := rfl
    .step hstep (refusesBelow_imports rfl)
  have hannotations : RefusesBelow (present
      (fun a ↦ DeclTree.Annotation.mk a.name a.params) record.fields.annotations) place
      (.node (.node record)) := refusesBelow_present _ hannotated
  have htokens : RefusesBelow (present
      (fun t ↦ DeclTree.Token.mk t.value t.literal) record.fields.tokens) place
      (.node (.node record)) := refusesBelow_present _ hvalued
  have htypeParams := refusesBelow_typeParams (.node (.node record)) "type_parameters" rfl
    (hbelow .typeParameters) place
  have hparents := refusesBelow_parents (.node (.node record)) "parents" rfl (hbelow .parents) place
  have hmembers := refusesBelow_members (.node (.node record)) "members" rfl (hbelow .members) place
  have hparams := refusesBelow_params (.node (.node record)) "parameters" rfl
    (hbelow .parameters) place
  have htype := refusesBelow_slot (.node (.node record)) "type" rfl (hbelow .type) place
  have hargs := refusesBelow_types (.node (.node record)) "params" rfl (hbelow .params) place
  have hconstraints := refusesBelow_types (.node (.node record)) "constraints" rfl
    (hbelow .constraints) place
  have hdefault := refusesBelow_slot (.node (.node record)) "default" rfl (hbelow .default) place
  have hdecls := refusesBelow_decls (.node (.node record)) "declarations" rfl
    (hbelow .declarations) place
  have hmodules := refusesBelow_modules (.node (.node record)) "submodules" rfl
    (hbelow .submodules) place
  obtain ⟨f, typeParameters, parents, members, parameters, type, params, constraints, default,
    declarations, submodules⟩ := record
  unfold Record.decode
  cases hkind : Kind.ofText? f.kind with
  | none => exact refusesBelow_refuse ⟨rfl, hkind⟩
  | some kind =>
    cases kind with
    | moduleDecl =>
      exact hannotations.bind fun _ ↦ hdecls.bind fun _ ↦ hmodules.bind fun _ ↦
        hoptional.bind fun _ ↦ hshort.bind fun _ ↦ himports.bind fun _ ↦ refusesBelow_pure _
    | classDecl =>
      exact hname.bind fun _ ↦ huid.bind fun _ ↦ htypeParams.bind fun _ ↦ hparents.bind fun _ ↦
        hmembers.bind fun _ ↦ refusesBelow_pure _
    | interfaceDecl =>
      exact hname.bind fun _ ↦ huid.bind fun _ ↦ htypeParams.bind fun _ ↦ hparents.bind fun _ ↦
        hmembers.bind fun _ ↦ refusesBelow_pure _
    | objectDecl =>
      exact hname.bind fun _ ↦ huid.bind fun _ ↦ hparents.bind fun _ ↦ hmembers.bind fun _ ↦
        refusesBelow_pure _
    | functionDecl =>
      exact hname.bind fun _ ↦ huid.bind fun _ ↦ htypeParams.bind fun _ ↦ hparams.bind fun _ ↦
        htype.bind fun _ ↦ hreceiver.bind fun _ ↦ refusesBelow_pure _
    | variableDecl =>
      exact hname.bind fun _ ↦ htype.bind fun _ ↦ hreceiver.bind fun _ ↦ refusesBelow_pure _
    | aliasDecl =>
      exact hname.bind fun _ ↦ huid.bind fun _ ↦ htypeParams.bind fun _ ↦ htype.bind fun _ ↦
        refusesBelow_pure _
    | enumDecl =>
      exact htokens.bind fun _ ↦ hname.bind fun _ ↦ huid.bind fun _ ↦ refusesBelow_pure _
    | method =>
      exact htext.bind fun _ ↦ htypeParams.bind fun _ ↦ hparams.bind fun _ ↦ htype.bind fun _ ↦
        refusesBelow_pure _
    | property =>
      exact htext.bind fun _ ↦ htypeParams.bind fun _ ↦ htype.bind fun _ ↦ refusesBelow_pure _
    | constructor =>
      exact htypeParams.bind fun _ ↦ hparams.bind fun _ ↦ refusesBelow_pure _
    | param => exact htext.bind fun _ ↦ htype.bind fun _ ↦ refusesBelow_pure _
    | typeParam =>
      exact hname.bind fun _ ↦ hconstraints.bind fun _ ↦ hdefault.bind fun _ ↦ refusesBelow_pure _
    | heritage => exact hname.bind fun _ ↦ hargs.bind fun _ ↦ refusesBelow_pure _
    | namedType => exact hname.bind fun _ ↦ hargs.bind fun _ ↦ refusesBelow_pure _
    | functionType => exact hparams.bind fun _ ↦ htype.bind fun _ ↦ refusesBelow_pure _
    | unionType => exact hargs.bind fun _ ↦ refusesBelow_pure _
    | selfType => exact refusesBelow_pure _
    | generatedType => exact hname.bind fun _ ↦ htypeParams.bind fun _ ↦ refusesBelow_pure _

theorem refusesFlaws_of_isSolid (policy : UidPolicy) {doc : Document}
    (hsolid : doc.isSolid = true) : doc.RefusesFlaws policy := by
  induction doc using Document.induct with
  | null => exact fun place ↦ refusesBelow_refuse trivial
  | node record ih =>
    obtain ⟨hannotations, htokens, hbelow⟩ := of_isSolid_node hsolid
    exact refusesBelow_record hannotations htokens fun field doc hdoc ↦
      ih field doc hdoc (hbelow field doc hdoc)

/-! ### Documents -/

/-- Whether a failure is a fault that names one place, read from the root, where there is the flaw
of which it says. It has the classes of the flaw, and no other place that exists is written like the
one it names. -/
def Locates (root : Spot) (failure : Failure) : Prop :=
  ∃ (f : Fault) (place : Place) (target : Spot) (flaw : Flaw), failure = .fault f ∧
    f.details = ["at " ++ place.text] ∧ f.sentinels = flaw.classes ∧
    root.at? place = some target ∧ flaw.Describes target ∧
    ∀ place', root.at? place' ≠ none → place'.text = place.text → place' = place

theorem locates_of_refusesBelow {α : Type} {x : Decoding α} {root : Spot}
    (hx : RefusesBelow x [] root) {failure : Failure}
    (hfailure : orRefuse (x.run' 0) = .error failure) : Locates root failure := by
  change orRefuse (Except.map Prod.fst (x 0)) = .error failure at hfailure
  cases hresult : x 0 with
  | ok result =>
    rw [hresult] at hfailure
    exact nomatch hfailure
  | error refusal =>
    rw [hresult] at hfailure
    obtain rfl := Except.error.inj hfailure
    obtain ⟨place, target, flaw, rfl, htarget, hflaw⟩ := hx 0 refusal hresult
    obtain ⟨f, hf, hclasses, hdetails⟩ := Refusal.exists_fault place flaw
    refine ⟨f, place, target, flaw, hf, hdetails, hclasses, htarget, hflaw,
      fun place' hplace' htext ↦ ?_⟩
    exact Spot.eq_of_text_eq hplace' (htarget ▸ Option.some_ne_none target) htext

/-- Without nulls among annotations and tokens, whatever a document is refused for is there: the
fault names a place of the document, by a text that no other place has, and what stands there has
the flaw. The classes of the fault are those of the flaw: an unknown kind is unsupported, a name
that does not parse makes an invalid tree and is an invalid name, and all else makes an invalid
tree. The same goes for lists of documents, with the places read from the list. -/
theorem refused_where_flawed (policy : UidPolicy) :
    (∀ doc : Document, doc.isSolid = true → ∀ failure,
      orRefuse (doc.toModule policy) = .error failure → Locates (.node doc) failure) ∧
    ∀ docs : List Document, (∀ doc ∈ docs, doc.isSolid = true) → ∀ failure,
      orRefuse (toModules policy docs) = .error failure → Locates (.nodes docs) failure := by
  constructor
  · intro doc hsolid failure hfailure
    exact locates_of_refusesBelow ((refusesFlaws_of_isSolid policy hsolid).module []) hfailure
  · intro docs hsolid failure hfailure
    refine locates_of_refusesBelow ?_ hfailure
    rw [decodeModules_eq_readAll]
    refine refusesBelow_readAll (fun doc hdoc ↦ ?_) rfl
    exact (refusesFlaws_of_isSolid policy (hsolid doc hdoc)).module

/-- A class whose method takes a parameter of a type with an empty identifier in its name. -/
def crackedDocument : Document :=
  .node
    { Record.ofFields { kind := "module", name := "lib" } with
      declarations :=
        [.node
          { Record.ofFields { kind := "class", name := "Box", uid := "class:Box" } with
            members :=
              [.node
                { Record.ofFields { kind := "method", name := "put" } with
                  parameters :=
                    [.node
                      { Record.ofFields { kind := "parameter", name := "item" } with
                        type := .node (Record.ofFields
                          { kind := "type_value", name := "lib..Item" }) }] }] }] }

/-- The document, as the second entry of a list, is refused for the name of a type deep inside. -/
theorem refused_where_flawed_cracked :
    crackedDocument.isSolid = true ∧
      toModules .required [clutteredDocument, crackedDocument] =
        .error (.flawed
          [.index 1, .field "declarations", .index 0, .field "members", .index 0,
            .field "parameters", .index 0, .field "type", .field "name"]
          (.badName (.within "lib..Item" (.emptyRight (.ident "lib"))))) ∧
      ∃ failure, orRefuse (toModules .required [clutteredDocument, crackedDocument]) =
          .error failure ∧
        Locates (.nodes [clutteredDocument, crackedDocument]) failure := by
  have hsolid : ∀ doc ∈ [clutteredDocument, crackedDocument], doc.isSolid = true := by
    simp only [List.forall_mem_cons]
    exact ⟨by rfl, by rfl, List.forall_mem_nil _⟩
  exact ⟨by rfl, by rfl, _, by rfl, (refused_where_flawed .required).2 _ hsolid _ (by rfl)⟩

end Document

end DeclTree
