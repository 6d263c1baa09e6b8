import DeclTree.Proofs.Document.NormalForm

/-!
# The grammar of documents

What a document has to look like to describe a tree, said without the decoder: `Field.Legal` is what
is asked of a field that holds plain values, `Field.allowed` says which kinds may stand in a field
that holds nodes, and a document is grammatical when this holds of every node that is reached
through the fields of its kind, `Document.Grammatical`.

The decoder accepts exactly the grammatical documents that describe a module,
`Document.accepts_exactly_grammar`, where a null among annotations or tokens does not break it down.
The parts of the proof are conditions under which a single reading succeeds, `Decoding.Accepts`, put
together in the order in which the decoder reads. Fields that are not read have no part in this:
decoding a document and decoding its normal form are the same.
-/

set_option autoImplicit false
set_option relaxedAutoImplicit false

namespace DeclTree

namespace Document

/-! ### Grammatical documents -/

/-- The kind of the node that a document describes. -/
def kind? : Document → Option Kind
  | .null => none
  | .node record => Kind.ofText? record.fields.kind

/-- What is asked of a field with plain values in a node of a kind. The name of a module may be
missing and so may its identity; the names of methods, properties and parameters need not be dotted
names. -/
@[simp] def Field.Legal (kind : Kind) (f : Fields) : Field → Prop
  | .name =>
    if kind = .moduleDecl then f.name = "" ∨ Name.IsDotted f.name
    else if kind ∈ [Kind.method, .property, .param] then f.name ≠ ""
    else f.name ≠ "" ∧ Name.IsDotted f.name
  | .shortName => f.shortName = "" ∨ Name.IsDotted f.shortName
  | .uid => kind = .moduleDecl ∨ f.uid ≠ ""
  | .imports => ∀ text ∈ f.imports, Name.IsDotted text
  | .receiver =>
    ∀ r ∈ f.receiver, Name.IsDotted r.name ∧ ∀ text ∈ r.typeParameters, Name.IsDotted text
  | _ => True

/-- The kinds that may stand in a field that holds nodes. -/
@[simp] def Field.allowed : Field → List Kind
  | .typeParameters => [.typeParam]
  | .parents => [.heritage]
  | .members => Kind.members
  | .parameters => [.param]
  | .type => Kind.types
  | .params => Kind.types
  | .constraints => Kind.types
  | .default => Kind.types
  | .declarations => Kind.declarations
  | .submodules => [.moduleDecl]
  | _ => []

/-- A slot that may be left empty, as a list. -/
def filled : Document → List Document
  | .null => []
  | .node record => [.node record]

/-- The documents that stand in a field. -/
@[simp] def Field.documents (record : Record) : Field → List Document
  | .typeParameters => record.typeParameters
  | .parents => record.parents
  | .members => record.members
  | .parameters => record.parameters
  | .type => record.type.filled
  | .params => record.params
  | .constraints => record.constraints
  | .default => record.default.filled
  | .declarations => record.declarations
  | .submodules => record.submodules
  | _ => []

/-- Whether a document is built as its kind asks, and so is every document in a field of its kind,
where only nodes of the allowed kinds stand. -/
inductive Grammatical : Document → Prop
  | node {record : Record} {kind : Kind} (hkind : Kind.ofText? record.fields.kind = some kind)
      (hlegal : ∀ field ∈ kind.fields, field.Legal kind record.fields)
      (hallowed : ∀ field ∈ kind.fields, ∀ doc ∈ field.documents record,
        ∃ k ∈ field.allowed, doc.kind? = some k)
      (hbelow : ∀ field ∈ kind.fields, ∀ doc ∈ field.documents record, Grammatical doc) :
      Grammatical (.node record)

/-- Whether a grammatical node of one of the given kinds stands in a slot. -/
def Stands (allowed : List Kind) (doc : Document) : Prop :=
  (∃ kind ∈ allowed, doc.kind? = some kind) ∧ doc.Grammatical

theorem grammatical_node_iff {record : Record} {kind : Kind}
    (hkind : Kind.ofText? record.fields.kind = some kind) :
    (Document.node record).Grammatical ↔
      ∀ field ∈ kind.fields, field.Legal kind record.fields ∧
        ∀ doc ∈ field.documents record, doc.Stands field.allowed := by
  constructor
  · rintro ⟨hkind', hlegal, hallowed, hbelow⟩ field hfield
    obtain rfl := Option.some.inj (hkind.symm.trans hkind')
    exact ⟨hlegal field hfield, fun doc hdoc ↦
      ⟨hallowed field hfield doc hdoc, hbelow field hfield doc hdoc⟩⟩
  · intro hfields
    exact .node hkind (fun field hfield ↦ (hfields field hfield).1)
      (fun field hfield doc hdoc ↦ ((hfields field hfield).2 doc hdoc).1)
      fun field hfield doc hdoc ↦ ((hfields field hfield).2 doc hdoc).2

theorem not_grammatical_null : ¬ Document.null.Grammatical := nofun

theorem not_stands_null (allowed : List Kind) : ¬ Document.null.Stands allowed :=
  fun hnull ↦ not_grammatical_null hnull.2

/-! ### Documents without nulls among plain values -/

mutual

/-- Whether no annotation and no token in a document is null. -/
def isSolid : Document → Bool
  | .null => true
  | .node record => Record.isSolid record

def Record.isSolid : Record → Bool
  | ⟨f, typeParameters, parents, members, parameters, type, params, constraints, default,
      declarations, submodules⟩ =>
    f.annotations.all Option.isSome && f.tokens.all Option.isSome && allSolid typeParameters &&
      allSolid parents && allSolid members && allSolid parameters && isSolid type &&
      allSolid params && allSolid constraints && isSolid default && allSolid declarations &&
      allSolid submodules

def allSolid : List Document → Bool
  | [] => true
  | doc :: docs => isSolid doc && allSolid docs

end

theorem allSolid_iff {docs : List Document} :
    allSolid docs = true ↔ ∀ doc ∈ docs, doc.isSolid = true := by
  induction docs with
  | nil => simp [allSolid]
  | cons doc docs ih => rw [allSolid, Bool.and_eq_true, ih, List.forall_mem_cons]

/-! ### When a reading succeeds -/

namespace Decoding

/-- Decoding succeeds exactly under a condition, whatever was taken from the supply before. -/
def Accepts {α : Type} (x : Decoding α) (condition : Prop) : Prop :=
  ∀ taken, (∃ a taken', x taken = .ok (a, taken')) ↔ condition

variable {α β : Type} {c d : Prop}

theorem Accepts.of_iff {x : Decoding α} (hx : Accepts x c) (hcd : c ↔ d) : Accepts x d :=
  fun taken ↦ (hx taken).trans hcd

theorem accepts_pure (a : α) : Accepts (pure a : Decoding α) True :=
  fun taken ↦ iff_of_true ⟨a, taken, rfl⟩ trivial

theorem accepts_refuse (place : Place) (flaw : Flaw) :
    Accepts (refuse place flaw : Decoding α) False :=
  fun _ ↦ iff_of_false nofun nofun

/-- What is read after something else may use what that yields. -/
theorem accepts_bind_of_yields {P : α → Prop} {x : Decoding α} {k : α → Decoding β}
    (hx : Accepts x c) (hyields : Yields x P) (hk : ∀ a, P a → Accepts (k a) d) :
    Accepts (x >>= k) (c ∧ d) := by
  intro taken
  change (∃ b taken', Except.bind (x taken) (fun (a, taken) ↦ k a taken) = .ok (b, taken')) ↔ c ∧ d
  have hc := hx taken
  cases hresult : x taken with
  | error refusal =>
    rw [hresult] at hc
    have hfails : ¬ c := fun h ↦ nomatch hc.mpr h
    exact iff_of_false nofun fun h ↦ hfails h.1
  | ok result =>
    obtain ⟨a, between⟩ := result
    have hsucceeds : c := hc.mp ⟨a, between, hresult⟩
    have hlater := hk a (hyields taken a between hresult) between
    exact hlater.trans (and_iff_right hsucceeds).symm

theorem Accepts.bind {x : Decoding α} {k : α → Decoding β} (hx : Accepts x c)
    (hk : ∀ a, Accepts (k a) d) : Accepts (x >>= k) (c ∧ d) :=
  accepts_bind_of_yields hx (yields_true x) fun a _ ↦ hk a

/-! ### Plain fields -/

theorem accepts_nameAt (place : Place) (text : String) :
    Accepts (nameAt place text) (Name.IsDotted text) := by
  rw [← Name.exists_parse_iff]
  unfold nameAt
  cases Name.parse text with
  | error flaw => exact (accepts_refuse _ _).of_iff (iff_of_false not_false nofun)
  | ok name => exact (accepts_pure name).of_iff (iff_of_true trivial ⟨name, rfl⟩)

theorem accepts_requiredName (place : Place) (f : Fields) :
    Accepts (requiredName place f) (f.name ≠ "" ∧ Name.IsDotted f.name) := by
  unfold requiredName
  split
  · next hempty => exact (accepts_refuse _ _).of_iff (iff_of_false not_false fun h ↦ h.1 hempty)
  · next hname => exact (accepts_nameAt _ _).of_iff (and_iff_right hname).symm

theorem accepts_requiredText (place : Place) (f : Fields) :
    Accepts (requiredText place f) (f.name ≠ "") := by
  unfold requiredText
  split
  · next hempty => exact (accepts_refuse _ _).of_iff (iff_of_false not_false fun h ↦ h hempty)
  · next hname => exact (accepts_pure _).of_iff (iff_of_true trivial hname)

theorem accepts_optionalName (place : Place) (text : String) :
    Accepts (optionalName place text) (text = "" ∨ Name.IsDotted text) := by
  unfold optionalName
  split
  · next hempty => exact (accepts_pure _).of_iff (iff_of_true trivial (.inl hempty))
  · next htext =>
    rw [map_eq_pure_bind]
    refine ((accepts_nameAt _ _).bind fun name ↦ accepts_pure (some name)).of_iff ?_
    rw [and_true, or_iff_right htext]

theorem accepts_namesAt (place : Place) (texts : List String) :
    Accepts (namesAt place texts) (∀ text ∈ texts, Name.IsDotted text) := by
  induction texts with
  | nil => exact (accepts_pure _).of_iff (iff_of_true trivial (List.forall_mem_nil _))
  | cons text texts ih =>
    refine ((accepts_nameAt place text).bind fun name ↦ ih.bind fun _ ↦ accepts_pure _).of_iff ?_
    rw [and_true, List.forall_mem_cons]

theorem accepts_imports (place : Place) (i : Nat) (texts : List String) :
    Accepts (imports place i texts) (∀ text ∈ texts, Name.IsDotted text) := by
  induction texts generalizing i with
  | nil => exact (accepts_pure _).of_iff (iff_of_true trivial (List.forall_mem_nil _))
  | cons text texts ih =>
    refine ((accepts_nameAt _ text).bind fun name ↦
      (ih (i + 1)).bind fun _ ↦ accepts_pure _).of_iff ?_
    rw [and_true, List.forall_mem_cons]

theorem accepts_uid (place : Place) (f : Fields) :
    Accepts (Decoding.uid .required place f) (f.uid ≠ "") := by
  unfold Decoding.uid
  split
  · next huid => exact (accepts_pure _).of_iff (iff_of_true trivial huid)
  · next huid => exact (accepts_refuse _ _).of_iff (iff_of_false not_false huid)

theorem accepts_receiver (place : Place) (f : Fields) :
    Accepts (receiver place f) (∀ r ∈ f.receiver,
      Name.IsDotted r.name ∧ ∀ text ∈ r.typeParameters, Name.IsDotted text) := by
  unfold receiver
  cases f.receiver with
  | none => exact (accepts_pure _).of_iff (iff_of_true trivial nofun)
  | some r =>
    refine ((accepts_nameAt _ r.name).bind fun _ ↦
      (accepts_namesAt _ r.typeParameters).bind fun _ ↦ accepts_pure _).of_iff ?_
    simp

/-- A list without nulls is read. -/
theorem accepts_present (f : α → β) {entries : List (Option α)}
    (hentries : entries.all Option.isSome = true) : Accepts (present f entries) True := by
  induction entries with
  | nil => exact accepts_pure []
  | cons entry entries ih =>
    rw [List.all_cons, Bool.and_eq_true] at hentries
    obtain ⟨hentry, hentries⟩ := hentries
    cases entry with
    | none => exact nomatch hentry
    | some a => exact ((ih hentries).bind fun _ ↦ accepts_pure _).of_iff (and_self_iff)

/-! ### Lists and slots -/

theorem accepts_readAll {read : Place → Document → Decoding α} {allowed : List Kind}
    {docs : List Document}
    (hread : ∀ doc ∈ docs, ∀ place, Accepts (read place doc) (doc.Stands allowed)) (place : Place)
    (i : Nat) : Accepts (readAll read place i docs) (∀ doc ∈ docs, doc.Stands allowed) := by
  induction docs generalizing i with
  | nil => exact (accepts_pure _).of_iff (iff_of_true trivial (List.forall_mem_nil _))
  | cons doc docs ih =>
    obtain ⟨hdoc, hdocs⟩ := List.forall_mem_cons.mp hread
    refine ((hdoc _).bind fun _ ↦ (ih hdocs (i + 1)).bind fun _ ↦ accepts_pure _).of_iff ?_
    rw [and_true, List.forall_mem_cons]

theorem accepts_fit (place : Place) (fits : Node → Option α) (flaw : Kind → Flaw) (n : Node) :
    Accepts (fit place fits flaw n) ((fits n).isSome = true) := by
  unfold fit
  split
  · next a hfits => exact (accepts_pure a).of_iff (iff_of_true trivial (by rw [hfits]; rfl))
  · next hfits _ => exact (accepts_refuse _ _).of_iff (iff_of_false not_false (by simp [hfits]))
  · next hfits _ => exact (accepts_refuse _ _).of_iff (iff_of_false not_false (by simp [hfits]))

end Decoding

end Document

/-! ### What fits a slot, by kinds -/

/-- Whether a slot takes exactly the nodes of the allowed kinds. -/
def Node.FitsByKind {α : Type} (fits : Node → Option α) (allowed : List Kind) (n : Node) : Prop :=
  (fits n).isSome = true ↔ ∃ kind ∈ allowed, n.kind? = some kind

/-- What may stand in each slot, by kinds. -/
structure Node.SlotsByKind (n : Node) : Prop where
  decl : n.FitsByKind decl? Kind.declarations
  member : n.FitsByKind member? Kind.members
  module : n.FitsByKind module? [.moduleDecl]
  type : n.FitsByKind type? Kind.types
  param : n.FitsByKind param? [.param]
  typeParam : n.FitsByKind typeParam? [.typeParam]
  heritage : n.FitsByKind heritage? [.heritage]

theorem Node.slotsByKind (n : Node) : n.SlotsByKind := by
  cases n with
  | classLike head members =>
    obtain ⟨form, name, parents, isExported, uid, tags⟩ := head
    cases form with
    | _ => constructor <;> simp [FitsByKind, decl?, member?, module?, type?, param?, typeParam?,
        heritage?, kind?, Kind.declarations, Kind.members, Kind.types, ClassForm.kind]
  | type t =>
    cases t with
    | _ => constructor <;> simp [FitsByKind, decl?, member?, module?, type?, param?, typeParam?,
        heritage?, kind?, Kind.declarations, Kind.members, Kind.types, Ty.kind]
  | _ => constructor <;> simp [FitsByKind, decl?, member?, module?, type?, param?, typeParam?,
      heritage?, kind?, Kind.declarations, Kind.members, Kind.types]

namespace Document

open Decoding

/-! ### Lists and slots of nodes -/

/-- What is decoded has the kind that the document names. -/
theorem yields_kind (policy : UidPolicy) (place : Place) (doc : Document) :
    Yields (decode policy place doc) fun n ↦ n.kind? = doc.kind? := by
  cases doc with
  | null => exact yields_refuse _ _
  | node record =>
    obtain ⟨f, typeParameters, parents, members, parameters, type, params, constraints, default,
      declarations, submodules⟩ := record
    simp only [decode, Record.decode, kind?]
    cases Kind.ofText? f.kind with
    | none => exact yields_refuse _ _
    | some kind =>
      cases kind with
      | _ =>
        repeat refine yields_bind (yields_true _) fun _ _ ↦ ?_
        exact yields_pure rfl

/-- A document is accepted exactly when it is grammatical. -/
def ReadsByGrammar (doc : Document) : Prop :=
  ∀ place, Accepts (decode .required place doc) doc.Grammatical

theorem ReadsByGrammar.fitting {α : Type} {fits : Node → Option α} {allowed : List Kind}
    (hfits : ∀ n : Node, n.FitsByKind fits allowed) (flaw : Kind → Flaw) {doc : Document}
    (hdoc : doc.ReadsByGrammar) (place : Place) :
    Accepts (readFitting .required fits flaw place doc) (doc.Stands allowed) := by
  have hread : Accepts (readFitting .required fits flaw place doc)
      (doc.Grammatical ∧ ∃ kind ∈ allowed, doc.kind? = some kind) := by
    refine accepts_bind_of_yields (hdoc place) (yields_kind _ place doc) fun n hn ↦ ?_
    rw [← hn]
    exact (accepts_fit place fits flaw n).of_iff (hfits n)
  exact hread.of_iff And.comm

theorem ReadsByGrammar.type {doc : Document} (hdoc : doc.ReadsByGrammar) (place : Place) :
    Accepts (readType .required place doc) (doc.Stands Kind.types) := by
  cases doc with
  | null => exact (accepts_refuse _ _).of_iff (iff_of_false not_false (not_stands_null _))
  | node record => exact hdoc.fitting (fun n ↦ n.slotsByKind.type) .notType place

theorem accepts_slot {doc : Document} (hdoc : ∀ x ∈ doc.filled, x.ReadsByGrammar) (place : Place) :
    Accepts (decodeSlot .required place doc) (∀ x ∈ doc.filled, x.Stands Kind.types) := by
  cases doc with
  | null => exact (accepts_pure _).of_iff (iff_of_true trivial (List.forall_mem_nil _))
  | node record =>
    have hrecord : (Document.node record).ReadsByGrammar := hdoc _ (List.mem_singleton_self _)
    have hslot : decodeSlot .required place (.node record) =
        readType .required place (.node record) >>= fun t ↦ pure (some t) := by
      simp only [decodeSlot, readType, bind_assoc]
    rw [hslot]
    refine ((hrecord.type place).bind fun _ ↦ accepts_pure _).of_iff ?_
    rw [and_true, filled, List.forall_mem_singleton]

theorem accepts_requireModule (place : Place) (f : Fields) :
    Accepts (requireModule place f) (Kind.ofText? f.kind = some .moduleDecl) := by
  unfold requireModule
  split
  · next hkind =>
    exact (accepts_pure ()).of_iff (iff_of_true trivial (hkind ▸ Kind.ofText?_text .moduleDecl))
  · next hkind =>
    have hother : Kind.ofText? f.kind ≠ some .moduleDecl :=
      fun hmodule ↦ hkind (Kind.text_of_ofText? hmodule).symm
    split
    · exact (accepts_refuse _ _).of_iff (iff_of_false not_false hother)
    · exact (accepts_refuse _ _).of_iff (iff_of_false not_false hother)

theorem ReadsByGrammar.module {doc : Document} (hdoc : doc.ReadsByGrammar) (place : Place) :
    Accepts (decodeModule .required place doc) (doc.Stands [.moduleDecl]) := by
  cases doc with
  | null => exact (accepts_refuse _ _).of_iff (iff_of_false not_false (not_stands_null _))
  | node record =>
    refine ((accepts_requireModule place record.fields).bind fun _ ↦
      hdoc.fitting (fun n ↦ n.slotsByKind.module) .unexpected place).of_iff ?_
    refine and_iff_right_of_imp fun hstands ↦ ?_
    obtain ⟨⟨kind, hkind, htext⟩, -⟩ := hstands
    rw [← List.mem_singleton.mp hkind]
    exact htext

section Lists

variable {docs : List Document} (hdocs : ∀ doc ∈ docs, doc.ReadsByGrammar) (place : Place)
include hdocs

theorem accepts_types :
    Accepts (decodeTypes .required place 0 docs) (∀ doc ∈ docs, doc.Stands Kind.types) := by
  rw [decodeTypes_eq_readAll]
  exact accepts_readAll (fun doc hdoc ↦ (hdocs doc hdoc).type) place 0

theorem accepts_params :
    Accepts (decodeParams .required place 0 docs) (∀ doc ∈ docs, doc.Stands [.param]) := by
  rw [decodeParams_eq_readAll]
  refine accepts_readAll (fun doc hdoc ↦ ?_) place 0
  exact (hdocs doc hdoc).fitting (fun n ↦ n.slotsByKind.param) .unexpected

theorem accepts_typeParams :
    Accepts (decodeTypeParams .required place 0 docs) (∀ doc ∈ docs, doc.Stands [.typeParam]) := by
  rw [decodeTypeParams_eq_readAll]
  refine accepts_readAll (fun doc hdoc ↦ ?_) place 0
  exact (hdocs doc hdoc).fitting (fun n ↦ n.slotsByKind.typeParam) .unexpected

theorem accepts_parents :
    Accepts (decodeParents .required place 0 docs) (∀ doc ∈ docs, doc.Stands [.heritage]) := by
  rw [decodeParents_eq_readAll]
  refine accepts_readAll (fun doc hdoc ↦ ?_) place 0
  exact (hdocs doc hdoc).fitting (fun n ↦ n.slotsByKind.heritage) .unexpected

theorem accepts_members :
    Accepts (decodeMembers .required place 0 docs) (∀ doc ∈ docs, doc.Stands Kind.members) := by
  rw [decodeMembers_eq_readAll]
  refine accepts_readAll (fun doc hdoc ↦ ?_) place 0
  exact (hdocs doc hdoc).fitting (fun n ↦ n.slotsByKind.member) .notMember

theorem accepts_decls :
    Accepts (decodeDecls .required place 0 docs) (∀ doc ∈ docs, doc.Stands Kind.declarations) := by
  rw [decodeDecls_eq_readAll]
  refine accepts_readAll (fun doc hdoc ↦ ?_) place 0
  exact (hdocs doc hdoc).fitting (fun n ↦ n.slotsByKind.decl) .notDeclaration

theorem accepts_modules :
    Accepts (decodeModules .required place 0 docs) (∀ doc ∈ docs, doc.Stands [.moduleDecl]) := by
  rw [decodeModules_eq_readAll]
  exact accepts_readAll (fun doc hdoc ↦ (hdocs doc hdoc).module) place 0

end Lists

/-! ### Records -/

/-- A record is accepted exactly when it is grammatical if the documents in its fields are. The
decoder asks for the fields of a kind one after the other, so its conditions come in its order. -/
theorem accepts_record {record : Record}
    (hannotated : record.fields.annotations.all Option.isSome = true)
    (hvalued : record.fields.tokens.all Option.isSome = true)
    (hbelow : ∀ field : Field, ∀ doc ∈ field.documents record, doc.ReadsByGrammar)
    (place : Place) :
    Accepts (record.decode .required place) (Document.node record).Grammatical := by
  obtain ⟨f, typeParameters, parents, members, parameters, type, params, constraints, default,
    declarations, submodules⟩ := record
  have hname := accepts_requiredName place f
  have htext := accepts_requiredText place f
  have hoptional := accepts_optionalName (place.field "name") f.name
  have hshort := accepts_optionalName (place.field "short_name") f.shortName
  have himports := accepts_imports (place.field "imports") 0 f.imports
  have hannotations := accepts_present (fun a ↦ DeclTree.Annotation.mk a.name a.params) hannotated
  have htokens := accepts_present (fun t ↦ DeclTree.Token.mk t.value t.literal) hvalued
  have huid := accepts_uid place f
  have hreceiver := accepts_receiver place f
  have htypeParams := accepts_typeParams (hbelow .typeParameters) (place.field "type_parameters")
  have hparents := accepts_parents (hbelow .parents) (place.field "parents")
  have hmembers := accepts_members (hbelow .members) (place.field "members")
  have hparams := accepts_params (hbelow .parameters) (place.field "parameters")
  have htype := accepts_slot (hbelow .type) (place.field "type")
  have hargs := accepts_types (hbelow .params) (place.field "params")
  have hconstraints := accepts_types (hbelow .constraints) (place.field "constraints")
  have hdefault := accepts_slot (hbelow .default) (place.field "default")
  have hdecls := accepts_decls (hbelow .declarations) (place.field "declarations")
  have hmodules := accepts_modules (hbelow .submodules) (place.field "submodules")
  unfold Record.decode
  cases hkind : Kind.ofText? f.kind with
  | none =>
    refine (accepts_refuse _ _).of_iff (iff_of_false not_false ?_)
    rintro ⟨hknown, -⟩
    exact Option.some_ne_none _ (hknown.symm.trans hkind)
  | some kind =>
    rw [grammatical_node_iff hkind]
    cases kind with
    | moduleDecl =>
      refine (hannotations.bind fun _ ↦ hdecls.bind fun _ ↦ hmodules.bind fun _ ↦
        hoptional.bind fun _ ↦ hshort.bind fun _ ↦ himports.bind fun _ ↦ accepts_pure _).of_iff ?_
      -- the nodes of a module are read before its plain fields
      simp [Kind.fields, and_assoc, and_comm, and_left_comm]
    | classDecl =>
      refine (hname.bind fun _ ↦ huid.bind fun _ ↦ htypeParams.bind fun _ ↦ hparents.bind fun _ ↦
        hmembers.bind fun _ ↦ accepts_pure _).of_iff ?_
      simp [Kind.fields, and_assoc]
    | interfaceDecl =>
      refine (hname.bind fun _ ↦ huid.bind fun _ ↦ htypeParams.bind fun _ ↦ hparents.bind fun _ ↦
        hmembers.bind fun _ ↦ accepts_pure _).of_iff ?_
      simp [Kind.fields, and_assoc]
    | objectDecl =>
      refine (hname.bind fun _ ↦ huid.bind fun _ ↦ hparents.bind fun _ ↦ hmembers.bind fun _ ↦
        accepts_pure _).of_iff ?_
      simp [Kind.fields, and_assoc]
    | functionDecl =>
      refine (hname.bind fun _ ↦ huid.bind fun _ ↦ htypeParams.bind fun _ ↦ hparams.bind fun _ ↦
        htype.bind fun _ ↦ hreceiver.bind fun _ ↦ accepts_pure _).of_iff ?_
      simp [Kind.fields, and_assoc]
    | variableDecl =>
      refine (hname.bind fun _ ↦ htype.bind fun _ ↦ hreceiver.bind fun _ ↦ accepts_pure _).of_iff ?_
      simp [Kind.fields, and_assoc]
    | aliasDecl =>
      refine (hname.bind fun _ ↦ huid.bind fun _ ↦ htypeParams.bind fun _ ↦ htype.bind fun _ ↦
        accepts_pure _).of_iff ?_
      simp [Kind.fields, and_assoc]
    | enumDecl =>
      refine (htokens.bind fun _ ↦ hname.bind fun _ ↦ huid.bind fun _ ↦ accepts_pure _).of_iff ?_
      simp [Kind.fields, and_assoc]
    | method =>
      refine (htext.bind fun _ ↦ htypeParams.bind fun _ ↦ hparams.bind fun _ ↦ htype.bind fun _ ↦
        accepts_pure _).of_iff ?_
      simp [Kind.fields]
    | property =>
      refine (htext.bind fun _ ↦ htypeParams.bind fun _ ↦ htype.bind fun _ ↦
        accepts_pure _).of_iff ?_
      simp [Kind.fields]
    | constructor =>
      refine (htypeParams.bind fun _ ↦ hparams.bind fun _ ↦ accepts_pure _).of_iff ?_
      simp [Kind.fields]
    | param =>
      refine (htext.bind fun _ ↦ htype.bind fun _ ↦ accepts_pure _).of_iff ?_
      simp [Kind.fields]
    | typeParam =>
      refine (hname.bind fun _ ↦ hconstraints.bind fun _ ↦ hdefault.bind fun _ ↦
        accepts_pure _).of_iff ?_
      simp [Kind.fields, and_assoc]
    | heritage =>
      refine (hname.bind fun _ ↦ hargs.bind fun _ ↦ accepts_pure _).of_iff ?_
      simp [Kind.fields, and_assoc]
    | namedType =>
      refine (hname.bind fun _ ↦ hargs.bind fun _ ↦ accepts_pure _).of_iff ?_
      simp [Kind.fields, and_assoc]
    | functionType =>
      refine (hparams.bind fun _ ↦ htype.bind fun _ ↦ accepts_pure _).of_iff ?_
      simp [Kind.fields]
    | unionType =>
      refine (hargs.bind fun _ ↦ accepts_pure _).of_iff ?_
      simp [Kind.fields]
    | selfType =>
      refine (accepts_pure _).of_iff ?_
      simp [Kind.fields]
    | generatedType =>
      refine (hname.bind fun _ ↦ htypeParams.bind fun _ ↦ accepts_pure _).of_iff ?_
      simp [Kind.fields, and_assoc]

/-! ### Documents -/

/-- What holds in each field that holds nodes holds of all documents in the fields. -/
theorem forall_documents {P : Document → Prop} {record : Record}
    (htypeParameters : ∀ doc ∈ record.typeParameters, P doc)
    (hparents : ∀ doc ∈ record.parents, P doc) (hmembers : ∀ doc ∈ record.members, P doc)
    (hparameters : ∀ doc ∈ record.parameters, P doc) (htype : P record.type)
    (hparams : ∀ doc ∈ record.params, P doc) (hconstraints : ∀ doc ∈ record.constraints, P doc)
    (hdefault : P record.default) (hdeclarations : ∀ doc ∈ record.declarations, P doc)
    (hsubmodules : ∀ doc ∈ record.submodules, P doc) (field : Field) :
    ∀ doc ∈ field.documents record, P doc := by
  have hfilled : ∀ {slot : Document}, P slot → ∀ doc ∈ slot.filled, P doc := by
    intro slot hslot doc hdoc
    cases slot with
    | null => exact nomatch hdoc
    | node record => exact List.mem_singleton.mp hdoc ▸ hslot
  cases field with
  | typeParameters => exact htypeParameters
  | parents => exact hparents
  | members => exact hmembers
  | parameters => exact hparameters
  | type => exact hfilled htype
  | params => exact hparams
  | constraints => exact hconstraints
  | default => exact hfilled hdefault
  | declarations => exact hdeclarations
  | submodules => exact hsubmodules
  | _ => exact List.forall_mem_nil P

/-- What passes from the documents in the fields of a record to the record holds of every
document. -/
theorem induct {P : Document → Prop} (null : P .null)
    (node : ∀ record, (∀ field : Field, ∀ doc ∈ field.documents record, P doc) → P (.node record))
    (doc : Document) : P doc := by
  have hstorey : Storey P fun record ↦ P (.node record) :=
    { null
      node := fun _ hrecord ↦ hrecord
      record := fun _ _ _ _ _ _ _ _ _ _ _ htypeParameters hparents hmembers hparameters htype
          hparams hconstraints hdefault hdeclarations hsubmodules ↦
        node _ (forall_documents htypeParameters hparents hmembers hparameters htype hparams
          hconstraints hdefault hdeclarations hsubmodules) }
  exact hstorey.forDocument doc

theorem of_isSolid_node {record : Record} (hsolid : (Document.node record).isSolid = true) :
    record.fields.annotations.all Option.isSome = true ∧
      record.fields.tokens.all Option.isSome = true ∧
      ∀ field : Field, ∀ doc ∈ field.documents record, doc.isSolid = true := by
  obtain ⟨f, typeParameters, parents, members, parameters, type, params, constraints, default,
    declarations, submodules⟩ := record
  simp only [isSolid, Record.isSolid, Bool.and_eq_true, allSolid_iff, and_assoc] at hsolid
  obtain ⟨hannotations, htokens, htypeParameters, hparents, hmembers, hparameters, htype, hparams,
    hconstraints, hdefault, hdeclarations, hsubmodules⟩ := hsolid
  exact ⟨hannotations, htokens, forall_documents htypeParameters hparents hmembers hparameters htype
    hparams hconstraints hdefault hdeclarations hsubmodules⟩

theorem readsByGrammar_of_isSolid {doc : Document} (hsolid : doc.isSolid = true) :
    doc.ReadsByGrammar := by
  induction doc using Document.induct with
  | null =>
    intro place
    exact (accepts_refuse _ _).of_iff (iff_of_false not_false not_grammatical_null)
  | node record ih =>
    obtain ⟨hannotations, htokens, hbelow⟩ := of_isSolid_node hsolid
    exact accepts_record hannotations htokens fun field doc hdoc ↦
      ih field doc hdoc (hbelow field doc hdoc)

/-! ### Fields that are not read -/

/-- Decoding a document is decoding its normal form. -/
def ReadsAsNormal (policy : UidPolicy) (doc : Document) : Prop :=
  ∀ place, decode policy place doc.normal = decode policy place doc

theorem readAll_normalAll {α : Type} {read : Place → Document → Decoding α} {docs : List Document}
    (hread : ∀ doc ∈ docs, ∀ place, read place doc.normal = read place doc) (place : Place)
    (i : Nat) : readAll read place i (normalAll docs) = readAll read place i docs := by
  induction docs generalizing i with
  | nil => rfl
  | cons doc docs ih =>
    obtain ⟨hdoc, hdocs⟩ := List.forall_mem_cons.mp hread
    rw [normalAll, readAll, readAll, hdoc, ih hdocs]

section Lists

variable {policy : UidPolicy}

theorem ReadsAsNormal.type {doc : Document} (hdoc : doc.ReadsAsNormal policy) (place : Place) :
    readType policy place doc.normal = readType policy place doc := by
  cases doc with
  | null => rfl
  | node record => exact congrArg (· >>= fit place Node.type? .notType) (hdoc place)

theorem Record.kind_normal (record : Record) : record.normal.fields.kind = record.fields.kind := by
  obtain ⟨f, typeParameters, parents, members, parameters, type, params, constraints, default,
    declarations, submodules⟩ := record
  unfold Record.normal
  split
  · rfl
  · rfl

theorem ReadsAsNormal.module {doc : Document} (hdoc : doc.ReadsAsNormal policy) (place : Place) :
    decodeModule policy place doc.normal = decodeModule policy place doc := by
  cases doc with
  | null => rfl
  | node record =>
    have hrequire :
        requireModule place record.normal.fields = requireModule place record.fields := by
      simp only [requireModule, record.kind_normal]
    have hrecord : record.normal.decode policy place = record.decode policy place := hdoc place
    rw [normal, decodeModule, decodeModule, hrequire, hrecord]

theorem slot_normal (doc : Document) (hdoc : ∀ x ∈ doc.filled, x.ReadsAsNormal policy)
    (place : Place) : decodeSlot policy place doc.normal = decodeSlot policy place doc := by
  cases doc with
  | null => rfl
  | node record =>
    have hrecord : record.normal.decode policy place = record.decode policy place :=
      hdoc _ (List.mem_singleton_self _) place
    rw [normal, decodeSlot, decodeSlot, hrecord]

variable (docs : List Document) (hdocs : ∀ doc ∈ docs, doc.ReadsAsNormal policy) (place : Place)
include hdocs

theorem readFitting_normalAll {α : Type} (fits : Node → Option α) (flaw : Kind → Flaw) :
    readAll (readFitting policy fits flaw) place 0 (normalAll docs) =
      readAll (readFitting policy fits flaw) place 0 docs := by
  refine readAll_normalAll (fun doc hdoc place ↦ ?_) place 0
  exact congrArg (· >>= fit place fits flaw) (hdocs doc hdoc place)

theorem typeParams_normalAll :
    decodeTypeParams policy place 0 (normalAll docs) = decodeTypeParams policy place 0 docs := by
  simp only [decodeTypeParams_eq_readAll]
  exact readFitting_normalAll docs hdocs place _ _

theorem params_normalAll :
    decodeParams policy place 0 (normalAll docs) = decodeParams policy place 0 docs := by
  simp only [decodeParams_eq_readAll]
  exact readFitting_normalAll docs hdocs place _ _

theorem parents_normalAll :
    decodeParents policy place 0 (normalAll docs) = decodeParents policy place 0 docs := by
  simp only [decodeParents_eq_readAll]
  exact readFitting_normalAll docs hdocs place _ _

theorem members_normalAll :
    decodeMembers policy place 0 (normalAll docs) = decodeMembers policy place 0 docs := by
  simp only [decodeMembers_eq_readAll]
  exact readFitting_normalAll docs hdocs place _ _

theorem decls_normalAll :
    decodeDecls policy place 0 (normalAll docs) = decodeDecls policy place 0 docs := by
  simp only [decodeDecls_eq_readAll]
  exact readFitting_normalAll docs hdocs place _ _

theorem types_normalAll :
    decodeTypes policy place 0 (normalAll docs) = decodeTypes policy place 0 docs := by
  simp only [decodeTypes_eq_readAll]
  exact readAll_normalAll (fun doc hdoc ↦ (hdocs doc hdoc).type) place 0

theorem modules_normalAll :
    decodeModules policy place 0 (normalAll docs) = decodeModules policy place 0 docs := by
  simp only [decodeModules_eq_readAll]
  exact readAll_normalAll (fun doc hdoc ↦ (hdocs doc hdoc).module) place 0

end Lists

theorem Fields.provenance_normal (f : Fields) (kind : Kind) (htags : Field.tags ∈ kind.fields) :
    (f.normal kind).provenance = f.provenance := by
  have hkeep : (f.normal kind).tags = f.tags.eraseDups := if_pos htags
  rw [Fields.provenance, hkeep, ← Fields.provenance_tags]
  exact Provenance.ofList_tags f.provenance_wellFormed

/-- Of a record, only the fields of its kind are read. -/
theorem decode_record_normal {policy : UidPolicy} {record : Record}
    (hbelow : ∀ field : Field, ∀ doc ∈ field.documents record, doc.ReadsAsNormal policy)
    (place : Place) : record.normal.decode policy place = record.decode policy place := by
  obtain ⟨f, typeParameters, parents, members, parameters, type, params, constraints, default,
    declarations, submodules⟩ := record
  have htypeParams :=
    typeParams_normalAll typeParameters (hbelow .typeParameters) (place.field "type_parameters")
  have hparents := parents_normalAll parents (hbelow .parents) (place.field "parents")
  have hmembers := members_normalAll members (hbelow .members) (place.field "members")
  have hparams := params_normalAll parameters (hbelow .parameters) (place.field "parameters")
  have htype := slot_normal type (hbelow .type) (place.field "type")
  have hargs := types_normalAll params (hbelow .params) (place.field "params")
  have hconstraints := types_normalAll constraints (hbelow .constraints) (place.field "constraints")
  have hdefault := slot_normal default (hbelow .default) (place.field "default")
  have hdecls := decls_normalAll declarations (hbelow .declarations) (place.field "declarations")
  have hmodules := modules_normalAll submodules (hbelow .submodules) (place.field "submodules")
  have hkept : ∀ kind, (f.normal kind).kind = f.kind := fun _ ↦ rfl
  unfold Record.normal
  cases hkind : Kind.ofText? f.kind with
  | none => rfl
  | some kind =>
    have htags := f.provenance_normal kind
    -- the normal form keeps what the kind reads, so that both sides read the same fields
    cases kind with
    | moduleDecl =>
      simp only [Record.decode, hkept, hkind]
      rw [← hdecls, ← hmodules]
      rfl
    | classDecl =>
      simp only [Record.decode, hkept, hkind]
      rw [htags (by decide), ← htypeParams, ← hparents, ← hmembers]
      rfl
    | interfaceDecl =>
      simp only [Record.decode, hkept, hkind]
      rw [htags (by decide), ← htypeParams, ← hparents, ← hmembers]
      rfl
    | objectDecl =>
      simp only [Record.decode, hkept, hkind]
      rw [htags (by decide), ← hparents, ← hmembers]
      rfl
    | functionDecl =>
      simp only [Record.decode, hkept, hkind]
      rw [htags (by decide), ← htypeParams, ← hparams, ← htype]
      rfl
    | variableDecl =>
      simp only [Record.decode, hkept, hkind]
      rw [htags (by decide), ← htype]
      rfl
    | aliasDecl =>
      simp only [Record.decode, hkept, hkind]
      rw [htags (by decide), ← htypeParams, ← htype]
      rfl
    | enumDecl =>
      simp only [Record.decode, hkept, hkind]
      rfl
    | method =>
      simp only [Record.decode, hkept, hkind]
      rw [← htypeParams, ← hparams, ← htype]
      rfl
    | property =>
      simp only [Record.decode, hkept, hkind]
      rw [← htypeParams, ← htype]
      rfl
    | constructor =>
      simp only [Record.decode, hkept, hkind]
      rw [← htypeParams, ← hparams]
      rfl
    | param =>
      simp only [Record.decode, hkept, hkind]
      rw [← htype]
      rfl
    | typeParam =>
      simp only [Record.decode, hkept, hkind]
      rw [← hconstraints, ← hdefault]
      rfl
    | heritage =>
      simp only [Record.decode, hkept, hkind]
      rw [← hargs]
      rfl
    | namedType =>
      simp only [Record.decode, hkept, hkind]
      rw [htags (by decide), ← hargs]
      rfl
    | functionType =>
      simp only [Record.decode, hkept, hkind]
      rw [htags (by decide), ← hparams, ← htype]
      rfl
    | unionType =>
      simp only [Record.decode, hkept, hkind]
      rw [htags (by decide), ← hargs]
      rfl
    | selfType =>
      simp only [Record.decode, hkept, hkind]
      rw [htags (by decide)]
      rfl
    | generatedType =>
      simp only [Record.decode, hkept, hkind]
      rw [htags (by decide), ← htypeParams]
      rfl

theorem readsAsNormal (policy : UidPolicy) (doc : Document) : doc.ReadsAsNormal policy := by
  induction doc using Document.induct with
  | null => exact fun _ ↦ rfl
  | node record ih => exact decode_record_normal ih

/-! ### The language of the decoder -/

theorem exists_toModule_iff {policy : UidPolicy} {doc : Document} {c : Prop}
    (hdoc : Accepts (decodeModule policy [] doc) c) :
    (∃ m, doc.toModule policy = .ok m) ↔ c := by
  rw [← hdoc 0]
  change (∃ m, Except.map Prod.fst (decodeModule policy [] doc 0) = .ok m) ↔ _
  cases decodeModule policy [] doc 0 with
  | error refusal => exact iff_of_false nofun nofun
  | ok result => exact iff_of_true ⟨result.1, rfl⟩ ⟨result.1, result.2, rfl⟩

/-- Documents with the same normal form are decoded alike. -/
theorem toModule_congr_normal (policy : UidPolicy) {doc doc' : Document}
    (hnormal : doc'.normal = doc.normal) : doc'.toModule policy = doc.toModule policy := by
  have hroot : decodeModule policy [] doc' = decodeModule policy [] doc :=
    calc decodeModule policy [] doc'
        = decodeModule policy [] doc'.normal := ((readsAsNormal policy doc').module []).symm
      _ = decodeModule policy [] doc.normal := by rw [hnormal]
      _ = decodeModule policy [] doc := (readsAsNormal policy doc).module []
  rw [toModule, toModule, hroot]

/-- Without nulls among annotations and tokens, a document is decoded to a tree exactly when its
root has kind module and it is grammatical. What its nodes do not read has no part in how decoding
ends: documents that have the same normal form end alike. -/
theorem accepts_exactly_grammar {doc : Document} (hsolid : doc.isSolid = true) :
    ((∃ m, doc.toModule .required = .ok m) ↔
        doc.kind? = some .moduleDecl ∧ doc.Grammatical) ∧
      ∀ doc' : Document, doc'.normal = doc.normal →
        doc'.toModule .required = doc.toModule .required := by
  constructor
  · have hmodule := (readsByGrammar_of_isSolid hsolid).module []
    rw [exists_toModule_iff hmodule, Stands]
    simp
  · exact fun _ hnormal ↦ toModule_congr_normal .required hnormal

theorem clutteredDocument_grammatical :
    clutteredDocument.isSolid = true ∧ clutteredDocument.kind? = some .moduleDecl ∧
      clutteredDocument.Grammatical ∧
      clutteredDocument.normal.toModule .required = clutteredDocument.toModule .required := by
  have hsolid : clutteredDocument.isSolid = true := by rfl
  have hread : clutteredDocument.toModule .required = .ok clutteredModule := by rfl
  obtain ⟨haccepts, hunread⟩ := accepts_exactly_grammar hsolid
  obtain ⟨hkind, hgrammatical⟩ := haccepts.mp ⟨clutteredModule, hread⟩
  exact ⟨hsolid, hkind, hgrammatical, hunread clutteredDocument.normal (by rfl)⟩

end Document

end DeclTree
