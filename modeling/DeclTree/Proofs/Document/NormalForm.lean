import DeclTree.Proofs.Document.Decoded
import DeclTree.Proofs.Document.RoundTrip

/-!
# The normal form of a document

All nodes share one record, and the decoder reads only the fields that belong to the kind of a node.
`Kind.fields` lists them. A document is in normal form when every node has its own fields only and
no tag twice; `Document.normal` brings a document into that form without decoding it.

What the decoder accepts it accepts up to normal form: encoding the decoded tree gives the normal
form of the document, and decoding the normal form gives the same tree.
-/

set_option autoImplicit false
set_option relaxedAutoImplicit false

namespace DeclTree

namespace Document

/-! ### Normal forms -/

/-- The fields that a node can have besides its kind. -/
inductive Field where
  | name
  | shortName
  | uid
  | reference
  | isNullable
  | isAbstract
  | isExported
  | isGenerated
  | isInline
  | isOperator
  | isImmutable
  | isStatic
  | isOverride
  | hasGetter
  | hasSetter
  | isOpen
  | isOptional
  | isVararg
  | tags
  | typeParameters
  | parents
  | members
  | parameters
  | type
  | params
  | constraints
  | default
  | receiver
  | tokens
  | declarations
  | submodules
  | imports
  | annotations
  deriving DecidableEq, Repr

end Document

open Document (Field)

/-- The fields that belong to a node of a kind. -/
def Kind.fields : Kind → List Field
  | .moduleDecl =>
    [.name, .shortName, .uid, .imports, .annotations, .declarations, .submodules]
  | .classDecl =>
    [.name, .uid, .isAbstract, .isExported, .tags, .typeParameters, .parents, .members]
  | .interfaceDecl =>
    [.name, .uid, .isGenerated, .isExported, .tags, .typeParameters, .parents, .members]
  | .objectDecl => [.name, .uid, .isExported, .tags, .parents, .members]
  | .functionDecl =>
    [.name, .uid, .isInline, .isOperator, .isExported, .tags, .typeParameters, .parameters, .type,
      .receiver]
  | .variableDecl => [.name, .isImmutable, .isInline, .isExported, .tags, .type, .receiver]
  | .aliasDecl => [.name, .uid, .tags, .typeParameters, .type]
  | .enumDecl => [.name, .uid, .tokens]
  | .method => [.name, .isStatic, .isOverride, .isOperator, .typeParameters, .parameters, .type]
  | .property =>
    [.name, .isStatic, .isOverride, .hasGetter, .hasSetter, .isOpen, .typeParameters, .type]
  | .constructor => [.typeParameters, .parameters]
  | .namedType => [.name, .reference, .isNullable, .tags, .params]
  | .functionType => [.isNullable, .tags, .parameters, .type]
  | .unionType => [.isNullable, .tags, .params]
  | .selfType => [.isNullable, .tags]
  | .generatedType => [.name, .reference, .isNullable, .tags, .typeParameters]
  | .param => [.name, .isOptional, .isVararg, .type]
  | .typeParam => [.name, .constraints, .default]
  | .heritage => [.name, .reference, .params]

/-- The value of a field where it belongs to the kind, and the value for nothing elsewhere. -/
def Kind.keep {α : Type} (kind : Kind) (field : Field) (value nothing : α) : α :=
  if field ∈ kind.fields then value else nothing

namespace Document

/-- The plain fields that belong to a kind, with each tag at its first place. -/
def Fields.normal (kind : Kind) (f : Fields) : Fields where
  kind := f.kind
  name := kind.keep .name f.name ""
  shortName := kind.keep .shortName f.shortName ""
  uid := kind.keep .uid f.uid ""
  reference := kind.keep .reference f.reference ""
  isNullable := kind.keep .isNullable f.isNullable false
  isAbstract := kind.keep .isAbstract f.isAbstract false
  isExported := kind.keep .isExported f.isExported false
  isGenerated := kind.keep .isGenerated f.isGenerated false
  isInline := kind.keep .isInline f.isInline false
  isOperator := kind.keep .isOperator f.isOperator false
  isImmutable := kind.keep .isImmutable f.isImmutable false
  isStatic := kind.keep .isStatic f.isStatic false
  isOverride := kind.keep .isOverride f.isOverride false
  hasGetter := kind.keep .hasGetter f.hasGetter false
  hasSetter := kind.keep .hasSetter f.hasSetter false
  isOpen := kind.keep .isOpen f.isOpen false
  isOptional := kind.keep .isOptional f.isOptional false
  isVararg := kind.keep .isVararg f.isVararg false
  tags := kind.keep .tags f.tags.eraseDups []
  receiver := kind.keep .receiver f.receiver none
  tokens := kind.keep .tokens f.tokens []
  imports := kind.keep .imports f.imports []
  annotations := kind.keep .annotations f.annotations []

mutual

/-- The document without what its nodes do not read. -/
def normal : Document → Document
  | .null => .null
  | .node record => .node (Record.normal record)

/-- The record without what it does not read; a node of no kind is left as it is. -/
def Record.normal : Record → Record
  | ⟨f, typeParameters, parents, members, parameters, type, params, constraints, default,
      declarations, submodules⟩ =>
    match Kind.ofText? f.kind with
    | none =>
      ⟨f, typeParameters, parents, members, parameters, type, params, constraints, default,
        declarations, submodules⟩
    | some kind =>
      ⟨f.normal kind, kind.keep .typeParameters (normalAll typeParameters) [],
        kind.keep .parents (normalAll parents) [], kind.keep .members (normalAll members) [],
        kind.keep .parameters (normalAll parameters) [], kind.keep .type (normal type) .null,
        kind.keep .params (normalAll params) [], kind.keep .constraints (normalAll constraints) [],
        kind.keep .default (normal default) .null,
        kind.keep .declarations (normalAll declarations) [],
        kind.keep .submodules (normalAll submodules) []⟩

def normalAll : List Document → List Document
  | [] => []
  | doc :: docs => normal doc :: normalAll docs

end

end Document

theorem Kind.text_of_ofText? {text : String} {kind : Kind} (h : Kind.ofText? text = some kind) :
    kind.text = text := by
  simpa using List.find?_some h

end DeclTree

namespace DeclTree

/-! ### Writing nodes -/

/-- Writes a node, whatever its storey. -/
def Node.encode : Node → Encoding Document
  | .module m => m.encode
  | .classLike head members => (Member.classLike head members).encode
  | .function f => f.encode
  | .var v => v.encode
  | .typeAlias a => a.encode
  | .enum e => .ok e.encode
  | .foreign label => .error (Document.unwritable label)
  | .method m => (Member.method m).encode
  | .property p => (Member.property p).encode
  | .constructor c => (Member.constructor c).encode
  | .type t => t.encode
  | .param p => p.encode
  | .typeParam p => p.encode
  | .heritage h => h.encode
  | .missing => .ok .null

namespace Node

theorem encode_of_decl? {n : Node} {d : Decl} (hd : n.decl? = some d) : d.encode = n.encode := by
  obtain rfl := node_of_decl? hd
  cases d with
  | _ => rfl

theorem encode_of_member? {n : Node} {m : Member} (hm : n.member? = some m) :
    m.encode = n.encode := by
  obtain rfl := node_of_member? hm
  cases m with
  | _ => rfl

theorem encode_of_module? {n : Node} {m : Module} (hm : n.module? = some m) :
    m.encode = n.encode := by
  obtain rfl := node_of_module? hm
  rfl

theorem encode_of_type? {n : Node} {t : Ty} (ht : n.type? = some t) : t.encode = n.encode := by
  obtain rfl := node_of_type? ht
  rfl

theorem encode_of_param? {n : Node} {p : Param} (hp : n.param? = some p) :
    p.encode = n.encode := by
  obtain rfl := node_of_param? hp
  rfl

theorem encode_of_typeParam? {n : Node} {p : TypeParam} (hp : n.typeParam? = some p) :
    p.encode = n.encode := by
  obtain rfl := node_of_typeParam? hp
  rfl

theorem encode_of_heritage? {n : Node} {h : Heritage} (hh : n.heritage? = some h) :
    h.encode = n.encode := by
  obtain rfl := node_of_heritage? hh
  rfl

end Node

namespace Document

open Decoding

/-! ### Plain fields -/

theorem yields_nameAt_render (place : Place) (text : String) :
    Yields (nameAt place text) fun name ↦ name.render = text := by
  unfold nameAt
  split
  · next name hparse => exact yields_pure (Name.parse_eq_ok_iff.mp hparse).2
  · exact yields_refuse _ _

theorem yields_requiredName_render (place : Place) (f : Fields) :
    Yields (requiredName place f) fun name ↦ name.render = f.name := by
  unfold requiredName
  split
  · exact yields_refuse _ _
  · exact yields_nameAt_render _ _

theorem yields_requiredText_eq (place : Place) (f : Fields) :
    Yields (requiredText place f) fun name ↦ name = f.name := by
  unfold requiredText
  split
  · exact yields_refuse _ _
  · exact yields_pure rfl

theorem yields_optionalName_text? (place : Place) (text : String) :
    Yields (optionalName place text) fun name ↦ Name.text? name = text := by
  unfold optionalName
  split
  · next hempty => exact yields_pure hempty.symm
  · rw [map_eq_pure_bind]
    refine yields_bind (yields_nameAt_render _ _) fun name hname ↦ ?_
    exact yields_pure hname

theorem yields_namesAt_render (place : Place) (texts : List String) :
    Yields (namesAt place texts) fun names ↦ names.map Name.render = texts := by
  induction texts with
  | nil => exact yields_pure rfl
  | cons text texts ih =>
    refine yields_bind (yields_nameAt_render _ _) fun name hname ↦ ?_
    refine yields_bind ih fun names hnames ↦ ?_
    exact yields_pure (by rw [List.map_cons, hname, hnames])

theorem yields_imports_render (place : Place) (i : Nat) (texts : List String) :
    Yields (imports place i texts) fun names ↦ names.map Name.render = texts := by
  induction texts generalizing i with
  | nil => exact yields_pure rfl
  | cons text texts ih =>
    refine yields_bind (yields_nameAt_render _ _) fun name hname ↦ ?_
    refine yields_bind (ih (i + 1)) fun names hnames ↦ ?_
    exact yields_pure (by rw [List.map_cons, hname, hnames])

theorem yields_receiver_encode (place : Place) (f : Fields) :
    Yields (receiver place f) fun r ↦ r.map DeclTree.Receiver.encode = f.receiver := by
  unfold receiver
  split
  · next hnone => exact yields_pure hnone.symm
  · next written hsome =>
    refine yields_bind (yields_nameAt_render _ _) fun name hname ↦ ?_
    refine yields_bind (yields_namesAt_render _ _) fun typeParams htypeParams ↦ ?_
    exact yields_pure (by
      rw [hsome, Option.map_some, DeclTree.Receiver.encode, hname, htypeParams])

theorem yields_uid_eq (place : Place) (f : Fields) :
    Yields (Decoding.uid .required place f) fun uid ↦ uid = f.uid := by
  unfold Decoding.uid
  split
  · exact yields_pure rfl
  · exact yields_refuse _ _

/-- The entries of a list without nulls are written again as they were. -/
theorem yields_present_map {α β : Type} {f : α → β} {g : β → α} (hgf : ∀ a, g (f a) = a)
    (entries : List (Option α)) :
    Yields (present f entries) fun bs ↦ (bs.map fun b ↦ some (g b)) = entries := by
  induction entries with
  | nil => exact yields_pure rfl
  | cons entry entries ih =>
    cases entry with
    | none => nofun
    | some a =>
      refine yields_bind ih fun bs hbs ↦ ?_
      exact yields_pure (by rw [List.map_cons, hgf, hbs])

theorem getD_reference? (text : String) : (Uid.reference? text).getD "" = text := by
  unfold Uid.reference?
  split
  · next hempty => exact hempty.symm
  · rfl

theorem Fields.provenance_tags (f : Fields) : f.provenance.tags = f.tags.eraseDups :=
  Provenance.tags_ofList f.tags

/-! ### Lists and slots -/

/-- What a document is decoded to is written as its normal form. -/
def Restored (doc : Document) : Prop :=
  ∀ place, Yields (decode .required place doc) fun n ↦ n.encode = .ok doc.normal

theorem yields_readAll_normal {α : Type} {read : Place → Document → Decoding α}
    {encode : α → Encoding Document} {docs : List Document}
    (hread : ∀ doc ∈ docs, ∀ place, Yields (read place doc) fun a ↦ encode a = .ok doc.normal)
    (place : Place) (i : Nat) :
    Yields (readAll read place i docs) fun as ↦ as.mapM encode = .ok (normalAll docs) := by
  induction docs generalizing i with
  | nil => exact yields_pure rfl
  | cons doc docs ih =>
    obtain ⟨hdoc, hdocs⟩ := List.forall_mem_cons.mp hread
    refine yields_bind (hdoc _) fun a ha ↦ ?_
    refine yields_bind (ih hdocs (i + 1)) fun as has ↦ ?_
    refine yields_pure ?_
    rw [List.mapM_cons, ha, has]
    rfl

theorem Restored.fitting {α : Type} {encode : α → Encoding Document} {fits : Node → Option α}
    (flaw : Kind → Flaw) (hfits : ∀ n a, fits n = some a → encode a = n.encode) {doc : Document}
    (hdoc : doc.Restored) (place : Place) :
    Yields (readFitting .required fits flaw place doc) fun a ↦ encode a = .ok doc.normal := by
  refine yields_bind (hdoc place) fun n hn ↦ ?_
  exact (yields_fit place fits flaw n).imp fun a ha ↦ (hfits n a ha).trans hn

theorem Restored.type {doc : Document} (hdoc : doc.Restored) (place : Place) :
    Yields (readType .required place doc) fun t ↦ t.encode = .ok doc.normal := by
  cases doc with
  | null => exact yields_refuse _ _
  | node record =>
    refine yields_bind (hdoc place) fun n hn ↦ ?_
    exact (yields_fit _ _ _ _).imp fun t ht ↦ (Node.encode_of_type? ht).trans hn

theorem Restored.module {doc : Document} (hdoc : doc.Restored) (place : Place) :
    Yields (decodeModule .required place doc) fun m ↦ m.encode = .ok doc.normal := by
  cases doc with
  | null => exact yields_refuse _ _
  | node record =>
    refine yields_bind (yields_true _) fun _ _ ↦ ?_
    refine yields_bind (hdoc place) fun n hn ↦ ?_
    exact (yields_fit _ _ _ _).imp fun m hm ↦ (Node.encode_of_module? hm).trans hn

theorem Restored.slot {doc : Document} (hdoc : doc.Restored) (place : Place) :
    Yields (decodeSlot .required place doc) fun slot ↦ Ty.encodeSlot slot = .ok doc.normal := by
  cases doc with
  | null => exact yields_pure rfl
  | node record =>
    refine yields_bind (hdoc place) fun n hn ↦ ?_
    refine yields_bind (yields_fit _ _ _ _) fun t ht ↦ ?_
    exact yields_pure ((Node.encode_of_type? ht).trans hn)

section Lists

variable {docs : List Document} (hdocs : ∀ doc ∈ docs, doc.Restored) (place : Place)
include hdocs

theorem yields_types_normal :
    Yields (decodeTypes .required place 0 docs) fun ts ↦
      Ty.encodeAll ts = .ok (normalAll docs) := by
  simp only [decodeTypes_eq_readAll, Ty.encodeAll_eq_mapM]
  exact yields_readAll_normal (fun doc hdoc ↦ (hdocs doc hdoc).type) place 0

theorem yields_params_normal :
    Yields (decodeParams .required place 0 docs) fun ps ↦
      Param.encodeAll ps = .ok (normalAll docs) := by
  simp only [decodeParams_eq_readAll, Param.encodeAll_eq_mapM]
  refine yields_readAll_normal (fun doc hdoc ↦ ?_) place 0
  exact (hdocs doc hdoc).fitting _ fun _ _ ↦ Node.encode_of_param?

theorem yields_typeParams_normal :
    Yields (decodeTypeParams .required place 0 docs) fun ps ↦
      TypeParam.encodeAll ps = .ok (normalAll docs) := by
  simp only [decodeTypeParams_eq_readAll, TypeParam.encodeAll_eq_mapM]
  refine yields_readAll_normal (fun doc hdoc ↦ ?_) place 0
  exact (hdocs doc hdoc).fitting _ fun _ _ ↦ Node.encode_of_typeParam?

theorem yields_parents_normal :
    Yields (decodeParents .required place 0 docs) fun hs ↦
      Heritage.encodeAll hs = .ok (normalAll docs) := by
  simp only [decodeParents_eq_readAll, Heritage.encodeAll_eq_mapM]
  refine yields_readAll_normal (fun doc hdoc ↦ ?_) place 0
  exact (hdocs doc hdoc).fitting _ fun _ _ ↦ Node.encode_of_heritage?

theorem yields_members_normal :
    Yields (decodeMembers .required place 0 docs) fun ms ↦
      Member.encodeAll ms = .ok (normalAll docs) := by
  simp only [decodeMembers_eq_readAll, Member.encodeAll_eq_mapM]
  refine yields_readAll_normal (fun doc hdoc ↦ ?_) place 0
  exact (hdocs doc hdoc).fitting _ fun _ _ ↦ Node.encode_of_member?

theorem yields_decls_normal :
    Yields (decodeDecls .required place 0 docs) fun ds ↦
      Decl.encodeAll ds = .ok (normalAll docs) := by
  simp only [decodeDecls_eq_readAll, Decl.encodeAll_eq_mapM]
  refine yields_readAll_normal (fun doc hdoc ↦ ?_) place 0
  exact (hdocs doc hdoc).fitting _ fun _ _ ↦ Node.encode_of_decl?

theorem yields_modules_normal :
    Yields (decodeModules .required place 0 docs) fun ms ↦
      Module.encodeAll ms = .ok (normalAll docs) := by
  simp only [decodeModules_eq_readAll, Module.encodeAll_eq_mapM]
  exact yields_readAll_normal (fun doc hdoc ↦ (hdocs doc hdoc).module) place 0

end Lists

/-! ### Records -/

theorem decode_restored :
    Storey Document.Restored
      (fun record ↦ ∀ place,
        Yields (record.decode .required place) fun n ↦ n.encode = .ok (.node record.normal)) where
  null place := yields_refuse _ _
  node record hrecord := hrecord
  record f typeParameters parents members parameters type params constraints default declarations
      submodules htypeParameters hparents hmembers hparameters htype hparams hconstraints hdefault
      hdeclarations hsubmodules place := by
    unfold Record.decode Record.normal
    cases hkind : Kind.ofText? f.kind with
    | none => exact yields_refuse _ _
    | some kind =>
      have htext := Kind.text_of_ofText? hkind
      cases kind with
      | moduleDecl =>
        refine yields_bind (yields_present_map (g := fun a ↦ ⟨a.name, a.params⟩) (fun _ ↦ rfl) _)
          fun annotations hannotations ↦ ?_
        refine yields_bind (yields_decls_normal hdeclarations _) fun ds hds ↦ ?_
        refine yields_bind (yields_modules_normal hsubmodules _) fun ms hms ↦ ?_
        refine yields_bind (yields_optionalName_text? _ _) fun name hname ↦ ?_
        refine yields_bind (yields_optionalName_text? _ _) fun shortName hshortName ↦ ?_
        refine yields_bind (yields_imports_render _ _ _) fun imports himports ↦ ?_
        refine yields_pure ?_
        rw [Node.encode, Module.encode, hds, hms, ModuleHead.fields, htext, hname, hshortName,
          himports, hannotations]
        rfl
      | classDecl =>
        refine yields_bind (yields_requiredName_render _ _) fun name hname ↦ ?_
        refine yields_bind (yields_uid_eq _ _) fun uid huid ↦ ?_
        refine yields_bind (yields_typeParams_normal htypeParameters _) fun tps htps ↦ ?_
        refine yields_bind (yields_parents_normal hparents _) fun hs hhs ↦ ?_
        refine yields_bind (yields_members_normal hmembers _) fun ms hms ↦ ?_
        refine yields_pure ?_
        simp only [Node.encode, Member.encode, ClassHead.typeParams, ClassForm.typeParams,
          ClassHead.fields, ClassForm.kind, htps, hhs, hms, htext, hname, huid,
          f.provenance_tags]
        rfl
      | interfaceDecl =>
        refine yields_bind (yields_requiredName_render _ _) fun name hname ↦ ?_
        refine yields_bind (yields_uid_eq _ _) fun uid huid ↦ ?_
        refine yields_bind (yields_typeParams_normal htypeParameters _) fun tps htps ↦ ?_
        refine yields_bind (yields_parents_normal hparents _) fun hs hhs ↦ ?_
        refine yields_bind (yields_members_normal hmembers _) fun ms hms ↦ ?_
        refine yields_pure ?_
        simp only [Node.encode, Member.encode, ClassHead.typeParams, ClassForm.typeParams,
          ClassHead.fields, ClassForm.kind, htps, hhs, hms, htext, hname, huid, f.provenance_tags]
        rfl
      | objectDecl =>
        refine yields_bind (yields_requiredName_render _ _) fun name hname ↦ ?_
        refine yields_bind (yields_uid_eq _ _) fun uid huid ↦ ?_
        refine yields_bind (yields_parents_normal hparents _) fun hs hhs ↦ ?_
        refine yields_bind (yields_members_normal hmembers _) fun ms hms ↦ ?_
        refine yields_pure ?_
        simp only [Node.encode, Member.encode, ClassHead.typeParams, ClassForm.typeParams,
          TypeParam.encodeAll, ClassHead.fields, ClassForm.kind, hhs, hms, htext, hname, huid,
          f.provenance_tags]
        rfl
      | functionDecl =>
        refine yields_bind (yields_requiredName_render _ _) fun name hname ↦ ?_
        refine yields_bind (yields_uid_eq _ _) fun uid huid ↦ ?_
        refine yields_bind (yields_typeParams_normal htypeParameters _) fun tps htps ↦ ?_
        refine yields_bind (yields_params_normal hparameters _) fun ps hps ↦ ?_
        refine yields_bind (htype.slot _) fun slot hslot ↦ ?_
        refine yields_bind (yields_receiver_encode _ _) fun receiver hreceiver ↦ ?_
        refine yields_pure ?_
        simp only [Node.encode, Function.encode, htps, hps, hslot, hreceiver, htext, hname, huid,
          f.provenance_tags]
        rfl
      | variableDecl =>
        refine yields_bind (yields_requiredName_render _ _) fun name hname ↦ ?_
        refine yields_bind (htype.slot _) fun slot hslot ↦ ?_
        refine yields_bind (yields_receiver_encode _ _) fun receiver hreceiver ↦ ?_
        refine yields_pure ?_
        simp only [Node.encode, Variable.encode, hslot, hreceiver, htext, hname, f.provenance_tags]
        rfl
      | aliasDecl =>
        refine yields_bind (yields_requiredName_render _ _) fun name hname ↦ ?_
        refine yields_bind (yields_uid_eq _ _) fun uid huid ↦ ?_
        refine yields_bind (yields_typeParams_normal htypeParameters _) fun tps htps ↦ ?_
        refine yields_bind (htype.slot _) fun slot hslot ↦ ?_
        refine yields_pure ?_
        simp only [Node.encode, TypeAlias.encode, htps, hslot, htext, hname, huid,
          f.provenance_tags]
        rfl
      | enumDecl =>
        refine yields_bind (yields_present_map (g := fun t ↦ ⟨t.value, t.literal⟩) (fun _ ↦ rfl) _)
          fun tokens htokens ↦ ?_
        refine yields_bind (yields_requiredName_render _ _) fun name hname ↦ ?_
        refine yields_bind (yields_uid_eq _ _) fun uid huid ↦ ?_
        refine yields_pure ?_
        simp only [Node.encode, Enum.encode, htext, hname, huid, htokens]
        rfl
      | method =>
        refine yields_bind (yields_requiredText_eq _ _) fun name hname ↦ ?_
        refine yields_bind (yields_typeParams_normal htypeParameters _) fun tps htps ↦ ?_
        refine yields_bind (yields_params_normal hparameters _) fun ps hps ↦ ?_
        refine yields_bind (htype.slot _) fun slot hslot ↦ ?_
        refine yields_pure ?_
        simp only [Node.encode, Member.encode, htps, hps, hslot, htext, hname]
        rfl
      | property =>
        refine yields_bind (yields_requiredText_eq _ _) fun name hname ↦ ?_
        refine yields_bind (yields_typeParams_normal htypeParameters _) fun tps htps ↦ ?_
        refine yields_bind (htype.slot _) fun slot hslot ↦ ?_
        refine yields_pure ?_
        simp only [Node.encode, Member.encode, htps, hslot, htext, hname]
        rfl
      | constructor =>
        refine yields_bind (yields_typeParams_normal htypeParameters _) fun tps htps ↦ ?_
        refine yields_bind (yields_params_normal hparameters _) fun ps hps ↦ ?_
        refine yields_pure ?_
        simp only [Node.encode, Member.encode, htps, hps, htext]
        rfl
      | param =>
        refine yields_bind (yields_requiredText_eq _ _) fun name hname ↦ ?_
        refine yields_bind (htype.slot _) fun slot hslot ↦ ?_
        refine yields_pure ?_
        simp only [Node.encode, Param.encode, hslot, htext, hname]
        rfl
      | typeParam =>
        refine yields_bind (yields_requiredName_render _ _) fun name hname ↦ ?_
        refine yields_bind (yields_types_normal hconstraints _) fun ts hts ↦ ?_
        refine yields_bind (hdefault.slot _) fun slot hslot ↦ ?_
        refine yields_pure ?_
        simp only [Node.encode, TypeParam.encode, hts, hslot, htext, hname]
        rfl
      | heritage =>
        refine yields_bind (yields_requiredName_render _ _) fun name hname ↦ ?_
        refine yields_bind (yields_types_normal hparams _) fun ts hts ↦ ?_
        refine yields_pure ?_
        simp only [Node.encode, Heritage.encode, hts, htext, hname, getD_reference?]
        rfl
      | namedType =>
        refine yields_bind (yields_requiredName_render _ _) fun name hname ↦ ?_
        refine yields_bind (yields_types_normal hparams _) fun ts hts ↦ ?_
        refine yields_pure ?_
        simp only [Node.encode, Ty.encode, hts, htext, hname, getD_reference?, f.provenance_tags]
        rfl
      | functionType =>
        refine yields_bind (yields_params_normal hparameters _) fun ps hps ↦ ?_
        refine yields_bind (htype.slot _) fun slot hslot ↦ ?_
        refine yields_pure ?_
        simp only [Node.encode, Ty.encode, hps, hslot, htext, f.provenance_tags]
        rfl
      | unionType =>
        refine yields_bind (yields_types_normal hparams _) fun ts hts ↦ ?_
        refine yields_pure ?_
        simp only [Node.encode, Ty.encode, hts, htext, f.provenance_tags]
        rfl
      | selfType =>
        refine yields_pure ?_
        simp only [Node.encode, Ty.encode, htext, f.provenance_tags]
        rfl
      | generatedType =>
        refine yields_bind (yields_requiredName_render _ _) fun name hname ↦ ?_
        refine yields_bind (yields_typeParams_normal htypeParameters _) fun tps htps ↦ ?_
        refine yields_pure ?_
        simp only [Node.encode, Ty.encode, htps, htext, hname, getD_reference?, f.provenance_tags]
        rfl

/-! ### Normal forms and the decoder -/

theorem wellFormed_of_toModule {doc : Document} {m : Module}
    (hm : doc.toModule .required = .ok m) : m.WellFormed :=
  every_of_toModule ⟨fun _ huid ↦ huid, trivial⟩ hm

/-- Encoding what was decoded gives the normal form of the document, and the normal form is decoded
to the same tree. -/
theorem encode_decoded {doc : Document} {m : Module} (hm : doc.toModule .required = .ok m) :
    m.encode = .ok doc.normal ∧ doc.normal.toModule .required = .ok m := by
  have hencode : m.encode = .ok doc.normal :=
    ((decode_restored.forDocument doc).module []).of_run' hm
  obtain ⟨written, hwritten, hread⟩ : ∃ written, m.encode = .ok written ∧
      ∀ place, decodeModule .required place written = pure m :=
    module_of_wellFormed (wellFormed_of_toModule hm)
  obtain rfl : doc.normal = written := Except.ok.inj (hencode.symm.trans hwritten)
  exact ⟨hencode, toModule_of_decodeModule (hread [])⟩

/-- A module with a class in which a tag is repeated and fields of other kinds are filled, one of
them with what no list could hold. -/
def clutteredDocument : Document :=
  .node
    { Record.ofFields { kind := "module", name := "lib.box", isStatic := true, tags := ["x"] } with
      params := [.null]
      declarations :=
        [.node
          { Record.ofFields
              { kind := "class", name := "Box", shortName := "..", uid := "class:Box",
                isNullable := true, tags := ["a", "b", "a"] } with
            members :=
              [.node
                { Record.ofFields { kind := "method", name := "get", uid := "u" } with
                  type := .node (Record.ofFields { kind := "this_type", name := "unread" }) }]
            declarations := [.node (Record.ofFields { kind := "nowhere" })] }] }

/-- The module that the document describes. -/
def clutteredModule : Module :=
  ⟨⟨some (.qualify (.ident "lib") "box"), none, "", [], []⟩,
    [.classLike ⟨.cls false [], .ident "Box", [], false, "class:Box", ⟨["a", "b"]⟩⟩
      [.method ⟨"get", [], [], some (.self false ⟨[]⟩), false, false, false⟩]],
    []⟩

theorem encode_clutteredModule :
    clutteredDocument.toModule .required = .ok clutteredModule ∧
      clutteredModule.encode = .ok clutteredDocument.normal ∧
      clutteredDocument.normal.toModule .required = .ok clutteredModule := by
  have hread : clutteredDocument.toModule .required = .ok clutteredModule := by rfl
  exact ⟨hread, encode_decoded hread⟩

end Document

end DeclTree
