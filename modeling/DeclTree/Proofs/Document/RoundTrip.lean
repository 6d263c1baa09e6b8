import DeclTree.Proofs.Document.Reading
import DeclTree.Proofs.Provenance
import DeclTree.Proofs.Tree.Induction
import DeclTree.Proofs.Tree.WellFormed
import Mathlib.Data.List.Forall2

/-!
# Reading back what was written

Writing a well-formed tree succeeds, and reading the document gives the tree back. All nodes share
one flat record, and a kind reads only the fields that are its own, so the argument runs kind by
kind: `Record.ReadsAs` says what a record reads as at every place, and the storeys of the tree
supply the lists and slots below it.

`Document.read_written` is the result for modules and for lists of modules.
-/

set_option autoImplicit false
set_option relaxedAutoImplicit false

namespace DeclTree

open Document Document.Decoding

/-! ### Plain fields -/

theorem Kind.ofText?_text (kind : Kind) : Kind.ofText? kind.text = some kind := by
  cases kind <;> rfl

theorem Uid.reference?_getD {target : Option Uid} (htarget : Uid.IsTarget target) :
    Uid.reference? (target.getD "") = target := by
  cases target with
  | none => rfl
  | some uid => exact if_neg fun hempty ↦ htarget (congrArg some hempty)

namespace Document

variable {policy : UidPolicy}

theorem nameAt_render {name : Name} (hname : name.WellFormed) (place : Place) :
    nameAt place name.render = pure name := by
  rw [nameAt, Name.parse_render hname]

theorem requiredName_render {f : Fields} {name : Name} (hf : f.name = name.render)
    (hname : name.WellFormed) (place : Place) : requiredName place f = pure name := by
  rw [requiredName, hf, if_neg (Name.render_ne_empty hname), nameAt_render hname]

theorem requiredText_eq {f : Fields} (hf : f.name ≠ "") (place : Place) :
    requiredText place f = pure f.name := if_neg hf

theorem uid_eq {f : Fields} (hf : f.uid ≠ "") (place : Place) :
    Decoding.uid policy place f = pure f.uid := if_pos hf

theorem optionalName_text? {name : Option Name} (hname : ∀ n ∈ name, n.WellFormed)
    (place : Place) : optionalName place (Name.text? name) = pure name := by
  cases name with
  | none => rfl
  | some name =>
    have hwell := hname name rfl
    rw [optionalName, Name.text?, if_neg (Name.render_ne_empty hwell), nameAt_render hwell,
      map_pure]

theorem namesAt_render {names : List Name} (hnames : ∀ n ∈ names, n.WellFormed) (place : Place) :
    namesAt place (names.map Name.render) = pure names := by
  induction names with
  | nil => rfl
  | cons name names ih =>
    obtain ⟨hname, hrest⟩ := List.forall_mem_cons.mp hnames
    rw [List.map_cons, namesAt, nameAt_render hname, pure_bind, ih hrest, pure_bind]

theorem imports_render {names : List Name} (hnames : ∀ n ∈ names, n.WellFormed) (place : Place)
    (i : Nat) : imports place i (names.map Name.render) = pure names := by
  induction names generalizing i with
  | nil => rfl
  | cons name names ih =>
    obtain ⟨hname, hrest⟩ := List.forall_mem_cons.mp hnames
    rw [List.map_cons, imports, nameAt_render hname, pure_bind, ih hrest, pure_bind]

theorem receiver_encode {f : Fields} {r : Option DeclTree.Receiver}
    (hf : f.receiver = r.map DeclTree.Receiver.encode) (hr : ∀ x ∈ r, x.WellFormed)
    (place : Place) : receiver place f = pure r := by
  cases r with
  | none => rw [receiver, hf]; rfl
  | some r =>
    obtain ⟨hname, htypeParams⟩ := hr r rfl
    rw [receiver, hf]
    simp only [Option.map_some, DeclTree.Receiver.encode, nameAt_render hname,
      namesAt_render htypeParams, pure_bind]

theorem present_map_some {α β γ : Type} {f : β → γ} {g : α → β} (as : List α) :
    present f (as.map fun a ↦ some (g a)) = pure (as.map fun a ↦ f (g a)) := by
  induction as with
  | nil => rfl
  | cons a as ih => rw [List.map_cons, present, ih, pure_bind, List.map_cons]

theorem provenance_eq {f : Fields} {p : Provenance} (hf : f.tags = p.tags)
    (hp : p.WellFormed) : f.provenance = p := by
  rw [Fields.provenance, hf, Provenance.ofList_tags hp]

/-! ### Records, lists and slots -/

/-- A record reads as a node, at every place and with nothing taken from the supply. -/
def Record.ReadsAs (policy : UidPolicy) (record : Record) (n : Node) : Prop :=
  ∀ place, record.decode policy place = pure n

/-- What is written of a node is a record that reads as the node. -/
def Written (policy : UidPolicy) (written : Encoding Document) (n : Node) : Prop :=
  ∃ record, written = .ok (.node record) ∧ record.ReadsAs policy n

/-- Lists are written entry by entry, and read back where their entries do. -/
theorem readAll_of_written {α : Type} {encode : α → Encoding Document}
    {read : Place → Document → Decoding α} {as : List α}
    (has : ∀ a ∈ as, ∃ doc, encode a = .ok doc ∧ ∀ place, read place doc = pure a) :
    ∃ docs, as.mapM encode = .ok docs ∧ (∀ place i, readAll read place i docs = pure as) ∧
      List.Forall₂ (fun a doc ↦ encode a = .ok doc ∧ ∀ place, read place doc = pure a) as docs := by
  induction as with
  | nil => exact ⟨[], rfl, fun _ _ ↦ rfl, .nil⟩
  | cons a as ih =>
    obtain ⟨⟨doc, hdoc, hread⟩, hrest⟩ := List.forall_mem_cons.mp has
    obtain ⟨docs, hdocs, hreads, heach⟩ := ih hrest
    refine ⟨doc :: docs, ?_, fun place i ↦ ?_, .cons ⟨hdoc, hread⟩ heach⟩
    · rw [List.mapM_cons, hdoc, hdocs]
      rfl
    · rw [readAll, hread, pure_bind, hreads, pure_bind]

/-- A list of entries that have to fit reads back where their records do. -/
theorem fitting_of_written {α : Type} (fits : Node → Option α) (flaw : Kind → Flaw)
    {encode : α → Encoding Document} {node : α → Node} {as : List α}
    (hfits : ∀ a ∈ as, fits (node a) = some a)
    (has : ∀ a ∈ as, Written policy (encode a) (node a)) :
    ∃ docs, as.mapM encode = .ok docs ∧
      ∀ place i, readAll (readFitting policy fits flaw) place i docs = pure as := by
  have hentries : ∀ a ∈ as, ∃ doc, encode a = .ok doc ∧
      ∀ place, readFitting policy fits flaw place doc = pure a := by
    intro a ha
    obtain ⟨record, hrecord, hreads⟩ := has a ha
    refine ⟨.node record, hrecord, fun place ↦ ?_⟩
    rw [readFitting, decode, hreads place, pure_bind, fit, hfits a ha]
  obtain ⟨docs, hdocs, hreads, -⟩ := readAll_of_written hentries
  exact ⟨docs, hdocs, hreads⟩

theorem types_of_written {ts : List Ty}
    (hts : ∀ t ∈ ts, Written policy t.encode (.type t)) :
    ∃ docs, Ty.encodeAll ts = .ok docs ∧
      ∀ place, decodeTypes policy place 0 docs = pure ts := by
  have hentries : ∀ t ∈ ts, ∃ doc, t.encode = .ok doc ∧
      ∀ place, readType policy place doc = pure t := by
    intro t ht
    obtain ⟨record, hrecord, hreads⟩ := hts t ht
    refine ⟨.node record, hrecord, fun place ↦ ?_⟩
    rw [readType, hreads place, pure_bind]
    rfl
  obtain ⟨docs, hdocs, hreads, -⟩ := readAll_of_written hentries
  refine ⟨docs, by rw [Ty.encodeAll_eq_mapM, hdocs], fun place ↦ ?_⟩
  rw [decodeTypes_eq_readAll, hreads]

theorem slot_of_written {slot : Option Ty}
    (hslot : ∀ t ∈ slot, Written policy t.encode (.type t)) :
    ∃ doc, Ty.encodeSlot slot = .ok doc ∧
      ∀ place, decodeSlot policy place doc = pure slot := by
  cases slot with
  | none => exact ⟨.null, rfl, fun _ ↦ rfl⟩
  | some t =>
    obtain ⟨record, hrecord, hreads⟩ := hslot t rfl
    refine ⟨.node record, hrecord, fun place ↦ ?_⟩
    rw [decodeSlot, hreads place, pure_bind]
    rfl

theorem params_of_written {ps : List Param}
    (hps : ∀ p ∈ ps, Written policy p.encode (.param p)) :
    ∃ docs, Param.encodeAll ps = .ok docs ∧
      ∀ place, decodeParams policy place 0 docs = pure ps := by
  obtain ⟨docs, hdocs, hreads⟩ :=
    fitting_of_written Node.param? .unexpected (fun _ _ ↦ rfl) hps
  refine ⟨docs, by rw [Param.encodeAll_eq_mapM, hdocs], fun place ↦ ?_⟩
  rw [decodeParams_eq_readAll, hreads]

theorem typeParams_of_written {ps : List TypeParam}
    (hps : ∀ p ∈ ps, Written policy p.encode (.typeParam p)) :
    ∃ docs, TypeParam.encodeAll ps = .ok docs ∧
      ∀ place, decodeTypeParams policy place 0 docs = pure ps := by
  obtain ⟨docs, hdocs, hreads⟩ :=
    fitting_of_written Node.typeParam? .unexpected (fun _ _ ↦ rfl) hps
  refine ⟨docs, by rw [TypeParam.encodeAll_eq_mapM, hdocs], fun place ↦ ?_⟩
  rw [decodeTypeParams_eq_readAll, hreads]

theorem parents_of_written {hs : List Heritage}
    (hhs : ∀ h ∈ hs, Written policy h.encode (.heritage h)) :
    ∃ docs, Heritage.encodeAll hs = .ok docs ∧
      ∀ place, decodeParents policy place 0 docs = pure hs := by
  obtain ⟨docs, hdocs, hreads⟩ :=
    fitting_of_written Node.heritage? .unexpected (fun _ _ ↦ rfl) hhs
  refine ⟨docs, by rw [Heritage.encodeAll_eq_mapM, hdocs], fun place ↦ ?_⟩
  rw [decodeParents_eq_readAll, hreads]

theorem members_of_written {ms : List Member}
    (hms : ∀ m ∈ ms, Written policy m.encode m.node) :
    ∃ docs, Member.encodeAll ms = .ok docs ∧
      ∀ place, decodeMembers policy place 0 docs = pure ms := by
  have hfits : ∀ m ∈ ms, m.node.member? = some m := by
    intro m _
    cases m with
    | _ => rfl
  obtain ⟨docs, hdocs, hreads⟩ := fitting_of_written Node.member? .notMember hfits hms
  refine ⟨docs, by rw [Member.encodeAll_eq_mapM, hdocs], fun place ↦ ?_⟩
  rw [decodeMembers_eq_readAll, hreads]

/-! ### Types -/

theorem types_written (policy : UidPolicy) :
    TypeStorey
      (fun t ↦ t.Every Node.LocallyWellFormed → Written policy t.encode (.type t))
      (fun p ↦ p.Every Node.LocallyWellFormed → Written policy p.encode (.param p))
      (fun p ↦ p.Every Node.LocallyWellFormed → Written policy p.encode (.typeParam p)) where
  named name args target nullable tags hargs hwell := by
    obtain ⟨⟨hname, htarget, htags⟩, hwell⟩ := Ty.every_named.mp hwell
    obtain ⟨docs, hdocs, hreads⟩ := types_of_written fun t ht ↦ hargs t ht (hwell t ht)
    refine ⟨_, by rw [Ty.encode, hdocs]; rfl, fun place ↦ ?_⟩
    simp only [Record.ofFields, Record.decode, Kind.ofText?_text]
    rw [requiredName_render rfl hname, pure_bind, hreads, pure_bind, Uid.reference?_getD htarget,
      provenance_eq rfl htags]
  function params result nullable tags hparams hresult hwell := by
    obtain ⟨htags, hwellParams, hwellResult⟩ := Ty.every_function.mp hwell
    obtain ⟨docs, hdocs, hreads⟩ := params_of_written fun p hp ↦ hparams p hp (hwellParams p hp)
    obtain ⟨doc, hdoc, hread⟩ := slot_of_written fun t ht ↦ hresult t ht (hwellResult t ht)
    refine ⟨_, by rw [Ty.encode, hdocs, hdoc]; rfl, fun place ↦ ?_⟩
    simp only [Record.ofFields, Record.decode, Kind.ofText?_text]
    rw [hreads, pure_bind, hread, pure_bind, provenance_eq rfl htags]
  union alternatives nullable tags halternatives hwell := by
    obtain ⟨htags, hwell⟩ := Ty.every_union.mp hwell
    obtain ⟨docs, hdocs, hreads⟩ := types_of_written fun t ht ↦ halternatives t ht (hwell t ht)
    refine ⟨_, by rw [Ty.encode, hdocs]; rfl, fun place ↦ ?_⟩
    simp only [Record.ofFields, Record.decode, Kind.ofText?_text]
    rw [hreads, pure_bind, provenance_eq rfl htags]
  self nullable tags hwell := by
    have htags : tags.WellFormed := Ty.every_self.mp hwell
    refine ⟨_, rfl, fun place ↦ ?_⟩
    simp only [Record.ofFields, Record.decode, Kind.ofText?_text]
    rw [provenance_eq rfl htags]
  generated name typeParams target nullable tags htypeParams hwell := by
    obtain ⟨⟨hname, htarget, htags⟩, hwell⟩ := Ty.every_generated.mp hwell
    obtain ⟨docs, hdocs, hreads⟩ :=
      typeParams_of_written fun p hp ↦ htypeParams p hp (hwell p hp)
    refine ⟨_, by rw [Ty.encode, hdocs]; rfl, fun place ↦ ?_⟩
    simp only [Record.ofFields, Record.decode, Kind.ofText?_text]
    rw [requiredName_render rfl hname, pure_bind, hreads, pure_bind, Uid.reference?_getD htarget,
      provenance_eq rfl htags]
  foreign label hwell := (Ty.every_foreign.mp hwell).elim
  param name type isOptional isVararg htype hwell := by
    obtain ⟨(hname : name ≠ ""), hwell⟩ := Param.every_iff.mp hwell
    obtain ⟨doc, hdoc, hread⟩ := slot_of_written fun t ht ↦ htype t ht (hwell t ht)
    refine ⟨_, by rw [Param.encode, hdoc]; rfl, fun place ↦ ?_⟩
    simp only [Record.ofFields, Record.decode, Kind.ofText?_text]
    rw [requiredText_eq hname, pure_bind, hread, pure_bind]
  typeParam name constraints default hconstraints hdefault hwell := by
    obtain ⟨hname, hwellConstraints, hwellDefault⟩ := TypeParam.every_iff.mp hwell
    obtain ⟨docs, hdocs, hreads⟩ :=
      types_of_written fun t ht ↦ hconstraints t ht (hwellConstraints t ht)
    obtain ⟨doc, hdoc, hread⟩ := slot_of_written fun t ht ↦ hdefault t ht (hwellDefault t ht)
    refine ⟨_, by rw [TypeParam.encode, hdocs, hdoc]; rfl, fun place ↦ ?_⟩
    simp only [Record.ofFields, Record.decode, Kind.ofText?_text]
    rw [requiredName_render rfl hname, pure_bind, hreads, pure_bind, hread, pure_bind]

theorem types_of_wellFormed {ts : List Ty} (hts : ∀ t ∈ ts, t.Every Node.LocallyWellFormed) :
    ∃ docs, Ty.encodeAll ts = .ok docs ∧ ∀ place, decodeTypes policy place 0 docs = pure ts :=
  types_of_written fun t ht ↦ (types_written policy).forType t (hts t ht)

theorem slot_of_wellFormed {slot : Option Ty}
    (hslot : ∀ t ∈ slot, t.Every Node.LocallyWellFormed) :
    ∃ doc, Ty.encodeSlot slot = .ok doc ∧ ∀ place, decodeSlot policy place doc = pure slot :=
  slot_of_written fun t ht ↦ (types_written policy).forType t (hslot t ht)

theorem params_of_wellFormed {ps : List Param}
    (hps : ∀ p ∈ ps, p.Every Node.LocallyWellFormed) :
    ∃ docs, Param.encodeAll ps = .ok docs ∧ ∀ place, decodeParams policy place 0 docs = pure ps :=
  params_of_written fun p hp ↦ (types_written policy).forParam p (hps p hp)

theorem typeParams_of_wellFormed {ps : List TypeParam}
    (hps : ∀ p ∈ ps, p.Every Node.LocallyWellFormed) :
    ∃ docs, TypeParam.encodeAll ps = .ok docs ∧
      ∀ place, decodeTypeParams policy place 0 docs = pure ps :=
  typeParams_of_written fun p hp ↦ (types_written policy).forTypeParam p (hps p hp)

/-! ### Members -/

theorem heritage_written {h : Heritage} (hwell : h.Every Node.LocallyWellFormed) :
    Written policy h.encode (.heritage h) := by
  obtain ⟨⟨hname, htarget⟩, hwell⟩ := Heritage.every_iff.mp hwell
  obtain ⟨docs, hdocs, hreads⟩ := types_of_wellFormed hwell
  refine ⟨_, by rw [Heritage.encode, hdocs]; rfl, fun place ↦ ?_⟩
  simp only [Record.ofFields, Record.decode, Kind.ofText?_text]
  rw [requiredName_render rfl hname, pure_bind, hreads, pure_bind, Uid.reference?_getD htarget]

theorem function_written {f : Function} (hwell : f.Every Node.LocallyWellFormed) :
    Written policy f.encode (.function f) := by
  obtain ⟨⟨hname, huid, htags, hreceiver⟩, htypeParams, hparams, hresult⟩ :=
    Function.every_iff.mp hwell
  obtain ⟨typeDocs, htypeDocs, hreadsType⟩ := typeParams_of_wellFormed htypeParams
  obtain ⟨docs, hdocs, hreads⟩ := params_of_wellFormed hparams
  obtain ⟨doc, hdoc, hread⟩ := slot_of_wellFormed hresult
  refine ⟨_, by rw [Function.encode, htypeDocs, hdocs, hdoc]; rfl, fun place ↦ ?_⟩
  simp only [Record.ofFields, Record.decode, Kind.ofText?_text]
  rw [requiredName_render rfl hname, pure_bind, uid_eq huid, pure_bind, hreadsType, pure_bind,
    hreads, pure_bind, hread, pure_bind, receiver_encode rfl hreceiver, pure_bind,
    provenance_eq rfl htags]

theorem classLike_written {head : ClassHead} {members : List Member}
    (hwell : (Member.classLike head members).Every Node.LocallyWellFormed)
    (hmembers : ∀ m ∈ members, Written policy m.encode m.node) :
    Written policy (Member.classLike head members).encode (.classLike head members) := by
  obtain ⟨⟨hname, huid, htags⟩, htypeParams, hparents, -⟩ := Member.every_classLike.mp hwell
  obtain ⟨typeDocs, htypeDocs, hreadsType⟩ := typeParams_of_wellFormed htypeParams
  obtain ⟨parentDocs, hparentDocs, hreadsParent⟩ :=
    parents_of_written fun h hh ↦ heritage_written (hparents h hh)
  obtain ⟨docs, hdocs, hreads⟩ := members_of_written hmembers
  refine ⟨_, by rw [Member.encode, htypeDocs, hparentDocs, hdocs]; rfl, fun place ↦ ?_⟩
  obtain ⟨form, name, parents, isExported, uid, tags⟩ := head
  cases form with
  | cls isAbstract typeParams =>
    simp only [Record.ofFields, Record.decode, ClassHead.fields, ClassForm.kind, Kind.ofText?_text]
    rw [requiredName_render rfl hname, pure_bind, uid_eq huid, pure_bind, hreadsType, pure_bind,
      hreadsParent, pure_bind, hreads, pure_bind, provenance_eq rfl htags]
    rfl
  | interface isGenerated typeParams =>
    simp only [Record.ofFields, Record.decode, ClassHead.fields, ClassForm.kind, Kind.ofText?_text]
    rw [requiredName_render rfl hname, pure_bind, uid_eq huid, pure_bind, hreadsType, pure_bind,
      hreadsParent, pure_bind, hreads, pure_bind, provenance_eq rfl htags]
    rfl
  | object =>
    simp only [Record.ofFields, Record.decode, ClassHead.fields, ClassForm.kind, Kind.ofText?_text]
    rw [requiredName_render rfl hname, pure_bind, uid_eq huid, pure_bind, hreadsParent, pure_bind,
      hreads, pure_bind, provenance_eq rfl htags]

theorem members_written (policy : UidPolicy) :
    MemberStorey fun m ↦ m.Every Node.LocallyWellFormed →
      Written policy m.encode m.node where
  method m hwell := by
    obtain ⟨(hname : m.name ≠ ""), htypeParams, hparams, hresult⟩ := Member.every_method.mp hwell
    obtain ⟨typeDocs, htypeDocs, hreadsType⟩ := typeParams_of_wellFormed htypeParams
    obtain ⟨docs, hdocs, hreads⟩ := params_of_wellFormed hparams
    obtain ⟨doc, hdoc, hread⟩ := slot_of_wellFormed hresult
    refine ⟨_, by rw [Member.encode, htypeDocs, hdocs, hdoc]; rfl, fun place ↦ ?_⟩
    simp only [Record.ofFields, Record.decode, Kind.ofText?_text]
    rw [requiredText_eq hname, pure_bind, hreadsType, pure_bind, hreads, pure_bind, hread,
      pure_bind]
    rfl
  property p hwell := by
    obtain ⟨(hname : p.name ≠ ""), htypeParams, htype⟩ := Member.every_property.mp hwell
    obtain ⟨typeDocs, htypeDocs, hreadsType⟩ := typeParams_of_wellFormed htypeParams
    obtain ⟨doc, hdoc, hread⟩ := slot_of_wellFormed htype
    refine ⟨_, by rw [Member.encode, htypeDocs, hdoc]; rfl, fun place ↦ ?_⟩
    simp only [Record.ofFields, Record.decode, Kind.ofText?_text]
    rw [requiredText_eq hname, pure_bind, hreadsType, pure_bind, hread, pure_bind]
    rfl
  constructor c hwell := by
    obtain ⟨-, htypeParams, hparams⟩ := Member.every_constructor.mp hwell
    obtain ⟨typeDocs, htypeDocs, hreadsType⟩ := typeParams_of_wellFormed htypeParams
    obtain ⟨docs, hdocs, hreads⟩ := params_of_wellFormed hparams
    refine ⟨_, by rw [Member.encode, htypeDocs, hdocs]; rfl, fun place ↦ ?_⟩
    simp only [Record.ofFields, Record.decode, Kind.ofText?_text]
    rw [hreadsType, pure_bind, hreads, pure_bind]
    rfl
  function f hwell := function_written (Member.every_function.mp hwell)
  classLike head members hmembers hwell := by
    obtain ⟨-, -, -, hwellMembers⟩ := Member.every_classLike.mp hwell
    exact classLike_written hwell fun m hm ↦ hmembers m hm (hwellMembers m hm)

/-! ### Declarations and modules -/

theorem enum_written {e : Enum} (hwell : (Decl.enum e).Every Node.LocallyWellFormed) :
    Written policy (Decl.enum e).encode (.enum e) := by
  obtain ⟨hname, huid⟩ := Decl.every_enum.mp hwell
  refine ⟨_, rfl, fun place ↦ ?_⟩
  simp only [Record.ofFields, Record.decode, Kind.ofText?_text]
  rw [present_map_some, pure_bind, requiredName_render rfl hname, pure_bind, uid_eq huid,
    pure_bind, List.map_id']

/-- A module reads back as a node, and where only a module may stand. -/
def ModuleWritten (policy : UidPolicy) (m : Module) : Prop :=
  Written policy m.encode (.module m) ∧
    ∃ doc, m.encode = .ok doc ∧ ∀ place, decodeModule policy place doc = pure m

theorem decls_of_written {ds : List Decl} (hpresent : ∀ d ∈ ds, d ≠ .missing)
    (hds : ∀ d ∈ ds, Written policy d.encode d.node) :
    ∃ docs, Decl.encodeAll ds = .ok docs ∧
      ∀ place, decodeDecls policy place 0 docs = pure ds := by
  have hfits : ∀ d ∈ ds, d.node.decl? = some d := by
    intro d hd
    cases d with
    | missing => exact absurd rfl (hpresent _ hd)
    | _ => rfl
  obtain ⟨docs, hdocs, hreads⟩ := fitting_of_written Node.decl? .notDeclaration hfits hds
  refine ⟨docs, by rw [Decl.encodeAll_eq_mapM, hdocs], fun place ↦ ?_⟩
  rw [decodeDecls_eq_readAll, hreads]

theorem submodules_of_written {ms : List Module}
    (hms : ∀ m ∈ ms, ∃ doc, m.encode = .ok doc ∧ ∀ place, decodeModule policy place doc = pure m) :
    ∃ docs, Module.encodeAll ms = .ok docs ∧
      ∀ place, decodeModules policy place 0 docs = pure ms := by
  obtain ⟨docs, hdocs, hreads, -⟩ := readAll_of_written hms
  refine ⟨docs, by rw [Module.encodeAll_eq_mapM, hdocs], fun place ↦ ?_⟩
  rw [decodeModules_eq_readAll, hreads]

theorem module_written {head : ModuleHead} {declarations : List Decl} {submodules : List Module}
    (hhead : head.WellFormed)
    (hdeclarations : ∃ docs, Decl.encodeAll declarations = .ok docs ∧
      ∀ place, decodeDecls policy place 0 docs = pure declarations)
    (hsubmodules : ∃ docs, Module.encodeAll submodules = .ok docs ∧
      ∀ place, decodeModules policy place 0 docs = pure submodules) :
    ModuleWritten policy ⟨head, declarations, submodules⟩ := by
  obtain ⟨hname, hshort, himports⟩ := hhead
  obtain ⟨declDocs, hdeclDocs, hreadsDecl⟩ := hdeclarations
  obtain ⟨moduleDocs, hmoduleDocs, hreadsModule⟩ := hsubmodules
  have hencode : (Module.mk head declarations submodules).encode = .ok (.node
      { Record.ofFields head.fields with declarations := declDocs, submodules := moduleDocs }) := by
    rw [Module.encode, hdeclDocs, hmoduleDocs]
    rfl
  have hreads : Record.ReadsAs policy
      { Record.ofFields head.fields with declarations := declDocs, submodules := moduleDocs }
      (.module ⟨head, declarations, submodules⟩) := by
    intro place
    simp only [Record.ofFields, Record.decode, ModuleHead.fields, Kind.ofText?_text]
    rw [present_map_some, pure_bind, hreadsDecl, pure_bind, hreadsModule, pure_bind,
      optionalName_text? hname, pure_bind, optionalName_text? hshort, pure_bind,
      imports_render himports, pure_bind, List.map_id']
  refine ⟨⟨_, hencode, hreads⟩, _, hencode, fun place ↦ ?_⟩
  have hkind : requireModule place head.fields = pure () := rfl
  rw [decodeModule, hreads place]
  simp only [Record.ofFields]
  rw [hkind, pure_bind, pure_bind]
  rfl

theorem modules_written (policy : UidPolicy) :
    ModuleStorey
      (fun d ↦ d ≠ .missing → d.Every Node.LocallyWellFormed → Written policy d.encode d.node)
      (fun m ↦ m.Every Node.LocallyWellFormed → ModuleWritten policy m) where
  module m hm _ hwell := (hm (Decl.every_module.mp hwell)).1
  classLike head members _ hwell := by
    obtain ⟨-, -, -, hmembers⟩ := Member.every_classLike.mp (Decl.every_classLike.mp hwell)
    exact classLike_written (Decl.every_classLike.mp hwell) fun m hm ↦
      (members_written policy).forMember m (hmembers m hm)
  function f _ hwell := function_written (Decl.every_function.mp hwell)
  var v _ hwell := by
    obtain ⟨⟨hname, htags, hreceiver⟩, htype⟩ := Decl.every_var.mp hwell
    obtain ⟨doc, hdoc, hread⟩ := slot_of_wellFormed htype
    refine ⟨_, by rw [Decl.encode, Variable.encode, hdoc]; rfl, fun place ↦ ?_⟩
    simp only [Record.ofFields, Record.decode, Kind.ofText?_text]
    rw [requiredName_render rfl hname, pure_bind, hread, pure_bind, receiver_encode rfl hreceiver,
      pure_bind, provenance_eq rfl htags]
    rfl
  typeAlias a _ hwell := by
    obtain ⟨⟨hname, huid, htags⟩, htypeParams, htype⟩ := Decl.every_typeAlias.mp hwell
    obtain ⟨typeDocs, htypeDocs, hreadsType⟩ := typeParams_of_wellFormed htypeParams
    obtain ⟨doc, hdoc, hread⟩ := slot_of_wellFormed htype
    refine ⟨_, by rw [Decl.encode, TypeAlias.encode, htypeDocs, hdoc]; rfl, fun place ↦ ?_⟩
    simp only [Record.ofFields, Record.decode, Kind.ofText?_text]
    rw [requiredName_render rfl hname, pure_bind, uid_eq huid, pure_bind, hreadsType, pure_bind,
      hread, pure_bind, provenance_eq rfl htags]
    rfl
  enum e _ hwell := enum_written hwell
  foreign label _ hwell := (Decl.every_foreign.mp hwell).elim
  missing hpresent _ := absurd rfl hpresent
  node head declarations submodules hdeclarations hsubmodules hwell := by
    obtain ⟨⟨hhead, hknown⟩, hwellDecls, hwellSubs⟩ := Module.every_iff.mp hwell
    have hpresent : ∀ d ∈ declarations, d ≠ .missing :=
      fun d hd ↦ ne_missing_of_isKnown hknown hd
    exact module_written hhead
      (decls_of_written hpresent fun d hd ↦ hdeclarations d hd (hpresent d hd) (hwellDecls d hd))
      (submodules_of_written fun m hm ↦ (hsubmodules m hm (hwellSubs m hm)).2)

/-! ### The round trip -/

theorem module_of_wellFormed {m : Module} (hm : m.WellFormed) :
    ∃ doc, m.encode = .ok doc ∧ ∀ place, decodeModule policy place doc = pure m :=
  ((modules_written policy).forModule m hm).2

theorem toModule_of_decodeModule {doc : Document} {m : Module}
    (hdoc : decodeModule policy [] doc = pure m) : doc.toModule policy = .ok m := by
  rw [toModule, hdoc]
  rfl

/-- Decoding undoes encoding, whatever is done about missing identities: a well-formed module is
written, and what is written reads as that module. Lists of modules are written and read entry by
entry. -/
theorem read_written (policy : UidPolicy) :
    (∀ m : Module, m.WellFormed → ∃ doc, m.encode = .ok doc ∧ doc.toModule policy = .ok m) ∧
      ∀ ms : List Module, (∀ m ∈ ms, m.WellFormed) →
        ∃ docs, Module.encodeAll ms = .ok docs ∧ toModules policy docs = .ok ms ∧
          List.Forall₂ (fun m doc ↦ m.encode = .ok doc ∧ doc.toModule policy = .ok m) ms docs := by
  constructor
  · intro m hm
    obtain ⟨doc, hdoc, hread⟩ := module_of_wellFormed hm
    exact ⟨doc, hdoc, toModule_of_decodeModule (hread [])⟩
  · intro ms hms
    have hentries : ∀ m ∈ ms, ∃ doc, m.encode = .ok doc ∧
        ∀ place, decodeModule policy place doc = pure m :=
      fun m hm ↦ module_of_wellFormed (hms m hm)
    obtain ⟨docs, hdocs, hreads, heach⟩ := readAll_of_written hentries
    refine ⟨docs, by rw [Module.encodeAll_eq_mapM, hdocs], ?_, ?_⟩
    · rw [toModules, decodeModules_eq_readAll, hreads]
      rfl
    · exact heach.imp fun m doc hdoc ↦ ⟨hdoc.1, toModule_of_decodeModule (hdoc.2 [])⟩

/-- A module that holds a generic class with a bounded type parameter, a parent and a method, an
extension function, an enumeration, and a submodule without a name. -/
def shelfTree : Module :=
  ⟨⟨some (.qualify (.ident "lib") "shelf"), some (.ident "shelf"), "", [.ident "base"],
      [⟨"file", ["shelf.d"]⟩]⟩,
    [.classLike
        ⟨.cls true [⟨.ident "T", [.named (.ident "Any") [] none true ⟨[]⟩], none⟩], .ident "Shelf",
          [⟨.ident "Base", [.self false ⟨[]⟩], some "class:Base"⟩], true, "class:Shelf",
          ⟨["origin"]⟩⟩
        [.method ⟨"item.at", [], [⟨"index", none, true, false⟩],
          some (.union [.named (.ident "T") [] none false ⟨[]⟩] true ⟨[]⟩), false, true, false⟩],
      .function ⟨.ident "clear", [], [], none, some ⟨.ident "Shelf", [.ident "T"]⟩, true, false,
        true, "fun:clear", ⟨[]⟩⟩,
      .enum ⟨.ident "Mode", [⟨"", "0"⟩, ⟨"OPEN", "1"⟩], "enum:Mode"⟩],
    [⟨⟨none, none, "", [], []⟩, [], []⟩]⟩

theorem read_written_shelfTree :
    shelfTree.WellFormed ∧
      (∃ doc, shelfTree.encode = .ok doc ∧ doc.toModule .required = .ok shelfTree) ∧
      ∃ docs, Module.encodeAll [shelfTree, shelfTree] = .ok docs ∧
        toModules .required docs = .ok [shelfTree, shelfTree] := by
  have hwell : shelfTree.WellFormed := by decide
  obtain ⟨hmodule, hmodules⟩ := read_written .required
  obtain ⟨docs, hdocs, hreads, -⟩ := hmodules [shelfTree, shelfTree] (by decide)
  exact ⟨hwell, hmodule shelfTree hwell, docs, hdocs, hreads⟩

end Document

end DeclTree
