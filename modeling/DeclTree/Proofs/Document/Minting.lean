import DeclTree.Proofs.Document.SourceOrder

/-!
# Minting fills holes

A hole is a node that has to have an identity and has none. A decoder with a supply of identities
gives each hole the next of them. The same comes of filling the holes in the document first, in
source order, and decoding it without a supply: `Fields.mint` fills one hole, `Document.supplied`
all that are read, and `fill` says of the walk of a document what becomes of it.

The two decoders are compared by `Decoding.EndsLike`, which is kept when readings are put together.
It counts the identities taken, so it also says that both go through the document in one order,
whether they succeed or not.
-/

set_option autoImplicit false
set_option relaxedAutoImplicit false

namespace DeclTree.Document

/-! ### Supplying identities -/

/-- Whether the node has to have an identity and has none. -/
def Fields.isHole (f : Fields) : Bool := f.isIdentified && f.uid == ""

def Fields.withUid (f : Fields) (uid : Uid) : Fields := { f with uid := uid }

theorem Fields.kind_withUid (f : Fields) (uid : Uid) : (f.withUid uid).kind = f.kind := rfl

/-- The fields without the identity that they have to have. -/
def Fields.anonymous (f : Fields) : Fields := if f.isIdentified then f.withUid "" else f

/-- Fills a hole with the next identity of the supply. -/
def Fields.mint (supply : Nat → Uid) (f : Fields) : StateM Nat Fields := fun taken ↦
  if f.isHole then (f.withUid (supply taken), taken + 1) else (f, taken)

/-- The document with the identities of the supply, in source order, in the place of those that are
missing. -/
def supplied (supply : Nat → Uid) (doc : Document) : Document :=
  (doc.traverse (Fields.mint supply) 0).1

def suppliedAll (supply : Nat → Uid) (docs : List Document) : List Document :=
  (traverseAll (Fields.mint supply) docs 0).1

/-- The document without the identities that have to be there. -/
def anonymous (doc : Document) : Document :=
  (doc.traverse fun f ↦ (pure f.anonymous : Id Fields)).run

/-- The nodes with the identities of the supply, from the given one on, in the place of those that
are missing. -/
def fill (supply : Nat → Uid) : Nat → List Fields → List Fields
  | _, [] => []
  | taken, f :: fs =>
    if f.isHole then f.withUid (supply taken) :: fill supply (taken + 1) fs
    else f :: fill supply taken fs

section Mint

variable {supply : Nat → Uid}

theorem Fields.kind_mint (f : Fields) (taken : Nat) : (f.mint supply taken).1.kind = f.kind := by
  unfold mint
  split
  · rfl
  · rfl

theorem Fields.mint_of_not_hole {f : Fields} (hf : f.isHole = false) : f.mint supply = pure f := by
  funext taken
  rw [mint, hf]
  rfl

/-- A node that need not have an identity is left as it is. -/
theorem Fields.mint_of_not_identified {f : Fields} (hf : f.isIdentified = false) (taken : Nat) :
    f.mint supply taken = (f, taken) := by
  have hhole : f.isHole = false := by rw [isHole, hf, Bool.false_and]
  rw [mint_of_not_hole hhole, run_pure]

theorem Fields.anonymous_mint (f : Fields) (taken : Nat) :
    (f.mint supply taken).1.anonymous = f.anonymous := by
  cases hhole : f.isHole with
  | false => rw [mint_of_not_hole hhole, run_pure]
  | true =>
    have hidentified : f.isIdentified = true := (Bool.and_eq_true_iff.mp hhole).1
    have hfilled : (f.withUid (supply taken)).isIdentified = true := hidentified
    rw [mint, if_pos hhole, anonymous, if_pos hfilled, anonymous, if_pos hidentified]
    rfl

theorem mapM_mint (fs : List Fields) (taken : Nat) :
    (fs.mapM (Fields.mint supply) taken).1 = fill supply taken fs := by
  induction fs generalizing taken with
  | nil => rfl
  | cons f fs ih =>
    rw [List.mapM_cons, run_bind, run_bind, run_pure, fill, ih, Fields.mint]
    split
    · rfl
    · rfl

end Mint

/-! ### Readings that end alike -/

namespace Decoding

variable {α β : Type}

/-- The reading with a given outcome, which takes no identity. -/
def ofOutcome (outcome : Except Refusal α) : Decoding α := fun taken ↦ outcome.map (·, taken)

/-- A reading that starts where so many identities are taken ends like another that takes none,
and with so many taken if it succeeds. -/
def EndsLike (x y : Decoding α) (taken taken' : Nat) : Prop :=
  ∃ outcome, x taken = ofOutcome outcome taken' ∧ y = ofOutcome outcome

/-- Wherever it starts, a reading ends like another that takes no identity and reads what is
filled, and both take as many. -/
def EndsLikeFilled (x : Decoding α) (filling : StateM Nat β) (y : β → Decoding α) : Prop :=
  ∀ taken, EndsLike x (y (filling taken).1) taken (filling taken).2

/-- A reading that takes no identity. -/
def Steady (x : Decoding α) : Prop := ∃ outcome, x = ofOutcome outcome

theorem Steady.endsLike {x : Decoding α} (hx : Steady x) (taken : Nat) :
    EndsLike x x taken taken := by
  obtain ⟨outcome, rfl⟩ := hx
  exact ⟨outcome, rfl, rfl⟩

theorem steady_pure (a : α) : Steady (pure a : Decoding α) := ⟨.ok a, rfl⟩

theorem steady_refuse (place : Place) (flaw : Flaw) : Steady (refuse place flaw : Decoding α) :=
  ⟨.error (.flawed place flaw), rfl⟩

theorem EndsLike.bind {x y : Decoding α} {k l : α → Decoding β} {taken between taken' : Nat}
    (hx : EndsLike x y taken between) (hk : ∀ a, EndsLike (k a) (l a) between taken') :
    EndsLike (x >>= k) (y >>= l) taken taken' := by
  obtain ⟨outcome, hx, rfl⟩ := hx
  cases outcome with
  | error refusal =>
    refine ⟨.error refusal, ?_, rfl⟩
    change Except.bind (x taken) (fun (a, taken) ↦ k a taken) = _
    rw [hx]
    rfl
  | ok a =>
    obtain ⟨outcome, hk, hl⟩ := hk a
    refine ⟨outcome, ?_, hl⟩
    change Except.bind (x taken) (fun (a, taken) ↦ k a taken) = _
    rw [hx]
    exact hk

theorem Steady.bind {x : Decoding α} {k : α → Decoding β} (hx : Steady x)
    (hk : ∀ a, Steady (k a)) : Steady (x >>= k) := by
  obtain ⟨outcome, _, hy⟩ := (hx.endsLike 0).bind fun a ↦ (hk a).endsLike 0
  exact ⟨outcome, hy⟩

theorem EndsLike.run'_eq {x y : Decoding α} {taken taken' : Nat} (h : EndsLike x y taken taken')
    (start : Nat) : x.run' taken = y.run' start := by
  obtain ⟨outcome, hx, rfl⟩ := h
  change Except.map Prod.fst (x taken) = Except.map Prod.fst (ofOutcome outcome start)
  rw [hx]
  cases outcome with
  | error refusal => rfl
  | ok a => rfl

/-! ### Plain fields -/

theorem steady_nameAt (place : Place) (text : String) : Steady (nameAt place text) := by
  unfold nameAt
  split
  · exact steady_pure _
  · exact steady_refuse _ _

theorem steady_requiredName (place : Place) (f : Fields) : Steady (requiredName place f) := by
  unfold requiredName
  split
  · exact steady_refuse _ _
  · exact steady_nameAt _ _

theorem steady_requiredText (place : Place) (f : Fields) : Steady (requiredText place f) := by
  unfold requiredText
  split
  · exact steady_refuse _ _
  · exact steady_pure _

theorem steady_optionalName (place : Place) (text : String) :
    Steady (optionalName place text) := by
  unfold optionalName
  split
  · exact steady_pure none
  · rw [map_eq_pure_bind]
    exact (steady_nameAt _ _).bind fun _ ↦ steady_pure _

theorem steady_namesAt (place : Place) (texts : List String) : Steady (namesAt place texts) := by
  induction texts with
  | nil => exact steady_pure []
  | cons text texts ih =>
    exact (steady_nameAt _ _).bind fun _ ↦ ih.bind fun _ ↦ steady_pure _

theorem steady_imports (place : Place) (i : Nat) (texts : List String) :
    Steady (imports place i texts) := by
  induction texts generalizing i with
  | nil => exact steady_pure []
  | cons text texts ih =>
    exact (steady_nameAt _ _).bind fun _ ↦ (ih (i + 1)).bind fun _ ↦ steady_pure _

theorem steady_receiver (place : Place) (f : Fields) : Steady (receiver place f) := by
  unfold receiver
  split
  · exact steady_pure none
  · exact (steady_nameAt _ _).bind fun _ ↦ (steady_namesAt _ _).bind fun _ ↦ steady_pure _

theorem steady_present (f : α → β) (entries : List (Option α)) : Steady (present f entries) := by
  induction entries with
  | nil => exact steady_pure []
  | cons entry entries ih =>
    cases entry with
    | none => exact ⟨.error .crash, rfl⟩
    | some a => exact ih.bind fun _ ↦ steady_pure _

theorem steady_fit (place : Place) (fits : Node → Option α) (flaw : Kind → Flaw) (n : Node) :
    Steady (fit place fits flaw n) := by
  unfold fit
  split
  · exact steady_pure _
  · exact steady_refuse _ _
  · exact steady_refuse _ _

theorem steady_requireModule (place : Place) (f : Fields) : Steady (requireModule place f) := by
  unfold requireModule
  split
  · exact steady_pure ()
  · split
    · exact steady_refuse _ _
    · exact steady_refuse _ _

end Decoding

open Decoding

/-- A filled node has an identity, and that is the one taken for it. -/
theorem Fields.exists_mint {supply : Nat → Uid} (hsupply : ∀ n, supply n ≠ "") {f : Fields}
    (hf : f.isIdentified = true) (taken : Nat) :
    ∃ uid taken', f.mint supply taken = (f.withUid uid, taken') ∧
      ∀ place, EndsLike (Decoding.uid (.minted supply) place f)
        (Decoding.uid .required place (f.withUid uid)) taken taken' := by
  by_cases huid : f.uid = ""
  · have hhole : f.isHole = true := by rw [isHole, hf, huid]; rfl
    refine ⟨supply taken, taken + 1, if_pos hhole, fun place ↦ ⟨.ok (supply taken), ?_, ?_⟩⟩
    · rw [Decoding.uid, if_neg (not_not.mpr huid)]
      rfl
    · exact if_pos (hsupply taken)
  · have hhole : f.isHole = false := by
      rw [isHole, beq_eq_false_iff_ne.mpr huid, Bool.and_false]
    refine ⟨f.uid, taken, ?_, fun place ↦ ⟨.ok f.uid, ?_, ?_⟩⟩
    · rw [mint_of_not_hole hhole]
      rfl
    · rw [Decoding.uid, if_pos huid]
      rfl
    · exact if_pos huid

/-! ### Lists and slots -/

/-- Decoding with the supply ends like decoding the document that it has filled. -/
def DecodesFilled (supply : Nat → Uid) (doc : Document) : Prop :=
  ∀ place, EndsLikeFilled (decode (.minted supply) place doc) (doc.traverse (Fields.mint supply))
    (decode .required place)

section Lists

variable {supply : Nat → Uid}

theorem endsLikeFilled_readAll {α : Type} {read readFilled : Place → Document → Decoding α}
    {docs : List Document}
    (hread : ∀ doc ∈ docs, ∀ place, EndsLikeFilled (read place doc)
      (doc.traverse (Fields.mint supply)) (readFilled place)) (place : Place) (i : Nat) :
    EndsLikeFilled (readAll read place i docs) (traverseAll (Fields.mint supply) docs)
      (readAll readFilled place i) := by
  intro taken
  induction docs generalizing i taken with
  | nil => exact (steady_pure []).endsLike taken
  | cons doc docs ih =>
    obtain ⟨hdoc, hdocs⟩ := List.forall_mem_cons.mp hread
    refine (hdoc _ taken).bind fun a ↦ ?_
    refine (ih hdocs (i + 1) _).bind fun as ↦ ?_
    exact (steady_pure (a :: as)).endsLike _

theorem DecodesFilled.fitting {doc : Document} (hdoc : doc.DecodesFilled supply) {α : Type}
    (fits : Node → Option α) (flaw : Kind → Flaw) (place : Place) :
    EndsLikeFilled (readFitting (.minted supply) fits flaw place doc)
      (doc.traverse (Fields.mint supply)) (readFitting .required fits flaw place) :=
  fun taken ↦ (hdoc place taken).bind fun n ↦ (steady_fit place fits flaw n).endsLike _

theorem DecodesFilled.type {doc : Document} (hdoc : doc.DecodesFilled supply) (place : Place) :
    EndsLikeFilled (readType (.minted supply) place doc) (doc.traverse (Fields.mint supply))
      (readType .required place) := by
  cases doc with
  | null => exact (steady_refuse place .nullType).endsLike
  | node record => exact hdoc.fitting Node.type? .notType place

theorem DecodesFilled.slot {doc : Document} (hdoc : doc.DecodesFilled supply) (place : Place) :
    EndsLikeFilled (decodeSlot (.minted supply) place doc) (doc.traverse (Fields.mint supply))
      (decodeSlot .required place) := by
  cases doc with
  | null => exact (steady_pure none).endsLike
  | node record =>
    intro taken
    refine (hdoc place taken).bind fun n ↦ ?_
    refine ((steady_fit place Node.type? .notType n).endsLike _).bind fun t ↦ ?_
    exact (steady_pure (some t)).endsLike _

theorem DecodesFilled.module {doc : Document} (hdoc : doc.DecodesFilled supply) (place : Place) :
    EndsLikeFilled (decodeModule (.minted supply) place doc) (doc.traverse (Fields.mint supply))
      (decodeModule .required place) := by
  cases doc with
  | null => exact (steady_refuse place .nullModule).endsLike
  | node record =>
    intro taken
    have hrequire : requireModule place (record.traverse (Fields.mint supply) taken).1.fields =
        requireModule place record.fields := by
      rw [requireModule, requireModule, record.fields_traverse, Fields.kind_mint]
    rw [traverse, run_bind, run_pure, decodeModule, decodeModule, hrequire]
    refine ((steady_requireModule place record.fields).endsLike taken).bind fun _ ↦ ?_
    exact hdoc.fitting Node.module? .unexpected place taken

variable {docs : List Document} (hdocs : ∀ doc ∈ docs, doc.DecodesFilled supply) (place : Place)
include hdocs

theorem types_endLikeFilled :
    EndsLikeFilled (decodeTypes (.minted supply) place 0 docs)
      (traverseAll (Fields.mint supply) docs) (decodeTypes .required place 0) := by
  simp only [EndsLikeFilled, decodeTypes_eq_readAll]
  exact endsLikeFilled_readAll (fun doc hdoc ↦ (hdocs doc hdoc).type) place 0

theorem params_endLikeFilled :
    EndsLikeFilled (decodeParams (.minted supply) place 0 docs)
      (traverseAll (Fields.mint supply) docs) (decodeParams .required place 0) := by
  simp only [EndsLikeFilled, decodeParams_eq_readAll]
  exact endsLikeFilled_readAll (fun doc hdoc ↦ (hdocs doc hdoc).fitting _ _) place 0

theorem typeParams_endLikeFilled :
    EndsLikeFilled (decodeTypeParams (.minted supply) place 0 docs)
      (traverseAll (Fields.mint supply) docs) (decodeTypeParams .required place 0) := by
  simp only [EndsLikeFilled, decodeTypeParams_eq_readAll]
  exact endsLikeFilled_readAll (fun doc hdoc ↦ (hdocs doc hdoc).fitting _ _) place 0

theorem parents_endLikeFilled :
    EndsLikeFilled (decodeParents (.minted supply) place 0 docs)
      (traverseAll (Fields.mint supply) docs) (decodeParents .required place 0) := by
  simp only [EndsLikeFilled, decodeParents_eq_readAll]
  exact endsLikeFilled_readAll (fun doc hdoc ↦ (hdocs doc hdoc).fitting _ _) place 0

theorem members_endLikeFilled :
    EndsLikeFilled (decodeMembers (.minted supply) place 0 docs)
      (traverseAll (Fields.mint supply) docs) (decodeMembers .required place 0) := by
  simp only [EndsLikeFilled, decodeMembers_eq_readAll]
  exact endsLikeFilled_readAll (fun doc hdoc ↦ (hdocs doc hdoc).fitting _ _) place 0

theorem decls_endLikeFilled :
    EndsLikeFilled (decodeDecls (.minted supply) place 0 docs)
      (traverseAll (Fields.mint supply) docs) (decodeDecls .required place 0) := by
  simp only [EndsLikeFilled, decodeDecls_eq_readAll]
  exact endsLikeFilled_readAll (fun doc hdoc ↦ (hdocs doc hdoc).fitting _ _) place 0

theorem modules_endLikeFilled :
    EndsLikeFilled (decodeModules (.minted supply) place 0 docs)
      (traverseAll (Fields.mint supply) docs) (decodeModules .required place 0) := by
  simp only [EndsLikeFilled, decodeModules_eq_readAll]
  exact endsLikeFilled_readAll (fun doc hdoc ↦ (hdocs doc hdoc).module) place 0

end Lists

/-! ### Records -/

theorem decode_filled {supply : Nat → Uid} (hsupply : ∀ n, supply n ≠ "") :
    Storey (DecodesFilled supply) fun record ↦ (Document.node record).DecodesFilled supply where
  null place taken := (steady_refuse place .nullNode).endsLike taken
  node record hrecord := hrecord
  record f typeParameters parents members parameters type params constraints default declarations
      submodules htypeParameters hparents hmembers hparameters htype hparams hconstraints hdefault
      hdeclarations hsubmodules place taken := by
    rw [traverse, run_bind, run_pure, decode, decode]
    cases hkind : Kind.ofText? f.kind with
    | none =>
      have hplain : f.isIdentified = false := by rw [Fields.isIdentified, hkind, Option.any_none]
      simp only [Record.traverse, Record.decode, hkind, Fields.mint_of_not_identified hplain,
        run_bind, run_pure]
      exact (steady_refuse place _).endsLike taken
    | some kind =>
      have hplain (h : kind ∉ Kind.identified) (taken : Nat) : f.mint supply taken = (f, taken) :=
        Fields.mint_of_not_identified (Fields.isIdentified_of_not_mem hkind h) taken
      have hnamed (h : kind ∈ Kind.identified) :=
        Fields.exists_mint hsupply (Fields.isIdentified_of_mem hkind h) taken
      -- Only the lists and slots of the kind are changed by filling, and in the order of reading.
      cases kind with
      | moduleDecl =>
        simp (disch := decide) only [Record.traverse, Record.decode, hkind, hplain, run_bind,
          run_pure, Kind.keep_of_mem, Kind.keep_of_not_mem]
        refine ((steady_present _ _).endsLike _).bind fun annotations ↦ ?_
        refine (decls_endLikeFilled hdeclarations _ _).bind fun ds ↦ ?_
        refine (modules_endLikeFilled hsubmodules _ _).bind fun ms ↦ ?_
        refine ((steady_optionalName _ _).endsLike _).bind fun name ↦ ?_
        refine ((steady_optionalName _ _).endsLike _).bind fun shortName ↦ ?_
        refine ((steady_imports _ _ _).endsLike _).bind fun imports ↦ ?_
        exact (steady_pure _).endsLike _
      | classDecl =>
        obtain ⟨uid, taken₁, hmint, huid⟩ := hnamed (by decide)
        simp (disch := decide) only [Record.traverse, Record.decode, hkind, hmint, run_bind,
          run_pure, Kind.keep_of_mem, Kind.keep_of_not_mem, Fields.kind_withUid]
        refine ((steady_requiredName place f).endsLike _).bind fun name ↦ ?_
        refine (huid place).bind fun uid ↦ ?_
        refine (typeParams_endLikeFilled htypeParameters _ _).bind fun tps ↦ ?_
        refine (parents_endLikeFilled hparents _ _).bind fun hs ↦ ?_
        refine (members_endLikeFilled hmembers _ _).bind fun ms ↦ ?_
        exact (steady_pure _).endsLike _
      | interfaceDecl =>
        obtain ⟨uid, taken₁, hmint, huid⟩ := hnamed (by decide)
        simp (disch := decide) only [Record.traverse, Record.decode, hkind, hmint, run_bind,
          run_pure, Kind.keep_of_mem, Kind.keep_of_not_mem, Fields.kind_withUid]
        refine ((steady_requiredName place f).endsLike _).bind fun name ↦ ?_
        refine (huid place).bind fun uid ↦ ?_
        refine (typeParams_endLikeFilled htypeParameters _ _).bind fun tps ↦ ?_
        refine (parents_endLikeFilled hparents _ _).bind fun hs ↦ ?_
        refine (members_endLikeFilled hmembers _ _).bind fun ms ↦ ?_
        exact (steady_pure _).endsLike _
      | objectDecl =>
        obtain ⟨uid, taken₁, hmint, huid⟩ := hnamed (by decide)
        simp (disch := decide) only [Record.traverse, Record.decode, hkind, hmint, run_bind,
          run_pure, Kind.keep_of_mem, Kind.keep_of_not_mem, Fields.kind_withUid]
        refine ((steady_requiredName place f).endsLike _).bind fun name ↦ ?_
        refine (huid place).bind fun uid ↦ ?_
        refine (parents_endLikeFilled hparents _ _).bind fun hs ↦ ?_
        refine (members_endLikeFilled hmembers _ _).bind fun ms ↦ ?_
        exact (steady_pure _).endsLike _
      | functionDecl =>
        obtain ⟨uid, taken₁, hmint, huid⟩ := hnamed (by decide)
        simp (disch := decide) only [Record.traverse, Record.decode, hkind, hmint, run_bind,
          run_pure, Kind.keep_of_mem, Kind.keep_of_not_mem, Fields.kind_withUid]
        refine ((steady_requiredName place f).endsLike _).bind fun name ↦ ?_
        refine (huid place).bind fun uid ↦ ?_
        refine (typeParams_endLikeFilled htypeParameters _ _).bind fun tps ↦ ?_
        refine (params_endLikeFilled hparameters _ _).bind fun ps ↦ ?_
        refine (htype.slot _ _).bind fun slot ↦ ?_
        refine ((steady_receiver place f).endsLike _).bind fun receiver ↦ ?_
        exact (steady_pure _).endsLike _
      | variableDecl =>
        simp (disch := decide) only [Record.traverse, Record.decode, hkind, hplain, run_bind,
          run_pure, Kind.keep_of_mem, Kind.keep_of_not_mem]
        refine ((steady_requiredName place f).endsLike _).bind fun name ↦ ?_
        refine (htype.slot _ _).bind fun slot ↦ ?_
        refine ((steady_receiver place f).endsLike _).bind fun receiver ↦ ?_
        exact (steady_pure _).endsLike _
      | aliasDecl =>
        obtain ⟨uid, taken₁, hmint, huid⟩ := hnamed (by decide)
        simp (disch := decide) only [Record.traverse, Record.decode, hkind, hmint, run_bind,
          run_pure, Kind.keep_of_mem, Kind.keep_of_not_mem, Fields.kind_withUid]
        refine ((steady_requiredName place f).endsLike _).bind fun name ↦ ?_
        refine (huid place).bind fun uid ↦ ?_
        refine (typeParams_endLikeFilled htypeParameters _ _).bind fun tps ↦ ?_
        refine (htype.slot _ _).bind fun slot ↦ ?_
        exact (steady_pure _).endsLike _
      | enumDecl =>
        obtain ⟨uid, taken₁, hmint, huid⟩ := hnamed (by decide)
        simp (disch := decide) only [Record.traverse, Record.decode, hkind, hmint, run_bind,
          run_pure, Kind.keep_of_not_mem, Fields.kind_withUid]
        refine ((steady_present _ f.tokens).endsLike _).bind fun tokens ↦ ?_
        refine ((steady_requiredName place f).endsLike _).bind fun name ↦ ?_
        refine (huid place).bind fun uid ↦ ?_
        exact (steady_pure _).endsLike _
      | method =>
        simp (disch := decide) only [Record.traverse, Record.decode, hkind, hplain, run_bind,
          run_pure, Kind.keep_of_mem, Kind.keep_of_not_mem]
        refine ((steady_requiredText place f).endsLike _).bind fun name ↦ ?_
        refine (typeParams_endLikeFilled htypeParameters _ _).bind fun tps ↦ ?_
        refine (params_endLikeFilled hparameters _ _).bind fun ps ↦ ?_
        refine (htype.slot _ _).bind fun slot ↦ ?_
        exact (steady_pure _).endsLike _
      | property =>
        simp (disch := decide) only [Record.traverse, Record.decode, hkind, hplain, run_bind,
          run_pure, Kind.keep_of_mem, Kind.keep_of_not_mem]
        refine ((steady_requiredText place f).endsLike _).bind fun name ↦ ?_
        refine (typeParams_endLikeFilled htypeParameters _ _).bind fun tps ↦ ?_
        refine (htype.slot _ _).bind fun slot ↦ ?_
        exact (steady_pure _).endsLike _
      | constructor =>
        simp (disch := decide) only [Record.traverse, Record.decode, hkind, hplain, run_bind,
          run_pure, Kind.keep_of_mem, Kind.keep_of_not_mem]
        refine (typeParams_endLikeFilled htypeParameters _ _).bind fun tps ↦ ?_
        refine (params_endLikeFilled hparameters _ _).bind fun ps ↦ ?_
        exact (steady_pure _).endsLike _
      | param =>
        simp (disch := decide) only [Record.traverse, Record.decode, hkind, hplain, run_bind,
          run_pure, Kind.keep_of_mem, Kind.keep_of_not_mem]
        refine ((steady_requiredText place f).endsLike _).bind fun name ↦ ?_
        refine (htype.slot _ _).bind fun slot ↦ ?_
        exact (steady_pure _).endsLike _
      | typeParam =>
        simp (disch := decide) only [Record.traverse, Record.decode, hkind, hplain, run_bind,
          run_pure, Kind.keep_of_mem, Kind.keep_of_not_mem]
        refine ((steady_requiredName place f).endsLike _).bind fun name ↦ ?_
        refine (types_endLikeFilled hconstraints _ _).bind fun ts ↦ ?_
        refine (hdefault.slot _ _).bind fun slot ↦ ?_
        exact (steady_pure _).endsLike _
      | heritage =>
        simp (disch := decide) only [Record.traverse, Record.decode, hkind, hplain, run_bind,
          run_pure, Kind.keep_of_mem, Kind.keep_of_not_mem]
        refine ((steady_requiredName place f).endsLike _).bind fun name ↦ ?_
        refine (types_endLikeFilled hparams _ _).bind fun ts ↦ ?_
        exact (steady_pure _).endsLike _
      | namedType =>
        simp (disch := decide) only [Record.traverse, Record.decode, hkind, hplain, run_bind,
          run_pure, Kind.keep_of_mem, Kind.keep_of_not_mem]
        refine ((steady_requiredName place f).endsLike _).bind fun name ↦ ?_
        refine (types_endLikeFilled hparams _ _).bind fun ts ↦ ?_
        exact (steady_pure _).endsLike _
      | functionType =>
        simp (disch := decide) only [Record.traverse, Record.decode, hkind, hplain, run_bind,
          run_pure, Kind.keep_of_mem, Kind.keep_of_not_mem]
        refine (params_endLikeFilled hparameters _ _).bind fun ps ↦ ?_
        refine (htype.slot _ _).bind fun slot ↦ ?_
        exact (steady_pure _).endsLike _
      | unionType =>
        simp (disch := decide) only [Record.traverse, Record.decode, hkind, hplain, run_bind,
          run_pure, Kind.keep_of_mem, Kind.keep_of_not_mem]
        refine (types_endLikeFilled hparams _ _).bind fun ts ↦ ?_
        exact (steady_pure _).endsLike _
      | selfType =>
        simp (disch := decide) only [Record.traverse, Record.decode, hkind, hplain, run_bind,
          run_pure, Kind.keep_of_not_mem]
        exact (steady_pure _).endsLike _
      | generatedType =>
        simp (disch := decide) only [Record.traverse, Record.decode, hkind, hplain, run_bind,
          run_pure, Kind.keep_of_mem, Kind.keep_of_not_mem]
        refine ((steady_requiredName place f).endsLike _).bind fun name ↦ ?_
        refine (typeParams_endLikeFilled htypeParameters _ _).bind fun tps ↦ ?_
        exact (steady_pure _).endsLike _

/-! ### Minting -/

section Minting

variable (supply : Nat → Uid)

theorem walk_supplied (doc : Document) :
    (doc.supplied supply).walk = fill supply 0 doc.walk := by
  have hwalk := (walk_traverse (g := Fields.mint supply) Fields.kind_mint).forDocument doc
  exact (congrArg Prod.fst (congrFun hwalk 0)).trans (mapM_mint doc.walk 0)

theorem walkAll_suppliedAll (docs : List Document) :
    walkAll (suppliedAll supply docs) = fill supply 0 (walkAll docs) := by
  have hwalk := (walk_traverse (g := Fields.mint supply) Fields.kind_mint).forDocuments docs
  have hwalkAll := congrFun (walkAll_traverseAll hwalk) 0
  exact (congrArg Prod.fst hwalkAll).trans (mapM_mint (walkAll docs) 0)

/-- Filling changes nothing else. -/
theorem anonymous_traverse_mint (doc : Document) (taken : Nat) :
    (doc.traverse (Fields.mint supply) taken).1.anonymous = doc.anonymous := by
  have hfields (f : Fields) (taken : Nat) :
      (pure (f.mint supply taken).1.anonymous : Id Fields) = pure f.anonymous := by
    rw [f.anonymous_mint]
  exact congrArg Id.run ((traverse_traverse Fields.kind_mint hfields).forDocument doc taken)

theorem map_anonymous_traverseAll_mint (docs : List Document) (taken : Nat) :
    (traverseAll (Fields.mint supply) docs taken).1.map anonymous = docs.map anonymous := by
  induction docs generalizing taken with
  | nil => rfl
  | cons doc docs ih =>
    rw [traverseAll, run_bind, run_bind, run_pure, List.map_cons, anonymous_traverse_mint, ih,
      List.map_cons]

/-- Nothing is missing where the walk is that of well-formed trees. -/
theorem mint_of_mirrors {fs : List Fields} {ns : List Node} (hns : Mirrors fs ns)
    (hwell : ∀ n ∈ ns, n.Every Node.LocallyWellFormed) : ∀ f ∈ fs, f.mint supply = pure f := by
  intro f hf
  have hmem : f.stamp ∈ (ns.flatMap Node.nodes).map Node.stamp := by
    rw [hns]
    exact List.mem_map_of_mem hf
  obtain ⟨x, hx, hstamp⟩ := List.mem_map.mp hmem
  obtain ⟨n, hn, hx⟩ := List.mem_flatMap.mp hx
  have hpresent := Node.identity?_ne_empty ((hwell n hn).forall_mem_nodes x hx)
  refine Fields.mint_of_not_hole (Bool.eq_false_iff.mpr fun hhole ↦ hpresent ?_)
  rw [Fields.isHole, Bool.and_eq_true, beq_iff_eq] at hhole
  have hidentity := congrArg Prod.snd hstamp
  rwa [Fields.stamp, if_pos hhole.1, hhole.2] at hidentity

theorem supplied_of_toNode {doc : Document} {n : Node} (hn : doc.toNode .required = .ok n) :
    doc.supplied supply = doc := by
  have hwell : n.Every Node.LocallyWellFormed :=
    ((decode_sound ⟨fun _ huid ↦ huid, trivial⟩).forDocument doc []).of_run' hn
  have hpure := mint_of_mirrors supply ((decode_in_order.forDocument doc []).of_run' hn)
    (List.forall_mem_singleton.mpr hwell)
  rw [supplied, traverse_eq_pure.forDocument doc hpure, run_pure]

theorem supplied_of_toModule {doc : Document} {m : Module} (hm : doc.toModule .required = .ok m) :
    doc.supplied supply = doc := by
  have hpure := mint_of_mirrors supply (((decode_in_order.forDocument doc).module []).of_run' hm)
    (List.forall_mem_singleton.mpr (wellFormed_of_toModule hm))
  rw [supplied, traverse_eq_pure.forDocument doc hpure, run_pure]

theorem suppliedAll_of_toModules {docs : List Document} {ms : List Module}
    (hms : toModules .required docs = .ok ms) : suppliedAll supply docs = docs := by
  have hwell : ∀ m ∈ ms, m.WellFormed :=
    (yields_modules ((decode_sound ⟨fun _ huid ↦ huid, trivial⟩).forDocuments docs) []).of_run' hms
  have hpure := mint_of_mirrors supply
    ((yields_modules_mirror (decode_in_order.forDocuments docs) []).of_run' hms)
    (List.forall_mem_map.mpr hwell)
  rw [suppliedAll, traverseAll_eq_pure (traverse_eq_pure.forDocuments docs) hpure, run_pure]

end Minting

/-- Decoding with a supply of identities ends as decoding does without one when the next identity of
the supply has been given to each hole that is read, in source order, and nothing else is changed.
The trees are walked like the filled documents, and what is decoded without a supply is decoded to
the same with one. -/
theorem minting_fills_holes {supply : Nat → Uid} (hsupply : ∀ n, supply n ≠ "") :
    (∀ doc : Document,
      doc.toNode (.minted supply) = (doc.supplied supply).toNode .required ∧
        doc.toModule (.minted supply) = (doc.supplied supply).toModule .required ∧
        (doc.supplied supply).walk = fill supply 0 doc.walk ∧
        (doc.supplied supply).anonymous = doc.anonymous ∧
        (∀ n, doc.toNode (.minted supply) = .ok n → Mirrors (fill supply 0 doc.walk) [n]) ∧
        (∀ m, doc.toModule (.minted supply) = .ok m →
          Mirrors (fill supply 0 doc.walk) [.module m]) ∧
        (∀ n, doc.toNode .required = .ok n → doc.toNode (.minted supply) = .ok n) ∧
        ∀ m, doc.toModule .required = .ok m → doc.toModule (.minted supply) = .ok m) ∧
      ∀ docs : List Document,
        toModules (.minted supply) docs = toModules .required (suppliedAll supply docs) ∧
          walkAll (suppliedAll supply docs) = fill supply 0 (walkAll docs) ∧
          (suppliedAll supply docs).map anonymous = docs.map anonymous ∧
          (∀ ms, toModules (.minted supply) docs = .ok ms →
            Mirrors (fill supply 0 (walkAll docs)) (ms.map .module)) ∧
          ∀ ms, toModules .required docs = .ok ms → toModules (.minted supply) docs = .ok ms := by
  have hfilled := decode_filled hsupply
  constructor
  · intro doc
    have hnode : doc.toNode (.minted supply) = (doc.supplied supply).toNode .required :=
      (hfilled.forDocument doc [] 0).run'_eq 0
    have hmodule : doc.toModule (.minted supply) = (doc.supplied supply).toModule .required :=
      ((hfilled.forDocument doc).module [] 0).run'_eq 0
    refine ⟨hnode, hmodule, walk_supplied supply doc, anonymous_traverse_mint supply doc 0,
      fun n hn ↦ ?_, fun m hm ↦ ?_, fun n hn ↦ ?_, fun m hm ↦ ?_⟩
    · rw [← walk_supplied]
      exact (decode_in_order.forDocument _ []).of_run' (hnode.symm.trans hn)
    · rw [← walk_supplied]
      exact ((decode_in_order.forDocument _).module []).of_run' (hmodule.symm.trans hm)
    · rwa [hnode, supplied_of_toNode supply hn]
    · rwa [hmodule, supplied_of_toModule supply hm]
  · intro docs
    have hmodules : toModules (.minted supply) docs =
        toModules .required (suppliedAll supply docs) :=
      (modules_endLikeFilled (hfilled.forDocuments docs) [] 0).run'_eq 0
    refine ⟨hmodules, walkAll_suppliedAll supply docs,
      map_anonymous_traverseAll_mint supply docs 0, fun ms hms ↦ ?_, fun ms hms ↦ ?_⟩
    · rw [← walkAll_suppliedAll]
      exact (yields_modules_mirror (decode_in_order.forDocuments _) []).of_run'
        (hmodules.symm.trans hms)
    · rwa [hmodules, suppliedAll_of_toModules supply hms]

/-- A supply of texts that are all different. -/
def numberedSupply (n : Nat) : Uid := "minted:" ++ toString n

/-- A module with holes: a class with an object and a function in it, and an enumeration after a
class that has an identity. The module has none, nor has what stands in a field that is not read. -/
def sketchedDocument : Document :=
  .node
    { Record.ofFields { kind := "module", name := "lib" } with
      declarations :=
        [.node
          { Record.ofFields { kind := "class", name := "A" } with
            members :=
              [.node (Record.ofFields { kind := "object", name := "Companion" }),
                .node
                  { Record.ofFields { kind := "function", name := "make" } with
                    type := .node (Record.ofFields
                      { kind := "type_value", name := "B", reference := "class:B" }) }]
            declarations := [.node (Record.ofFields { kind := "enum", name := "Unread" })] },
          .node (Record.ofFields { kind := "class", name := "B", uid := "class:B" }),
          .node (Record.ofFields { kind := "enum", name := "E" })] }

theorem minting_fills_holes_sketched :
    (∀ n, numberedSupply n ≠ "") ∧
      sketchedDocument.toModule .required =
        .error (.flawed [.field "declarations", .index 0] (.noUid "class" "A")) ∧
      sketchedDocument.toModule (.minted numberedSupply) =
        (sketchedDocument.supplied numberedSupply).toModule .required ∧
      (sketchedDocument.supplied numberedSupply).walk.map Fields.uid =
        ["", "minted:0", "minted:1", "minted:2", "", "class:B", "minted:3"] ∧
      (sketchedDocument.toModule (.minted numberedSupply)).isOk = true := by
  have hsupply : ∀ n, numberedSupply n ≠ "" := fun n ↦ by simp [numberedSupply]
  obtain ⟨-, hmodule, hwalk, -⟩ := (minting_fills_holes hsupply).1 sketchedDocument
  refine ⟨hsupply, by rfl, hmodule, ?_, by rfl⟩
  rw [hwalk]
  decide

end DeclTree.Document
