import DeclTree.Proofs.Document.Decoded
import DeclTree.Proofs.Document.RoundTrip
import DeclTree.Proofs.Lowering.Stages

/-!
# Lowered trees can be written and read

Stages keep trees well formed when they keep single identifiers well formed: a renaming takes no
text to the empty one and puts no dot into a text without, and the name of the type above all others
is one that can be read, `Stage.KeepsNames`. The condition on scopes that goes with it is that their
names are well formed, since what stands in for a self type is made of them.

A lowered tree is then written and read like the tree that it came from,
`Stage.readable_after_stages`.
-/

set_option autoImplicit false
set_option relaxedAutoImplicit false

namespace DeclTree

open SelfType (Scope)

/-! ### Functions that keep identifiers -/

/-- Whether a function on texts takes identifiers to identifiers. -/
structure KeepsIdentifiers (f : String → String) : Prop where
  nonempty : ∀ s, s ≠ "" → f s ≠ ""
  dotless : ∀ s : String, '.' ∉ s.toList → '.' ∉ (f s).toList

/-- Escaping keeps identifiers where the quote holds no dot. -/
theorem Profile.keepsIdentifiers_escape {p : Profile} (hmark : '.' ∉ p.mark.toList) :
    KeepsIdentifiers p.escape :=
  ⟨fun _ ↦ Profile.escape_ne_empty, fun _ ↦ Profile.not_mem_escape hmark⟩

variable {f : String → String}

theorem Name.WellFormed.map (hf : KeepsIdentifiers f) {name : Name} (hname : name.WellFormed) :
    (name.map f).WellFormed := by
  intro s hs
  rw [Name.segments_map] at hs
  obtain ⟨original, horiginal, rfl⟩ := List.mem_map.mp hs
  obtain ⟨hnonempty, hdotless⟩ := hname original horiginal
  exact ⟨hf.nonempty original hnonempty, hf.dotless original hdotless⟩

theorem Name.wellFormed_of_mem_map (hf : KeepsIdentifiers f) {names : List Name}
    (hnames : ∀ name ∈ names, name.WellFormed) :
    ∀ name ∈ names.map (Name.map f), name.WellFormed := by
  intro name hname
  obtain ⟨original, horiginal, rfl⟩ := List.mem_map.mp hname
  exact (hnames original horiginal).map hf

theorem Receiver.WellFormed.rename (hf : KeepsIdentifiers f) {r : Receiver} (hr : r.WellFormed) :
    (r.rename f).WellFormed :=
  ⟨hr.1.map hf, Name.wellFormed_of_mem_map hf hr.2⟩

theorem ModuleHead.WellFormed.rename (hf : KeepsIdentifiers f) {head : ModuleHead}
    (hhead : head.WellFormed) : (head.rename f).WellFormed := by
  obtain ⟨hname, hshort, himports⟩ := hhead
  refine ⟨fun name hmem ↦ ?_, fun name hmem ↦ ?_, Name.wellFormed_of_mem_map hf himports⟩
  · obtain ⟨original, horiginal, rfl⟩ := Option.mem_map.mp hmem
    exact (hname original horiginal).map hf
  · obtain ⟨original, horiginal, rfl⟩ := Option.mem_map.mp hmem
    exact (hshort original horiginal).map hf

/-! ### Rewritings that keep trees well formed -/

/-- Whether the names that a scope gives to self types are well formed. -/
def SelfType.NamesWellFormed (scope : Option Scope) : Prop :=
  ∀ name ∈ SelfType.namesOf scope, name.WellFormed

theorem Node.namesWellFormed_inner {n : Node} {scope : Option Scope}
    (hscope : SelfType.NamesWellFormed scope) (hn : ∀ x ∈ n.nodes, x.LocallyWellFormed) :
    SelfType.NamesWellFormed (n.inner scope) := by
  cases n with
  | classLike head members =>
    obtain ⟨hhead, htypeParams, -, -⟩ := Member.every_classLike.mp hn
    have hnames : ∀ name ∈ head.name :: head.typeParams.map TypeParam.name, name.WellFormed := by
      refine List.forall_mem_cons.mpr ⟨hhead.1, fun name hname ↦ ?_⟩
      obtain ⟨p, hp, rfl⟩ := List.mem_map.mp hname
      exact (TypeParam.every_iff.mp (htypeParams p hp)).1
    rw [Node.inner_classLike]
    obtain ⟨form, name, parents, isExported, uid, tags⟩ := head
    cases form with
    | cls isAbstract typeParams => exact hnames
    | interface isGenerated typeParams =>
      cases isGenerated with
      | false => exact hnames
      | true => exact nofun
    | object => exact hscope
  | function f =>
    obtain ⟨⟨-, -, -, hreceiver⟩, -⟩ := Function.every_iff.mp hn
    change SelfType.NamesWellFormed (some (.receiver f.receiver f.uid))
    cases hcase : f.receiver with
    | none => exact nofun
    | some r => exact List.forall_mem_cons.mpr (hreceiver r hcase)
  | _ => exact hscope

theorem Rewriting.establishes_wellFormed {w : Rewriting} (hrename : KeepsIdentifiers w.rename)
    (hself : ∀ scope nullable tags, SelfType.NamesWellFormed scope → tags.WellFormed →
      (w.self scope nullable tags).Every Node.LocallyWellFormed) :
    w.Establishes Node.LocallyWellFormed Node.LocallyWellFormed SelfType.NamesWellFormed where
  node n scope hn hscope hwell := by
    cases n with
    | module m =>
      have hknown : ((Node.module m).rewrite w scope).isKnown := Node.isKnown_rewrite hn hwell.2
      cases m
      exact ⟨hwell.1.rename hrename, hknown⟩
    | classLike head members => exact ⟨hwell.1.map hrename, hwell.2⟩
    | function x =>
      obtain ⟨hname, huid, htags, hreceiver⟩ := hwell
      refine ⟨hname.map hrename, huid, htags, fun r hr ↦ ?_⟩
      obtain ⟨original, horiginal, rfl⟩ := Option.mem_map.mp hr
      exact (hreceiver original horiginal).rename hrename
    | var v =>
      obtain ⟨hname, htags, hreceiver⟩ := hwell
      refine ⟨hname.map hrename, htags, fun r hr ↦ ?_⟩
      obtain ⟨original, horiginal, rfl⟩ := Option.mem_map.mp hr
      exact (hreceiver original horiginal).rename hrename
    | typeAlias a => exact ⟨hwell.1.map hrename, hwell.2⟩
    | enum e => exact ⟨hwell.1.map hrename, hwell.2⟩
    | method m => exact hrename.nonempty m.name hwell
    | property p => exact hrename.nonempty p.name hwell
    | constructor c => trivial
    | type t =>
      cases t with
      | self nullable tags => exact nomatch hn
      | named name args target nullable tags => exact ⟨hwell.1.map hrename, hwell.2⟩
      | generated name typeParams target nullable tags => exact ⟨hwell.1.map hrename, hwell.2⟩
      | _ => exact hwell
    | param p =>
      cases p
      exact hrename.nonempty _ hwell
    | typeParam p =>
      cases p
      exact hwell.map hrename
    | heritage h => exact ⟨hwell.1.map hrename, hwell.2⟩
    | foreign label => exact hwell
    | missing => exact hwell
  inner n scope hscope hn := Node.namesWellFormed_inner hscope hn
  self nullable tags scope hscope htags := hself scope nullable tags hscope htags

namespace Stage

/-- Whether a stage takes well-formed names to well-formed names: it renames by a function that
keeps identifiers, or the name that it puts into a tree is one that can be read. -/
def KeepsNames : Stage → Prop
  | .selfTypes top _ _ => ∃ text, Name.parse text = .ok top
  | .escape p _ _ => KeepsIdentifiers p.escape
  | .rename _ f _ _ => KeepsIdentifiers f

theorem wellFormed_apply {s : Stage} (hs : s.KeepsNames) {m : Module} (hm : m.WellFormed) :
    (s.apply m).WellFormed := by
  have hnone : SelfType.NamesWellFormed none := nofun
  cases s with
  | selfTypes top workers verbosity =>
    obtain ⟨text, htext⟩ := hs
    obtain ⟨htop, -⟩ := Name.parse_eq_ok_iff.mp htext
    refine (Rewriting.establishes_wellFormed ⟨fun _ h ↦ h, fun _ h ↦ h⟩ ?_).every hnone hm
    intro scope nullable tags hscope htags
    have hnames : ∀ name, name = top ∨ name ∈ SelfType.namesOf scope → name.WellFormed := by
      rintro name (rfl | hname)
      · exact htop
      · exact hscope name hname
    exact standIn_every
      (fun name args uid hname ↦
        ⟨hnames name hname, Document.isTarget_reference? uid, Provenance.nodup_ofList _⟩)
      fun name hname ↦ ⟨hnames name hname, nofun, List.nodup_nil⟩
  | escape p workers verbosity =>
    exact (Rewriting.establishes_wellFormed (w := .renaming p.escape) hs
      fun _ _ _ _ htags ↦ Ty.every_self.mpr htags).every hnone hm
  | rename name f workers verbosity =>
    exact (Rewriting.establishes_wellFormed (w := .identifiers f) hs
      fun _ _ _ _ htags ↦ Ty.every_self.mpr htags).every hnone hm

theorem wellFormed_applyAll {stages : List Stage} (hstages : ∀ s ∈ stages, s.KeepsNames)
    {m : Module} (hm : m.WellFormed) : (applyAll stages m).WellFormed := by
  induction stages generalizing m with
  | nil => exact hm
  | cons s stages ih =>
    obtain ⟨hs, hstages⟩ := List.forall_mem_cons.mp hstages
    exact ih hstages (wellFormed_apply hs hm)

/-- Every pipeline of stages that keep names succeeds on every well-formed tree with a tree that is
well formed again: it can be written, and what is written reads as that tree. -/
theorem readable_after_stages (policy : Document.UidPolicy) (level : Int) {stages : List Stage}
    (hstages : ∀ s ∈ stages, s.KeepsNames) {m : Module} (hm : m.WellFormed) :
    ∃ m', (Pipeline.lower level (stages.map pass) (some m)).outcome = .ok m' ∧ m'.WellFormed ∧
      ∃ doc, m'.encode = .ok doc ∧ doc.toModule policy = .ok m' := by
  have hwell : (applyAll stages m).WellFormed := wellFormed_applyAll hstages hm
  obtain ⟨doc, hdoc, hread⟩ := Document.module_of_wellFormed hwell
  exact ⟨applyAll stages m, outcome_lower level stages (Module.isKnown_of_sound hm), hwell, doc,
    hdoc, Document.toModule_of_decodeModule (hread [])⟩

/-- The tree is resolved with a qualified name, escaped, given longer names, and resolved again. -/
theorem readable_shelfTree :
    Document.shelfTree.WellFormed ∧
      ∃ m', (Pipeline.lower 0
          [SelfType.pass (.qualify (.ident "lang") "Any") 1 0, Escape.pass .default false 2 0,
            ({ Rules.empty "suffix" with rename := (· ++ "_") } : Rules).pass,
            SelfType.pass (.ident "Any") 1 0]
          (some Document.shelfTree)).outcome = .ok m' ∧ m'.WellFormed ∧
        ∃ doc, m'.encode = .ok doc ∧ doc.toModule .required = .ok m' := by
  have hwell : Document.shelfTree.WellFormed := by decide
  have hsuffix : KeepsIdentifiers (· ++ "_") :=
    ⟨fun s hs ↦ by simp [hs], fun s hs ↦ by simp [String.toList_append, hs]⟩
  have hstages : ∀ s ∈ [Stage.selfTypes (.qualify (.ident "lang") "Any") 1 0, .escape .default 2 0,
      .rename "suffix" (· ++ "_") 1 0, .selfTypes (.ident "Any") 1 0], s.KeepsNames := by
    simp only [List.forall_mem_cons]
    exact ⟨⟨"lang.Any", rfl⟩, Profile.keepsIdentifiers_escape (by decide), hsuffix,
      ⟨"Any", rfl⟩, nofun⟩
  exact ⟨hwell, readable_after_stages .required 0 hstages hwell⟩

end Stage

end DeclTree
