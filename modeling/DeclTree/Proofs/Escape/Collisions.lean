import DeclTree.Proofs.Document.Decoded
import DeclTree.Proofs.Document.RoundTrip
import DeclTree.Proofs.Escape.EveryName
import DeclTree.Proofs.Escape.Grouping

/-!
# Collisions before and after

The pass escapes names identifier by identifier; the detector renders a name, cuts the text at its
dots and escapes the pieces. Both agree on names that could have been written, and on the tokens of
enumerations, which neither of them cuts. They disagree about the names of methods and properties:
such a name is one identifier for the pass, whatever dots it holds.

`Collision.actual` tells the collisions of a tree from the tree and the escaped tree.
`Collision.find_exact` says that the detector reports exactly these where the names of methods and
properties escape alike both ways, and that every name that does not do so has a sibling with which
the report is wrong.
-/

set_option autoImplicit false
set_option relaxedAutoImplicit false

namespace DeclTree

/-! ### Siblings -/

/-- The names in the scope of a node, as written: of the declarations and submodules of a module, of
the members of a class-like declaration, of the tokens of an enumeration. -/
def Node.siblings : Node → List String
  | .module m =>
    Collision.namesOf (m.declarations.map Decl.node ++ m.submodules.map Node.module)
  | .classLike _ members => Collision.namesOf (members.map Member.node)
  | .enum e => e.tokens.map Token.value
  | _ => []

/-- The name of a member that is one identifier whatever dots it holds. -/
def Member.rawName? : Member → Option String
  | .method m => some m.name
  | .property p => some p.name
  | _ => none

/-- Whether cutting the names of methods and properties at their dots makes no difference to what
they are escaped to. -/
def Node.EscapesAlike (p : Profile) : Node → Prop
  | .classLike _ members => ∀ m ∈ members, ∀ s ∈ m.rawName?, p.escapeDotted s = p.escape s
  | _ => True

instance (p : Profile) : DecidablePred (Node.EscapesAlike p) := fun n ↦
  match n with
  | .classLike _ members =>
    inferInstanceAs (Decidable (∀ m ∈ members, ∀ s ∈ m.rawName?, p.escapeDotted s = p.escape s))
  | .module _ | .function _ | .var _ | .typeAlias _ | .enum _ | .foreign _ | .method _
  | .property _ | .constructor _ | .type _ | .param _ | .typeParam _ | .heritage _ | .missing =>
    .isTrue trivial

theorem Node.name?_renamed (f : String → String) (n : Node) :
    (n.renamed f).name? = n.name?.map (Name.map f) := by
  cases n with
  | module m =>
    obtain ⟨head, declarations, submodules⟩ := m
    simp only [Node.renamed, Module.renamed_mk]
    rfl
  | function x =>
    simp only [Node.renamed, Function.renamed_eq]
    rfl
  | type t =>
    cases t with
    | _ => rfl
  | param p =>
    obtain ⟨name, type, isOptional, isVararg⟩ := p
    rfl
  | typeParam p =>
    obtain ⟨name, constraints, default⟩ := p
    rfl
  | _ => rfl

namespace Collision

theorem namesOf_eq (nodes : List Node) :
    namesOf nodes = (nodes.filterMap Node.name?).map Name.render := by
  rw [namesOf, List.map_filterMap]

theorem namesOf_renamed (f : String → String) (nodes : List Node) :
    namesOf (nodes.map (Node.renamed f)) =
      (nodes.filterMap Node.name?).map fun name ↦ (name.map f).render := by
  have hnames : (nodes.map (Node.renamed f)).filterMap Node.name? =
      (nodes.filterMap Node.name?).map (Name.map f) := by
    rw [List.filterMap_map, List.map_filterMap]
    exact List.filterMap_congr fun n _ ↦ n.name?_renamed f
  rw [namesOf_eq, hnames, List.map_map]
  rfl

theorem siblings_renamed_module (f : String → String) (head : ModuleHead)
    (declarations : List Decl) (submodules : List Module) :
    ((Node.module ⟨head, declarations, submodules⟩).renamed f).siblings =
      namesOf ((declarations.map Decl.node ++ submodules.map Node.module).map
        (Node.renamed f)) := by
  have hnodes : (declarations.map (Decl.renamed f)).map Decl.node ++
        (submodules.map (Module.renamed f)).map Node.module =
      (declarations.map Decl.node ++ submodules.map Node.module).map (Node.renamed f) := by
    rw [List.map_append, List.map_map, List.map_map, List.map_map, List.map_map]
    congr 1
    exact List.map_congr_left fun d _ ↦ d.node_renamed
  rw [Node.renamed, Module.renamed_mk, ← hnodes]
  rfl

theorem siblings_renamed_classLike (f : String → String) (head : ClassHead)
    (members : List Member) :
    ((Node.classLike head members).renamed f).siblings =
      namesOf ((members.map Member.node).map (Node.renamed f)) := by
  have hnodes : (members.map (Member.renamed f)).map Member.node =
      (members.map Member.node).map (Node.renamed f) := by
    rw [List.map_map, List.map_map]
    exact List.map_congr_left fun m _ ↦ m.node_renamed
  rw [← hnodes]
  rfl

/-! ### One scope -/

/-- In a scope of names that escape alike both ways the detector reports what happens. -/
theorem ofNames_namesOf {p : Profile} (scope : String) {nodes : List Node}
    (halike : ∀ n ∈ nodes, ∀ name ∈ n.name?,
      p.escapeDotted name.render = (name.map p.escape).render) :
    ofNames scope (namesOf nodes) p.escapeDotted =
      between scope ((namesOf nodes).zip (namesOf (nodes.map (Node.renamed p.escape)))) := by
  have hpairs : ((nodes.filterMap Node.name?).map fun name ↦
        (name.render, p.escapeDotted name.render)) =
      (nodes.filterMap Node.name?).map fun name ↦ (name.render, (name.map p.escape).render) := by
    refine List.map_congr_left fun name hname ↦ ?_
    obtain ⟨n, hn, hname⟩ := List.mem_filterMap.mp hname
    rw [halike n hn name hname]
  rw [ofNames_eq_between, namesOf_renamed, namesOf_eq, List.zip_map', List.map_map, ← hpairs]
  rfl

variable {Identity : Uid → Prop} {p : Profile}

theorem alike_of_wellFormed {name? : Option Name} (hname : ∀ name ∈ name?, name.WellFormed) :
    ∀ name ∈ name?, p.escapeDotted name.render = (name.map p.escape).render :=
  fun name hmem ↦ p.escapeDotted_render (hname name hmem)

theorem alike_decl {d : Decl} (hd : d.Every (Node.LocallySound Identity)) :
    ∀ name ∈ d.node.name?, p.escapeDotted name.render = (name.map p.escape).render := by
  refine alike_of_wellFormed fun name hname ↦ ?_
  cases d with
  | module m => exact (Module.every_iff.mp (Decl.every_module.mp hd)).1.1.1 name hname
  | classLike head members =>
    obtain rfl := Option.mem_some.mp hname
    exact (Member.every_classLike.mp (Decl.every_classLike.mp hd)).1.1
  | function f =>
    obtain rfl := Option.mem_some.mp hname
    exact (Function.every_iff.mp (Decl.every_function.mp hd)).1.1
  | var v =>
    obtain rfl := Option.mem_some.mp hname
    exact (Decl.every_var.mp hd).1.1
  | typeAlias a =>
    obtain rfl := Option.mem_some.mp hname
    exact (Decl.every_typeAlias.mp hd).1.1
  | enum e =>
    obtain rfl := Option.mem_some.mp hname
    exact (Decl.every_enum.mp hd).1
  | foreign label => exact nomatch hname
  | missing => exact nomatch hname

theorem alike_member {m : Member} (hm : m.Every (Node.LocallySound Identity))
    (hraw : ∀ s ∈ m.rawName?, p.escapeDotted s = p.escape s) :
    ∀ name ∈ m.node.name?, p.escapeDotted name.render = (name.map p.escape).render := by
  cases m with
  | method m =>
    intro name hname
    obtain rfl := Option.mem_some.mp hname
    exact hraw m.name rfl
  | property q =>
    intro name hname
    obtain rfl := Option.mem_some.mp hname
    exact hraw q.name rfl
  | constructor c => exact nofun
  | function f =>
    refine alike_of_wellFormed fun name hname ↦ ?_
    obtain rfl := Option.mem_some.mp hname
    exact (Function.every_iff.mp (Member.every_function.mp hm)).1.1
  | classLike head members =>
    refine alike_of_wellFormed fun name hname ↦ ?_
    obtain rfl := Option.mem_some.mp hname
    exact (Member.every_classLike.mp hm).1.1

/-- The detector is exact in every scope of a sound tree whose methods and properties escape alike
both ways; modules and enumerations ask for nothing. -/
theorem inScope_eq_between {n : Node} (hn : n.Every (Node.LocallySound Identity))
    (halike : n.EscapesAlike p) :
    inScope p n = between n.describe (n.siblings.zip (n.renamed p.escape).siblings) := by
  cases n with
  | module m =>
    obtain ⟨head, declarations, submodules⟩ := m
    obtain ⟨-, hdecls, hmodules⟩ := Module.every_iff.mp hn
    rw [siblings_renamed_module]
    refine ofNames_namesOf _ fun n hn ↦ ?_
    rcases List.mem_append.mp hn with hn | hn
    · obtain ⟨d, hd, rfl⟩ := List.mem_map.mp hn
      exact alike_decl (hdecls d hd)
    · obtain ⟨m, hm, rfl⟩ := List.mem_map.mp hn
      exact alike_of_wellFormed (Module.every_iff.mp (hmodules m hm)).1.1.1
  | classLike head members =>
    obtain ⟨-, -, -, hmembers⟩ := Member.every_classLike.mp hn
    rw [siblings_renamed_classLike]
    refine ofNames_namesOf _ fun n hn ↦ ?_
    obtain ⟨m, hm, rfl⟩ := List.mem_map.mp hn
    exact alike_member (hmembers m hm) (halike m hm)
  | enum e =>
    have htokens : ((Node.enum e).renamed p.escape).siblings =
        e.tokens.map fun t ↦ p.escape t.value := by
      simp only [Node.renamed, Enum.renamed_eq, Node.siblings, List.map_map]
      rfl
    rw [htokens]
    simp only [inScope, Node.siblings]
    rw [ofNames_eq_between, List.zip_map', List.map_map]
    rfl
  | _ => rfl

/-! ### Whole trees -/

/-- The collisions of a tree, told from the tree and what has become of it: scope by scope in source
order. -/
def actual (m m' : Module) : List Collision :=
  (m.nodes.zip m'.nodes).flatMap fun pair ↦
    between pair.1.describe (pair.1.siblings.zip pair.2.siblings)

/-- Whether siblings of different names keep different names in every scope. -/
def KeepsApart (m m' : Module) : Prop :=
  ∀ pair ∈ m.nodes.zip m'.nodes, ∀ a ∈ pair.1.siblings.zip pair.2.siblings,
    ∀ b ∈ pair.1.siblings.zip pair.2.siblings, a.1 ≠ b.1 → a.2 ≠ b.2

theorem actual_eq_nil_iff {m m' : Module} : actual m m' = [] ↔ KeepsApart m m' := by
  rw [actual, List.flatMap_eq_nil_iff]
  exact forall₂_congr fun pair _ ↦ between_eq_nil_iff

theorem zip_nodes_renamed (f : String → String) (m : Module) :
    m.nodes.zip (m.renamed f).nodes = m.nodes.map fun n ↦ (n, n.renamed f) := by
  have hzip : (m.nodes.map id).zip (m.nodes.map (Node.renamed f)) =
      m.nodes.map fun n ↦ (n, n.renamed f) := List.zip_map'
  rwa [List.map_id, ← Module.nodes_renamed] at hzip

theorem actual_renamed (f : String → String) (m : Module) :
    actual m (m.renamed f) =
      m.nodes.flatMap fun n ↦ between n.describe (n.siblings.zip (n.renamed f).siblings) := by
  rw [actual, zip_nodes_renamed, List.flatMap_map]

theorem find_eq_actual {m : Module} (hm : m.Every (Node.LocallySound Identity))
    (halike : m.Every (Node.EscapesAlike p)) : find p m = actual m (m.renamed p.escape) := by
  rw [find, actual_renamed]
  exact List.flatMap_congr fun n hn ↦ inScope_eq_between (Module.every_every hm n hn) (halike n hn)

end Collision

namespace Escape

/-- Where collisions are faults, the pass succeeds exactly when none is found. -/
theorem succeeds_iff_find_eq_nil (p : Profile) (workers verbosity : Int) {m : Module}
    (hknown : m.IsKnown) :
    (∃ tree, ((pass p true workers verbosity).lower (some m)).outcome = .ok tree) ↔
      Collision.find p m = [] := by
  constructor
  · rintro ⟨tree, htree⟩
    by_contra hfound
    have hreport : (report p true m).outcome =
        .error (.fault (Collision.fault (Collision.find p m))) := by
      simp [report, hfound]
    rw [show ((pass p true workers verbosity).lower (some m)).outcome =
      .error (.fault (Collision.fault (Collision.find p m))) from
        Run.outcome_bind_of_error hreport _] at htree
    exact nomatch htree
  · intro hnone
    have hreport : (report p true m).outcome = .ok () := by
      simp [report, hnone]
    exact ⟨_, outcome_pass p true workers verbosity hknown hreport⟩

end Escape

/-! ### Names that escape differently both ways -/

namespace Collision

variable {p : Profile}

theorem between_single (scope : String) (pair : String × String) :
    between scope [pair] = [] := by
  simp [between, List.eraseDups_cons]

theorem between_pair (scope : String) {s t : String} (hne : s ≠ t) (a b : String) :
    between scope [(s, a), (t, b)] = if a = b then [⟨scope, a, sorted [s, t]⟩] else [] := by
  by_cases hab : a = b
  · subst hab
    simp [between, List.eraseDups_cons, Ne.symm hne]
  · simp [between, List.eraseDups_cons, hab, Ne.symm hab]

theorem sorted_pair (s t : String) : sorted [s, t] = if s ≤ t then [s, t] else [t, s] := by
  simp [sorted, List.mergeSort, List.MergeSort.Internal.splitInTwo, List.merge]

/-- A class of two methods in a module of its own. -/
def twoMethods (s t : String) : Module :=
  ⟨⟨none, none, "", [], []⟩,
    [.classLike ⟨.cls false [], .ident "C", [], false, "class:C", ⟨[]⟩⟩
      [.method ⟨s, [], [], none, false, false, false⟩,
        .method ⟨t, [], [], none, false, false, false⟩]],
    []⟩

theorem nodes_twoMethods (s t : String) :
    (twoMethods s t).nodes =
      [.module (twoMethods s t),
        .classLike ⟨.cls false [], .ident "C", [], false, "class:C", ⟨[]⟩⟩
          [.method ⟨s, [], [], none, false, false, false⟩,
            .method ⟨t, [], [], none, false, false, false⟩],
        .method ⟨s, [], [], none, false, false, false⟩,
        .method ⟨t, [], [], none, false, false, false⟩] := rfl

theorem twoMethods_wellFormed {s t : String} (hs : s ≠ "") (ht : t ≠ "") :
    (twoMethods s t).WellFormed := by
  have hclass : (Name.ident "C").WellFormed ∧ "class:C" ≠ "" ∧ Provenance.WellFormed ⟨[]⟩ := by
    decide
  have hhead : (twoMethods s t).head.WellFormed := ⟨nofun, nofun, nofun⟩
  rw [Module.WellFormed, Module.Every, nodes_twoMethods]
  simp only [List.forall_mem_cons]
  exact ⟨⟨hhead, rfl⟩, hclass, hs, ht, List.forall_mem_nil _⟩

theorem find_twoMethods (p : Profile) (s t : String) :
    find p (twoMethods s t) =
      between "class C [uid class:C]" [(s, p.escapeDotted s), (t, p.escapeDotted t)] := by
  have hmodule : inScope p (.module (twoMethods s t)) = [] :=
    (ofNames_eq_between "module" ["C"] p.escapeDotted).trans (between_single ..)
  rw [find, nodes_twoMethods, List.flatMap_cons, hmodule, List.nil_append, List.flatMap_cons]
  exact (List.append_nil _).trans
    (ofNames_eq_between "class C [uid class:C]" [s, t] p.escapeDotted)

theorem actual_twoMethods (p : Profile) (s t : String) :
    actual (twoMethods s t) ((twoMethods s t).renamed p.escape) =
      between "class C [uid class:C]" [(s, p.escape s), (t, p.escape t)] := by
  have hmodule : between (Node.describe (.module (twoMethods s t)))
      ((Node.siblings (.module (twoMethods s t))).zip
        ((Node.module (twoMethods s t)).renamed p.escape).siblings) = [] := by
    rw [twoMethods, siblings_renamed_module, namesOf_renamed]
    exact between_single "module" ("C", p.escape "C")
  rw [actual_renamed, nodes_twoMethods, List.flatMap_cons, hmodule, List.nil_append,
    List.flatMap_cons, siblings_renamed_classLike, namesOf_renamed]
  exact List.append_nil _

/-- A name that escapes differently in pieces and as a whole has a sibling that collides with it in
one of the two ways: what it is escaped to, as a whole or in pieces. -/
theorem exists_sibling (hmark : '.' ∉ p.mark.toList) {s : String} (hs : s ≠ "")
    (hdiffers : p.escapeDotted s ≠ p.escape s) :
    ∃ t, t ≠ "" ∧ s ≠ t ∧ (p.escapeDotted s = p.escapeDotted t ∨ p.escape s = p.escape t) := by
  by_cases hwhole : p.escape s = s
  · refine ⟨p.escapeDotted s, Profile.escapeDotted_ne_empty hmark hs, ?_, .inl ?_⟩
    · rw [hwhole] at hdiffers
      exact hdiffers.symm
    · rw [Profile.escapeDotted_escapeDotted hmark]
  · refine ⟨p.escape s, Profile.escape_ne_empty hs, Ne.symm hwhole, .inr ?_⟩
    rw [Profile.escape_escape]

theorem find_twoMethods_ne_actual {s t : String} (hne : s ≠ t)
    (hdiffers : p.escapeDotted s ≠ p.escape s)
    (hcollides : p.escapeDotted s = p.escapeDotted t ∨ p.escape s = p.escape t) :
    find p (twoMethods s t) ≠ actual (twoMethods s t) ((twoMethods s t).renamed p.escape) := by
  rw [find_twoMethods, actual_twoMethods, between_pair _ hne, between_pair _ hne]
  by_cases hpieces : p.escapeDotted s = p.escapeDotted t
  · by_cases hwhole : p.escape s = p.escape t
    · rw [if_pos hpieces, if_pos hwhole]
      intro heq
      exact hdiffers (congrArg Collision.escaped (List.head_eq_of_cons_eq heq))
    · simp [hpieces, hwhole]
  · have hwhole := hcollides.resolve_left hpieces
    simp [hpieces, hwhole]

/-- What the detector finds is exact as far as names of methods and properties escape alike in
pieces and as a whole, and no further.

In every tree that the decoder gives, and in every scope of it where they do, the detector reports
exactly the groups of different sibling names that the pass makes equal. Where they do throughout,
so does the whole report, and a pass for which collisions are faults succeeds exactly when siblings
of different names keep different names. Names without dots escape alike. Conversely, with a quote
that holds no dot, every name that escapes differently both ways has a sibling in a tree that the
decoder gives for which the report is wrong. -/
theorem find_exact (p : Profile) :
    (∀ (policy : Document.UidPolicy) (doc : Document) (m : Module), doc.toModule policy = .ok m →
      ∀ workers verbosity : Int,
        ∃ m', ((Escape.pass p false workers verbosity).lower (some m)).outcome = .ok (some m') ∧
          (∀ pair ∈ m.nodes.zip m'.nodes, pair.1.EscapesAlike p →
            inScope p pair.1 = between pair.1.describe (pair.1.siblings.zip pair.2.siblings)) ∧
          (m.Every (Node.EscapesAlike p) →
            find p m = actual m m' ∧
              ((∃ tree, ((Escape.pass p true workers verbosity).lower (some m)).outcome =
                .ok tree) ↔ KeepsApart m m'))) ∧
      (∀ s : String, '.' ∉ s.toList → p.escapeDotted s = p.escape s) ∧
      ('.' ∉ p.mark.toList → ∀ s, s ≠ "" → p.escapeDotted s ≠ p.escape s →
        ∃ t doc, Document.toModule .required doc = .ok (twoMethods s t) ∧
          ∀ workers verbosity : Int, ∃ m',
            ((Escape.pass p false workers verbosity).lower (some (twoMethods s t))).outcome =
              .ok (some m') ∧ find p (twoMethods s t) ≠ actual (twoMethods s t) m') := by
  refine ⟨?_, fun s hs ↦ p.escapeDotted_of_not_mem hs, ?_⟩
  · intro policy doc m hdoc workers verbosity
    have hgrants : policy.Grants fun _ ↦ True := by
      refine ⟨fun _ _ ↦ trivial, ?_⟩
      cases policy with
      | required => trivial
      | minted supply => exact fun _ ↦ trivial
    have hsound := Document.every_of_toModule hgrants hdoc
    have hknown := Module.isKnown_of_sound hsound
    refine ⟨m.renamed p.escape, Escape.outcome_pass p false workers verbosity hknown rfl, ?_, ?_⟩
    · intro pair hpair halike
      rw [zip_nodes_renamed] at hpair
      obtain ⟨n, hn, rfl⟩ := List.mem_map.mp hpair
      exact inScope_eq_between (Module.every_every hsound n hn) halike
    · intro halike
      have hfind := find_eq_actual hsound halike
      refine ⟨hfind, ?_⟩
      rw [Escape.succeeds_iff_find_eq_nil p workers verbosity hknown, hfind, actual_eq_nil_iff]
  · intro hmark s hs hdiffers
    obtain ⟨t, ht, hne, hcollides⟩ := exists_sibling hmark hs hdiffers
    have hwell := twoMethods_wellFormed hs ht
    obtain ⟨doc, -, hread⟩ := Document.module_of_wellFormed hwell
    refine ⟨t, doc, Document.toModule_of_decodeModule (hread []), fun workers verbosity ↦ ?_⟩
    exact ⟨_, Escape.outcome_pass p false workers verbosity (Module.isKnown_of_sound hwell) rfl,
      find_twoMethods_ne_actual hne hdiffers hcollides⟩

/-- Two methods that collide, and are reported: a reserved word and the same word quoted. -/
theorem find_exact_reserved :
    ∃ doc, Document.toModule .required doc = .ok (twoMethods "fun" "`fun`") ∧
      (twoMethods "fun" "`fun`").Every (Node.EscapesAlike .default) ∧
      ∃ m', ((Escape.pass .default false 1 0).lower (some (twoMethods "fun" "`fun`"))).outcome =
          .ok (some m') ∧
        find .default (twoMethods "fun" "`fun`") = actual (twoMethods "fun" "`fun`") m' := by
  have hwell : (twoMethods "fun" "`fun`").WellFormed := by decide
  have halike : (twoMethods "fun" "`fun`").Every (Node.EscapesAlike .default) := by decide
  obtain ⟨doc, -, hread⟩ := Document.module_of_wellFormed hwell
  have hdoc := Document.toModule_of_decodeModule (hread [])
  obtain ⟨m', hlower, -, hexact⟩ := (find_exact .default).1 .required doc _ hdoc 1 0
  exact ⟨doc, hdoc, halike, m', hlower, (hexact halike).1⟩

/-- Two methods that are reported and do not collide: the pass leaves both as they are, the detector
cuts them at their dots. -/
theorem find_twoMethods_dotted :
    find .default (twoMethods "a.fun" "a.`fun`") =
        [⟨"class C [uid class:C]", "a.`fun`", ["a.`fun`", "a.fun"]⟩] ∧
      KeepsApart (twoMethods "a.fun" "a.`fun`")
        ((twoMethods "a.fun" "a.`fun`").renamed Profile.default.escape) := by
  constructor
  · rw [find_twoMethods, between_pair _ (by decide), if_pos (by decide), sorted_pair,
      if_neg (by decide)]
    rfl
  · rw [← actual_eq_nil_iff, actual_twoMethods, between_pair _ (by decide)]
    exact if_neg (by decide)

end Collision

end DeclTree
