import DeclTree.Proofs.Tree.Segments

/-!
# Filling in a blank tree

A blank tree and a list of identifiers determine the tree: the blank says how many of the
identifiers belong to each node, so the list can be read off from the front. `Legible` is that
property for one part of a tree with more identifiers behind it, and it passes from the parts of a
node to the node. `Module.eq_of_blank_of_segments` draws the conclusion.
-/

set_option autoImplicit false
set_option relaxedAutoImplicit false

namespace DeclTree

/-- What has the blank of `a` and whose identifiers stand at the front of the same list is `a`, and
the rest of the list is the same. -/
def Legible {α β : Type} (blank : α → β) (segments : α → List String) (a : α) : Prop :=
  ∀ (b : α) (rest rest' : List String), blank a = blank b →
    segments a ++ rest = segments b ++ rest' → a = b ∧ rest = rest'

namespace Legible

variable {α β : Type} {blank : α → β} {segments : α → List String}

theorem list {as : List α} (has : ∀ a ∈ as, Legible blank segments a) :
    Legible (List.map blank) (List.flatMap segments) as := by
  induction as with
  | nil =>
    intro bs rest rest' hblank hsegments
    rw [List.map_nil, eq_comm, List.map_eq_nil_iff] at hblank
    subst hblank
    exact ⟨rfl, hsegments⟩
  | cons a as ih =>
    intro bs rest rest' hblank hsegments
    obtain ⟨ha, has⟩ := List.forall_mem_cons.mp has
    cases bs with
    | nil => exact nomatch hblank
    | cons b bs =>
      obtain ⟨hhead, htail⟩ := List.cons_eq_cons.mp hblank
      rw [List.flatMap_cons, List.flatMap_cons, List.append_assoc, List.append_assoc] at hsegments
      obtain ⟨rfl, hrest⟩ := ha b _ _ hhead hsegments
      obtain ⟨rfl, hrest₂⟩ := ih has bs _ _ htail hrest
      exact ⟨rfl, hrest₂⟩

theorem slot {slot : Option α} (hslot : ∀ a ∈ slot, Legible blank segments a) :
    Legible (Option.map blank) (fun slot ↦ slot.toList.flatMap segments) slot := by
  intro slot' rest rest' hblank hsegments
  cases slot with
  | none =>
    cases slot' with
    | none => exact ⟨rfl, hsegments⟩
    | some b => exact nomatch hblank
  | some a =>
    cases slot' with
    | none => exact nomatch hblank
    | some b =>
      simp only [Option.toList_some, List.flatMap_singleton] at hsegments
      obtain ⟨rfl, hrest⟩ := hslot a rfl b _ _ (Option.some.inj hblank) hsegments
      exact ⟨rfl, hrest⟩

end Legible

/-! ### Names -/

theorem Name.legible (name : Name) : Legible (Name.map fun _ ↦ "") Name.segments name := by
  intro name' rest rest' hblank hsegments
  have hlength : name.segments.length = name'.segments.length := by
    have hmapped := congrArg (fun n : Name ↦ n.segments.length) hblank
    simpa only [Name.segments_map, List.length_map] using hmapped
  obtain ⟨hname, hrest⟩ := List.append_inj hsegments hlength
  exact ⟨Name.eq_of_segments_eq hname, hrest⟩

theorem Name.list_legible (names : List Name) :
    Legible (List.map (Name.map fun _ ↦ "")) (List.flatMap Name.segments) names :=
  Legible.list fun name _ ↦ name.legible

theorem Name.slot_legible (slot : Option Name) :
    Legible (Option.map (Name.map fun _ ↦ "")) (fun slot ↦ slot.toList.flatMap Name.segments)
      slot :=
  Legible.slot fun name _ ↦ name.legible

theorem Receiver.legible (r : Receiver) :
    Legible (Receiver.rename fun _ ↦ "") Receiver.segments r := by
  obtain ⟨name, typeParams⟩ := r
  rintro ⟨name', typeParams'⟩ rest rest' hblank hsegments
  simp only [Receiver.rename, Receiver.mk.injEq] at hblank
  obtain ⟨hname, htypeParams⟩ := hblank
  simp only [Receiver.segments, List.append_assoc] at hsegments
  obtain ⟨rfl, hrest⟩ := name.legible _ _ _ hname hsegments
  obtain ⟨rfl, hrest₂⟩ := Name.list_legible typeParams _ _ _ htypeParams hrest
  exact ⟨rfl, hrest₂⟩

theorem Receiver.slot_legible (slot : Option Receiver) :
    Legible (Option.map (Receiver.rename fun _ ↦ ""))
      (fun slot ↦ slot.toList.flatMap Receiver.segments) slot :=
  Legible.slot fun r _ ↦ r.legible

/-! ### Types -/

theorem types_legible :
    TypeStorey
      (Legible (Ty.renamed fun _ ↦ "") Ty.segments)
      (Legible (Param.renamed fun _ ↦ "") Param.segments)
      (Legible (TypeParam.renamed fun _ ↦ "") TypeParam.segments) where
  named name args target nullable tags hargs := by
    intro t rest rest' hblank hsegments
    cases t with
    | named name' args' target' nullable' tags' =>
      simp only [Ty.renamed_named, Ty.named.injEq] at hblank
      obtain ⟨hname, hlist, rfl, rfl, rfl⟩ := hblank
      simp only [Ty.segments_named, List.append_assoc] at hsegments
      obtain ⟨rfl, hrest⟩ := name.legible _ _ _ hname hsegments
      obtain ⟨rfl, hrest₂⟩ := Legible.list hargs _ _ _ hlist hrest
      exact ⟨rfl, hrest₂⟩
    | _ => simp at hblank
  function params result nullable tags hparams hresult := by
    intro t rest rest' hblank hsegments
    cases t with
    | function params' result' nullable' tags' =>
      simp only [Ty.renamed_function, Ty.function.injEq] at hblank
      obtain ⟨hlist, hslot, rfl, rfl⟩ := hblank
      simp only [Ty.segments_function, List.append_assoc] at hsegments
      obtain ⟨rfl, hrest⟩ := Legible.list hparams _ _ _ hlist hsegments
      obtain ⟨rfl, hrest₂⟩ := Legible.slot hresult _ _ _ hslot hrest
      exact ⟨rfl, hrest₂⟩
    | _ => simp at hblank
  union alternatives nullable tags halternatives := by
    intro t rest rest' hblank hsegments
    cases t with
    | union alternatives' nullable' tags' =>
      simp only [Ty.renamed_union, Ty.union.injEq] at hblank
      obtain ⟨hlist, rfl, rfl⟩ := hblank
      simp only [Ty.segments_union] at hsegments
      obtain ⟨rfl, hrest⟩ := Legible.list halternatives _ _ _ hlist hsegments
      exact ⟨rfl, hrest⟩
    | _ => simp at hblank
  self nullable tags := by
    intro t rest rest' hblank hsegments
    cases t with
    | self nullable' tags' =>
      obtain ⟨rfl, rfl⟩ := Ty.self.inj hblank
      exact ⟨rfl, hsegments⟩
    | _ => simp at hblank
  generated name typeParams target nullable tags htypeParams := by
    intro t rest rest' hblank hsegments
    cases t with
    | generated name' typeParams' target' nullable' tags' =>
      simp only [Ty.renamed_generated, Ty.generated.injEq] at hblank
      obtain ⟨hname, hlist, rfl, rfl, rfl⟩ := hblank
      simp only [Ty.segments_generated, List.append_assoc] at hsegments
      obtain ⟨rfl, hrest⟩ := name.legible _ _ _ hname hsegments
      obtain ⟨rfl, hrest₂⟩ := Legible.list htypeParams _ _ _ hlist hrest
      exact ⟨rfl, hrest₂⟩
    | _ => simp at hblank
  foreign label := by
    intro t rest rest' hblank hsegments
    cases t with
    | foreign label' =>
      obtain rfl := Ty.foreign.inj hblank
      exact ⟨rfl, hsegments⟩
    | _ => simp at hblank
  param name type isOptional isVararg htype := by
    rintro ⟨name', type', isOptional', isVararg'⟩ rest rest' hblank hsegments
    simp only [Param.renamed_mk, Param.mk.injEq, true_and] at hblank
    obtain ⟨hslot, rfl, rfl⟩ := hblank
    simp only [Param.segments_mk, List.append_assoc] at hsegments
    obtain ⟨rfl, hrest⟩ := List.cons_eq_cons.mp hsegments
    obtain ⟨rfl, hrest₂⟩ := Legible.slot htype _ _ _ hslot hrest
    exact ⟨rfl, hrest₂⟩
  typeParam name constraints default hconstraints hdefault := by
    rintro ⟨name', constraints', default'⟩ rest rest' hblank hsegments
    simp only [TypeParam.renamed_mk, TypeParam.mk.injEq] at hblank
    obtain ⟨hname, hlist, hslot⟩ := hblank
    simp only [TypeParam.segments_mk, List.append_assoc] at hsegments
    obtain ⟨rfl, hrest⟩ := name.legible _ _ _ hname hsegments
    obtain ⟨rfl, hrest₂⟩ := Legible.list hconstraints _ _ _ hlist hrest
    obtain ⟨rfl, hrest₃⟩ := Legible.slot hdefault _ _ _ hslot hrest₂
    exact ⟨rfl, hrest₃⟩

theorem Ty.list_legible (ts : List Ty) :
    Legible (List.map (Ty.renamed fun _ ↦ "")) (List.flatMap Ty.segments) ts :=
  Legible.list (types_legible.forTypes ts)

theorem Ty.slot_legible (slot : Option Ty) :
    Legible (Option.map (Ty.renamed fun _ ↦ "")) (fun slot ↦ slot.toList.flatMap Ty.segments)
      slot :=
  Legible.slot (types_legible.forSlot slot)

theorem Param.list_legible (ps : List Param) :
    Legible (List.map (Param.renamed fun _ ↦ "")) (List.flatMap Param.segments) ps :=
  Legible.list (types_legible.forParams ps)

theorem TypeParam.list_legible (ps : List TypeParam) :
    Legible (List.map (TypeParam.renamed fun _ ↦ "")) (List.flatMap TypeParam.segments) ps :=
  Legible.list (types_legible.forTypeParams ps)

/-! ### Members -/

theorem Heritage.legible (h : Heritage) :
    Legible (Heritage.renamed fun _ ↦ "") Heritage.segments h := by
  obtain ⟨name, args, target⟩ := h
  rintro ⟨name', args', target'⟩ rest rest' hblank hsegments
  simp only [Heritage.renamed_mk, Heritage.mk.injEq] at hblank
  obtain ⟨hname, hlist, rfl⟩ := hblank
  simp only [Heritage.segments_eq, List.append_assoc] at hsegments
  obtain ⟨rfl, hrest⟩ := name.legible _ _ _ hname hsegments
  obtain ⟨rfl, hrest₂⟩ := Ty.list_legible args _ _ _ hlist hrest
  exact ⟨rfl, hrest₂⟩

theorem Function.legible (x : Function) :
    Legible (Function.renamed fun _ ↦ "") Function.segments x := by
  obtain ⟨name, typeParams, params, result, receiver, isInline, isOperator, isExported, uid,
    tags⟩ := x
  rintro ⟨name', typeParams', params', result', receiver', isInline', isOperator', isExported', uid',
    tags'⟩ rest rest' hblank hsegments
  simp only [Function.renamed_eq, Function.mk.injEq] at hblank
  obtain ⟨hname, htypeParams, hparams, hresult, hreceiver, rfl, rfl, rfl, rfl, rfl⟩ := hblank
  simp only [Function.segments_eq, List.append_assoc] at hsegments
  obtain ⟨rfl, hrest⟩ := name.legible _ _ _ hname hsegments
  obtain ⟨rfl, hrest₂⟩ := Receiver.slot_legible receiver _ _ _ hreceiver hrest
  obtain ⟨rfl, hrest₃⟩ := TypeParam.list_legible typeParams _ _ _ htypeParams hrest₂
  obtain ⟨rfl, hrest₄⟩ := Param.list_legible params _ _ _ hparams hrest₃
  obtain ⟨rfl, hrest₅⟩ := Ty.slot_legible result _ _ _ hresult hrest₄
  exact ⟨rfl, hrest₅⟩

theorem ClassHead.legible (head : ClassHead) :
    Legible (ClassHead.renamed fun _ ↦ "") ClassHead.segments head := by
  obtain ⟨form, name, parents, isExported, uid, tags⟩ := head
  rintro ⟨form', name', parents', isExported', uid', tags'⟩ rest rest' hblank hsegments
  simp only [ClassHead.renamed_eq, ClassHead.mk.injEq] at hblank
  obtain ⟨hform, hname, hparents, rfl, rfl, rfl⟩ := hblank
  simp only [ClassHead.segments, List.append_assoc] at hsegments
  obtain ⟨rfl, hrest⟩ := name.legible _ _ _ hname hsegments
  have hparentsLegible := Legible.list fun h (_ : h ∈ parents) ↦ h.legible
  cases form with
  | cls isAbstract typeParams =>
    cases form' with
    | cls isAbstract' typeParams' =>
      obtain ⟨rfl, htypeParams⟩ := ClassForm.cls.inj hform
      obtain ⟨rfl, hrest₂⟩ := TypeParam.list_legible typeParams _ _ _ htypeParams hrest
      obtain ⟨rfl, hrest₃⟩ := hparentsLegible _ _ _ hparents hrest₂
      exact ⟨rfl, hrest₃⟩
    | _ => cases hform
  | interface isGenerated typeParams =>
    cases form' with
    | interface isGenerated' typeParams' =>
      obtain ⟨rfl, htypeParams⟩ := ClassForm.interface.inj hform
      obtain ⟨rfl, hrest₂⟩ := TypeParam.list_legible typeParams _ _ _ htypeParams hrest
      obtain ⟨rfl, hrest₃⟩ := hparentsLegible _ _ _ hparents hrest₂
      exact ⟨rfl, hrest₃⟩
    | _ => cases hform
  | object =>
    cases form' with
    | object =>
      obtain ⟨rfl, hrest₂⟩ := hparentsLegible _ _ _ hparents hrest
      exact ⟨rfl, hrest₂⟩
    | _ => cases hform

theorem members_legible :
    MemberStorey (Legible (Member.renamed fun _ ↦ "") Member.segments) where
  method m := by
    intro m' rest rest' hblank hsegments
    cases m' with
    | method m' =>
      obtain ⟨name, typeParams, params, result, isStatic, isOverride, isOperator⟩ := m
      obtain ⟨name', typeParams', params', result', isStatic', isOverride', isOperator'⟩ := m'
      simp only [Member.renamed_method, Method.renamed_eq, Member.method.injEq, Method.mk.injEq,
        true_and] at hblank
      obtain ⟨htypeParams, hparams, hresult, rfl, rfl, rfl⟩ := hblank
      simp only [Member.segments_method, List.append_assoc] at hsegments
      obtain ⟨rfl, hrest⟩ := List.cons_eq_cons.mp hsegments
      obtain ⟨rfl, hrest₂⟩ := TypeParam.list_legible typeParams _ _ _ htypeParams hrest
      obtain ⟨rfl, hrest₃⟩ := Param.list_legible params _ _ _ hparams hrest₂
      obtain ⟨rfl, hrest₄⟩ := Ty.slot_legible result _ _ _ hresult hrest₃
      exact ⟨rfl, hrest₄⟩
    | _ => simp at hblank
  property p := by
    intro m' rest rest' hblank hsegments
    cases m' with
    | property p' =>
      obtain ⟨name, typeParams, type, isStatic, isOverride, hasGetter, hasSetter, isOpen⟩ := p
      obtain ⟨name', typeParams', type', isStatic', isOverride', hasGetter', hasSetter',
        isOpen'⟩ := p'
      simp only [Member.renamed_property, Property.renamed_eq, Member.property.injEq,
        Property.mk.injEq, true_and] at hblank
      obtain ⟨htypeParams, htype, rfl, rfl, rfl, rfl, rfl⟩ := hblank
      simp only [Member.segments_property, List.append_assoc] at hsegments
      obtain ⟨rfl, hrest⟩ := List.cons_eq_cons.mp hsegments
      obtain ⟨rfl, hrest₂⟩ := TypeParam.list_legible typeParams _ _ _ htypeParams hrest
      obtain ⟨rfl, hrest₃⟩ := Ty.slot_legible type _ _ _ htype hrest₂
      exact ⟨rfl, hrest₃⟩
    | _ => simp at hblank
  constructor c := by
    intro m' rest rest' hblank hsegments
    cases m' with
    | constructor c' =>
      obtain ⟨typeParams, params⟩ := c
      obtain ⟨typeParams', params'⟩ := c'
      simp only [Member.renamed_constructor, Constructor.renamed_eq, Member.constructor.injEq,
        Constructor.mk.injEq] at hblank
      obtain ⟨htypeParams, hparams⟩ := hblank
      simp only [Member.segments_constructor, List.append_assoc] at hsegments
      obtain ⟨rfl, hrest⟩ := TypeParam.list_legible typeParams _ _ _ htypeParams hsegments
      obtain ⟨rfl, hrest₂⟩ := Param.list_legible params _ _ _ hparams hrest
      exact ⟨rfl, hrest₂⟩
    | _ => simp at hblank
  function x := by
    intro m' rest rest' hblank hsegments
    cases m' with
    | function x' =>
      obtain ⟨rfl, hrest⟩ := x.legible _ _ _ (Member.function.inj hblank) hsegments
      exact ⟨rfl, hrest⟩
    | _ => simp at hblank
  classLike head members hmembers := by
    intro m' rest rest' hblank hsegments
    cases m' with
    | classLike head' members' =>
      simp only [Member.renamed_classLike, Member.classLike.injEq] at hblank
      obtain ⟨hhead, hlist⟩ := hblank
      simp only [Member.segments_classLike, List.append_assoc] at hsegments
      obtain ⟨rfl, hrest⟩ := head.legible _ _ _ hhead hsegments
      obtain ⟨rfl, hrest₂⟩ := Legible.list hmembers _ _ _ hlist hrest
      exact ⟨rfl, hrest₂⟩
    | _ => simp at hblank

/-! ### Declarations and modules -/

theorem Token.list_legible (tokens : List Token) :
    Legible (List.map fun t : Token ↦ { t with value := "" }) (List.map Token.value) tokens := by
  have hvalues : List.map Token.value = List.flatMap fun t ↦ [t.value] :=
    funext fun _ ↦ List.map_eq_flatMap
  rw [hvalues]
  refine Legible.list fun t _ t' rest rest' hblank hsegments ↦ ?_
  obtain ⟨value, literal⟩ := t
  obtain ⟨value', literal'⟩ := t'
  obtain ⟨-, rfl⟩ := Token.mk.inj hblank
  obtain ⟨rfl, hrest⟩ := List.cons_eq_cons.mp hsegments
  exact ⟨rfl, hrest⟩

theorem ModuleHead.legible (head : ModuleHead) :
    Legible (ModuleHead.rename fun _ ↦ "") ModuleHead.segments head := by
  obtain ⟨name, shortName, uid, imports, annotations⟩ := head
  rintro ⟨name', shortName', uid', imports', annotations'⟩ rest rest' hblank hsegments
  simp only [ModuleHead.rename, ModuleHead.mk.injEq] at hblank
  obtain ⟨hname, hshort, rfl, himports, rfl⟩ := hblank
  simp only [ModuleHead.segments, List.append_assoc] at hsegments
  obtain ⟨rfl, hrest⟩ := Name.slot_legible name _ _ _ hname hsegments
  obtain ⟨rfl, hrest₂⟩ := Name.slot_legible shortName _ _ _ hshort hrest
  obtain ⟨rfl, hrest₃⟩ := Name.list_legible imports _ _ _ himports hrest₂
  exact ⟨rfl, hrest₃⟩

theorem modules_legible :
    ModuleStorey
      (Legible (Decl.renamed fun _ ↦ "") Decl.segments)
      (Legible Module.blank Module.segments) where
  module m hm := by
    intro d rest rest' hblank hsegments
    cases d with
    | module m' =>
      obtain ⟨rfl, hrest⟩ := hm _ _ _ (Decl.module.inj hblank) hsegments
      exact ⟨rfl, hrest⟩
    | _ => simp at hblank
  classLike head members := by
    intro d rest rest' hblank hsegments
    cases d with
    | classLike head' members' =>
      have hmember : (Member.classLike head members).renamed (fun _ ↦ "") =
          (Member.classLike head' members').renamed fun _ ↦ "" := by
        simpa only [Decl.renamed_classLike, Member.renamed_classLike, Decl.classLike.injEq,
          Member.classLike.injEq] using hblank
      obtain ⟨heq, hrest⟩ :=
        members_legible.forMember (.classLike head members) _ _ _ hmember hsegments
      obtain ⟨rfl, rfl⟩ := Member.classLike.inj heq
      exact ⟨rfl, hrest⟩
    | _ => simp at hblank
  function x := by
    intro d rest rest' hblank hsegments
    cases d with
    | function x' =>
      obtain ⟨rfl, hrest⟩ := x.legible _ _ _ (Decl.function.inj hblank) hsegments
      exact ⟨rfl, hrest⟩
    | _ => simp at hblank
  var v := by
    intro d rest rest' hblank hsegments
    cases d with
    | var v' =>
      obtain ⟨name, type, receiver, isImmutable, isInline, isExported, tags⟩ := v
      obtain ⟨name', type', receiver', isImmutable', isInline', isExported', tags'⟩ := v'
      simp only [Decl.renamed_var, Variable.renamed_eq, Decl.var.injEq, Variable.mk.injEq] at hblank
      obtain ⟨hname, htype, hreceiver, rfl, rfl, rfl, rfl⟩ := hblank
      simp only [Decl.segments_var, List.append_assoc] at hsegments
      obtain ⟨rfl, hrest⟩ := name.legible _ _ _ hname hsegments
      obtain ⟨rfl, hrest₂⟩ := Receiver.slot_legible receiver _ _ _ hreceiver hrest
      obtain ⟨rfl, hrest₃⟩ := Ty.slot_legible type _ _ _ htype hrest₂
      exact ⟨rfl, hrest₃⟩
    | _ => simp at hblank
  typeAlias a := by
    intro d rest rest' hblank hsegments
    cases d with
    | typeAlias a' =>
      obtain ⟨name, typeParams, type, uid, tags⟩ := a
      obtain ⟨name', typeParams', type', uid', tags'⟩ := a'
      simp only [Decl.renamed_typeAlias, TypeAlias.renamed_eq, Decl.typeAlias.injEq,
        TypeAlias.mk.injEq] at hblank
      obtain ⟨hname, htypeParams, htype, rfl, rfl⟩ := hblank
      simp only [Decl.segments_typeAlias, List.append_assoc] at hsegments
      obtain ⟨rfl, hrest⟩ := name.legible _ _ _ hname hsegments
      obtain ⟨rfl, hrest₂⟩ := TypeParam.list_legible typeParams _ _ _ htypeParams hrest
      obtain ⟨rfl, hrest₃⟩ := Ty.slot_legible type _ _ _ htype hrest₂
      exact ⟨rfl, hrest₃⟩
    | _ => simp at hblank
  enum e := by
    intro d rest rest' hblank hsegments
    cases d with
    | enum e' =>
      obtain ⟨name, tokens, uid⟩ := e
      obtain ⟨name', tokens', uid'⟩ := e'
      simp only [Decl.renamed_enum, Enum.renamed_eq, Decl.enum.injEq, Enum.mk.injEq] at hblank
      obtain ⟨hname, htokens, rfl⟩ := hblank
      simp only [Decl.segments_enum, List.append_assoc] at hsegments
      obtain ⟨rfl, hrest⟩ := name.legible _ _ _ hname hsegments
      obtain ⟨rfl, hrest₂⟩ := Token.list_legible tokens _ _ _ htokens hrest
      exact ⟨rfl, hrest₂⟩
    | _ => simp at hblank
  foreign label := by
    intro d rest rest' hblank hsegments
    cases d with
    | foreign label' =>
      obtain rfl := Decl.foreign.inj hblank
      exact ⟨rfl, hsegments⟩
    | _ => simp at hblank
  missing := by
    intro d rest rest' hblank hsegments
    cases d with
    | missing => exact ⟨rfl, hsegments⟩
    | _ => simp at hblank
  node head declarations submodules hdeclarations hsubmodules := by
    rintro ⟨head', declarations', submodules'⟩ rest rest' hblank hsegments
    simp only [Module.blank, Module.renamed_mk, Module.mk.injEq] at hblank
    obtain ⟨hhead, hdecls, hmodules⟩ := hblank
    simp only [Module.segments_mk, List.append_assoc] at hsegments
    obtain ⟨rfl, hrest⟩ := head.legible _ _ _ hhead hsegments
    obtain ⟨rfl, hrest₂⟩ := Legible.list hdeclarations _ _ _ hdecls hrest
    obtain ⟨rfl, hrest₃⟩ := Legible.list hsubmodules _ _ _ hmodules hrest₂
    exact ⟨rfl, hrest₃⟩

/-- A blank and a list of identifiers determine a tree. -/
theorem Module.eq_of_blank_of_segments {m m' : Module} (hblank : m.blank = m'.blank)
    (hsegments : m.segments = m'.segments) : m = m' := by
  have hlists : m.segments ++ [] = m'.segments ++ [] := congrArg (· ++ []) hsegments
  exact (modules_legible.forModule m m' [] [] hblank hlists).1

/-- Renaming by a function that changes nothing copies a tree. -/
theorem Module.renamed_id (m : Module) : m.renamed id = m :=
  Module.eq_of_blank_of_segments (m.blank_renamed id) (by rw [m.segments_renamed, List.map_id])

end DeclTree
