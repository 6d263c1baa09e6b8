import DeclTree.Proofs.Lowering.NodeByNode
import DeclTree.Proofs.Name

/-!
# One rewriting after the other

A rewritten tree has the scopes of the tree with their identifiers renamed,
`ClassHead.inner_rewrite`, so a second rewriting meets every place in the scope as the first one
left it. `Module.rewrite_rewrite_eq_iff` compares two rewritings in a row with a third: they give
the same tree exactly when they agree on each of its self types. One rewriting after the other is
therefore a rewriting again, `Module.rewrite_rewrite`.
-/

set_option autoImplicit false
set_option relaxedAutoImplicit false

namespace DeclTree

open SelfType (Scope)

variable {w w₁ w₂ : Rewriting} {scope : Option Scope}

/-! ### Scopes after a rewriting -/

/-- A scope with its identifiers renamed. -/
def SelfType.Scope.rename (f : String → String) : Scope → Scope
  | .declared name typeParams uid => .declared (name.map f) (typeParams.map (Name.map f)) uid
  | .generated => .generated
  | .receiver r uid => .receiver (r.map (Receiver.rename f)) uid

theorem TypeParam.map_name_rewrite (ps : List TypeParam) :
    (ps.map (TypeParam.rewrite w scope)).map TypeParam.name =
      (ps.map TypeParam.name).map (Name.map w.rename) := by
  rw [List.map_map, List.map_map]
  refine List.map_congr_left fun p _ ↦ ?_
  cases p
  rfl

/-- A rewritten class-like declaration opens the scope that it opened, with the identifiers
renamed. -/
theorem ClassHead.inner_rewrite (head : ClassHead) :
    (head.rewrite w scope).inner (scope.map (Scope.rename w.rename)) =
      (head.inner scope).map (Scope.rename w.rename) := by
  obtain ⟨form, name, parents, isExported, uid, tags⟩ := head
  cases form with
  | cls isAbstract typeParams =>
    exact congrArg (fun names ↦ some (Scope.declared _ names _)) (TypeParam.map_name_rewrite _)
  | interface isGenerated typeParams =>
    cases isGenerated with
    | true => rfl
    | false =>
      exact congrArg (fun names ↦ some (Scope.declared _ names _)) (TypeParam.map_name_rewrite _)
  | object => rfl

/-! ### Two steps and one step -/

theorem forall_mem_slot {P : Node → Prop} {slot : Option Ty} :
    (∀ c ∈ Ty.slot slot, P c) ↔ ∀ t ∈ slot, P (.type t) := by
  cases slot with
  | none => simp [Ty.slot]
  | some t => simp [Ty.slot]

theorem slot_map_eq_iff {f g : Ty → Ty} {slot : Option Ty} :
    slot.map f = slot.map g ↔ ∀ t ∈ slot, f t = g t := by
  cases slot with
  | none => simp
  | some t => simp

theorem Member.node_inj {m m' : Member} : m.node = m'.node ↔ m = m' := by
  refine ⟨fun heq ↦ ?_, congrArg Member.node⟩
  have hfits : ∀ m : Member, m.node.member? = some m := by
    intro m
    cases m with
    | _ => rfl
  rw [← Option.some_inj, ← hfits m, ← hfits m', heq]

theorem Decl.node_inj {d d' : Decl} : d.node = d'.node ↔ d = d' := by
  refine ⟨fun heq ↦ ?_, congrArg Decl.node⟩
  have hfits : ∀ d : Decl, d.node.decl?.getD .missing = d := by
    intro d
    cases d with
    | _ => rfl
  rw [← hfits d, ← hfits d', heq]

theorem ClassHead.form_eq_iff {head : ClassHead} {f g : TypeParam → TypeParam} :
    head.form.withTypeParams (head.typeParams.map f) =
        head.form.withTypeParams (head.typeParams.map g) ↔
      ∀ p ∈ head.typeParams, f p = g p := by
  obtain ⟨form, name, parents, isExported, uid, tags⟩ := head
  cases form with
  | _ => simp [ClassForm.withTypeParams, ClassHead.typeParams, ClassForm.typeParams]

theorem ClassHead.rewrite_rewrite_eq_iff (hrename : w₂.rename ∘ w₁.rename = w.rename)
    (head : ClassHead) :
    (head.rewrite w₁ scope).rewrite w₂ (scope.map (Scope.rename w₁.rename)) =
        head.rewrite w scope ↔
      (∀ p ∈ head.typeParams, (p.rewrite w₁ (head.inner scope)).rewrite w₂
          ((head.inner scope).map (Scope.rename w₁.rename)) = p.rewrite w (head.inner scope)) ∧
        ∀ x ∈ head.parents, (x.rewrite w₁ (head.inner scope)).rewrite w₂
          ((head.inner scope).map (Scope.rename w₁.rename)) = x.rewrite w (head.inner scope) := by
  have hform : ∀ ps qs : List TypeParam,
      (head.form.withTypeParams ps).withTypeParams qs = head.form.withTypeParams qs := by
    intro ps qs
    cases head.form with
    | _ => rfl
  rw [ClassHead.rewrite, ClassHead.inner_rewrite, ClassHead.typeParams_rewrite]
  simp only [ClassHead.rewrite, ClassHead.mk.injEq, hform, Name.map_map, hrename, List.map_map,
    ClassHead.form_eq_iff, List.map_inj_left, Function.comp_apply, true_and, and_true]

theorem Receiver.rename_rename (f g : String → String) (r : Receiver) :
    (r.rename f).rename g = r.rename (g ∘ f) := by
  simp [Receiver.rename, Name.map_map]

theorem ModuleHead.rename_rename (f g : String → String) (head : ModuleHead) :
    (head.rename f).rename g = head.rename (g ∘ f) := by
  have hname : Name.map g ∘ Name.map f = Name.map (g ∘ f) := funext fun name ↦ name.map_map f g
  simp only [ModuleHead.rename, Option.map_map, List.map_map, hname]

/-- Two rewritings one after the other do to a node what a third does, exactly when they do so to
its children; all that they have to share is what becomes of identifiers and tokens. -/
theorem Node.rewrite_rewrite_eq_iff_children (hrename : w₂.rename ∘ w₁.rename = w.rename)
    (htoken : w₂.token ∘ w₁.token = w.token) {n : Node} (hn : n.isSelfType = false) :
    (n.rewrite w₁ scope).rewrite w₂ (scope.map (Scope.rename w₁.rename)) = n.rewrite w scope ↔
      ∀ c ∈ n.children,
        (c.rewrite w₁ (n.inner scope)).rewrite w₂ ((n.inner scope).map (Scope.rename w₁.rename)) =
          c.rewrite w (n.inner scope) := by
  have hident : ∀ s, w₂.rename (w₁.rename s) = w.rename s := congrFun hrename
  have hreceiver : Receiver.rename w₂.rename ∘ Receiver.rename w₁.rename =
      Receiver.rename w.rename := by
    funext r
    rw [Function.comp_apply, Receiver.rename_rename, hrename]
  cases n with
  | module m =>
    obtain ⟨head, declarations, submodules⟩ := m
    simp only [children, List.forall_mem_append, List.forall_mem_map, rewrite_decl, Decl.node_inj,
      rewrite_module, module.injEq, Module.rewrite, Module.mk.injEq, ModuleHead.rename_rename,
      hrename, true_and, Decl.rewriteAll_eq_map, Module.rewriteAll_eq_map, List.map_map,
      List.map_inj_left]
    rfl
  | classLike head members =>
    simp only [inner_classLike, children, List.forall_mem_append, List.forall_mem_map,
      rewrite_member, Member.node_inj, rewrite_typeParam, rewrite_heritage, typeParam.injEq,
      heritage.injEq]
    simp only [rewrite, ClassHead.inner_rewrite, classLike.injEq,
      ClassHead.rewrite_rewrite_eq_iff hrename, List.map_map, List.map_inj_left]
    rfl
  | function f =>
    simp only [rewrite, Function.rewrite, function.injEq, Function.mk.injEq, Name.map_map, hrename,
      hreceiver, true_and, and_true, children, List.forall_mem_append, List.forall_mem_map,
      forall_mem_slot, typeParam.injEq, param.injEq, type.injEq, List.map_map, Option.map_map,
      List.map_inj_left, slot_map_eq_iff, and_assoc]
    rfl
  | var v =>
    simp only [rewrite, Variable.rewrite, var.injEq, Variable.mk.injEq, Name.map_map, hrename,
      hreceiver, true_and, and_true, children, forall_mem_slot, type.injEq, Option.map_map,
      slot_map_eq_iff]
    rfl
  | typeAlias a =>
    simp only [rewrite, TypeAlias.rewrite, typeAlias.injEq, TypeAlias.mk.injEq, Name.map_map,
      hrename, true_and, and_true, children, List.forall_mem_append, List.forall_mem_map,
      forall_mem_slot, typeParam.injEq, type.injEq, List.map_map, Option.map_map,
      List.map_inj_left, slot_map_eq_iff]
    rfl
  | enum e =>
    have htokens : Token.rewrite w₂ ∘ Token.rewrite w₁ = Token.rewrite w := by
      funext t
      exact congrArg (Token.mk · t.literal) (congrFun htoken t.value)
    simp [rewrite, Enum.rewrite, Name.map_map, hrename, htokens, children]
  | method m =>
    simp only [rewrite, Method.rewrite, method.injEq, Method.mk.injEq, hident, true_and, and_true,
      children, List.forall_mem_append, List.forall_mem_map, forall_mem_slot, typeParam.injEq,
      param.injEq, type.injEq, List.map_map, Option.map_map, List.map_inj_left, slot_map_eq_iff,
      and_assoc]
    rfl
  | property p =>
    simp only [rewrite, Property.rewrite, property.injEq, Property.mk.injEq, hident, true_and,
      and_true, children, List.forall_mem_append, List.forall_mem_map, forall_mem_slot,
      typeParam.injEq, type.injEq, List.map_map, Option.map_map, List.map_inj_left,
      slot_map_eq_iff]
    rfl
  | constructor c =>
    simp only [rewrite, Constructor.rewrite, constructor.injEq, Constructor.mk.injEq, children,
      List.forall_mem_append, List.forall_mem_map, typeParam.injEq, param.injEq, List.map_map,
      List.map_inj_left]
    rfl
  | type t =>
    cases t with
    | self nullable tags => cases hn
    | foreign label => simp [rewrite, Ty.rewrite, children, Ty.children]
    | _ =>
      simp only [rewrite, Ty.rewrite, Ty.rewriteAll_eq_map, Param.rewriteAll_eq_map,
        TypeParam.rewriteAll_eq_map, Ty.rewriteSlot_eq_map, Name.map_map, hrename, type.injEq,
        Ty.named.injEq, Ty.function.injEq, Ty.union.injEq, Ty.generated.injEq, true_and, and_true,
        children, Ty.children, List.forall_mem_append, List.forall_mem_map, forall_mem_slot,
        typeParam.injEq, param.injEq, List.map_map, Option.map_map, List.map_inj_left,
        slot_map_eq_iff]
      rfl
  | param p =>
    obtain ⟨name, type, isOptional, isVararg⟩ := p
    simp only [rewrite, Param.rewrite, Ty.rewriteSlot_eq_map, param.injEq, Param.mk.injEq, hident,
      true_and, and_true, children, forall_mem_slot, Node.type.injEq, Option.map_map,
      slot_map_eq_iff]
    rfl
  | typeParam p =>
    obtain ⟨name, constraints, default⟩ := p
    simp only [rewrite, TypeParam.rewrite, Ty.rewriteAll_eq_map, Ty.rewriteSlot_eq_map,
      typeParam.injEq, TypeParam.mk.injEq, Name.map_map, hrename, true_and, children,
      List.forall_mem_append, List.forall_mem_map, forall_mem_slot, type.injEq, List.map_map,
      Option.map_map, List.map_inj_left, slot_map_eq_iff]
    rfl
  | heritage h =>
    simp only [rewrite, Heritage.rewrite, heritage.injEq, Heritage.mk.injEq, Name.map_map, hrename,
      true_and, and_true, children, List.forall_mem_map, type.injEq, List.map_map,
      List.map_inj_left]
    rfl
  | foreign label => simp [rewrite, children]
  | missing => simp [rewrite, children]

/-- Two rewritings one after the other do to a tree what a third does, exactly when that is so for
each of its self types, in the scope where the self type stands. -/
theorem Node.rewrite_rewrite_eq_iff (hrename : w₂.rename ∘ w₁.rename = w.rename)
    (htoken : w₂.token ∘ w₁.token = w.token) (n : Node) (o : Owner) :
    (n.rewrite w₁ o.scope?).rewrite w₂ (o.scope?.map (Scope.rename w₁.rename)) =
        n.rewrite w o.scope? ↔
      ∀ c ∈ n.places o, ∀ nullable tags, c.node = .type (.self nullable tags) →
        (w₁.self c.scope? nullable tags).rewrite w₂ (c.scope?.map (Scope.rename w₁.rename)) =
          w.self c.scope? nullable tags := by
  induction n using Node.induct generalizing o with
  | step n ih =>
    rw [Node.forall_mem_places]
    cases hn : n.isSelfType with
    | true =>
      obtain ⟨nullable, tags, rfl⟩ := Node.isSelfType_iff.mp hn
      constructor
      · intro heq
        refine ⟨fun nullable' tags' hnode ↦ ?_, nofun⟩
        cases hnode
        exact Node.type.inj heq
      · intro h
        exact congrArg Node.type (h.1 nullable tags rfl)
    | false =>
      have hnode : ∀ nullable tags, n ≠ .type (.self nullable tags) := by
        rintro nullable tags rfl
        exact nomatch hn
      rw [Node.rewrite_rewrite_eq_iff_children hrename htoken hn]
      have hbelow := forall₂_congr fun c hc ↦ ih c hc (n :: o)
      rw [Owner.scope?_cons] at hbelow
      exact ⟨fun h ↦ ⟨fun nullable tags heq ↦ absurd heq (hnode nullable tags), hbelow.mp h⟩,
        fun h ↦ hbelow.mpr h.2⟩

/-- The same for whole trees, around which there is no scope. -/
theorem Module.rewrite_rewrite_eq_iff (hrename : w₂.rename ∘ w₁.rename = w.rename)
    (htoken : w₂.token ∘ w₁.token = w.token) (m : Module) :
    (m.rewrite w₁ none).rewrite w₂ none = m.rewrite w none ↔
      ∀ c ∈ m.places, ∀ nullable tags, c.node = .type (.self nullable tags) →
        (w₁.self c.scope? nullable tags).rewrite w₂ (c.scope?.map (Scope.rename w₁.rename)) =
          w.self c.scope? nullable tags := by
  rw [Module.places, ← Node.rewrite_rewrite_eq_iff hrename htoken]
  exact (Node.module.injEq ..).symm ▸ Iff.rfl

/-! ### The composite of two rewritings -/

/-- One rewriting after the other. What stands in for a self type is rewritten in turn, in the scope
as the first rewriting leaves it. -/
def Rewriting.andThen (w₁ w₂ : Rewriting) : Rewriting where
  rename := w₂.rename ∘ w₁.rename
  token := w₂.token ∘ w₁.token
  self := fun scope nullable tags ↦
    (w₁.self scope nullable tags).rewrite w₂ (scope.map (Scope.rename w₁.rename))

theorem Module.rewrite_rewrite (w₁ w₂ : Rewriting) (m : Module) :
    (m.rewrite w₁ none).rewrite w₂ none = m.rewrite (w₁.andThen w₂) none :=
  (Module.rewrite_rewrite_eq_iff rfl rfl m).mpr fun _ _ _ _ _ ↦ rfl

end DeclTree
