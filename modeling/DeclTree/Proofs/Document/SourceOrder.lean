import DeclTree.Proofs.Document.Traversal
import DeclTree.Proofs.Tree.Nodes

/-!
# Documents are read in source order

Where a document is decoded, its walk is that of the tree. Node for node the two have the same
kinds, and the same identities where there have to be any; this is what `Node.stamp` and
`Fields.stamp` show. The walk of a tree is a node followed by the walks of its children, so for each
kind it has to be seen that the fields are read in the order of the children, `decode_in_order`.
-/

set_option autoImplicit false
set_option relaxedAutoImplicit false

namespace DeclTree

/-- The kinds of the nodes that have to have an identity. -/
def Kind.identified : List Kind :=
  [.classDecl, .interfaceDecl, .objectDecl, .functionDecl, .aliasDecl, .enumDecl]

/-- The identity of a node that has to have one. -/
def Node.identity? : Node → Option Uid
  | .classLike head _ => some head.uid
  | .function f => some f.uid
  | .typeAlias a => some a.uid
  | .enum e => some e.uid
  | _ => none

/-- What is compared of a node: its kind, and its identity if it has to have one. -/
def Node.stamp (n : Node) : Option Kind × Option Uid := (n.kind?, n.identity?)

theorem Node.identity?_ne_empty {n : Node} (hn : n.LocallyWellFormed) : n.identity? ≠ some "" := by
  cases n with
  | classLike head members => exact fun heq ↦ hn.2.1 (Option.some.inj heq)
  | function f => exact fun heq ↦ hn.2.1 (Option.some.inj heq)
  | typeAlias a => exact fun heq ↦ hn.2.1 (Option.some.inj heq)
  | enum e => exact fun heq ↦ hn.2 (Option.some.inj heq)
  | _ => nofun

namespace Document

/-! ### Stamps -/

/-- Whether the node has to have an identity. -/
def Fields.isIdentified (f : Fields) : Bool :=
  (Kind.ofText? f.kind).any fun kind ↦ Kind.identified.contains kind

/-- What is compared of a written node. -/
def Fields.stamp (f : Fields) : Option Kind × Option Uid :=
  (Kind.ofText? f.kind, if f.isIdentified then some f.uid else none)

section Stamp

variable {f : Fields} {kind : Kind} (hkind : Kind.ofText? f.kind = some kind)
include hkind

theorem Fields.isIdentified_of_mem (h : kind ∈ Kind.identified) : f.isIdentified = true := by
  rw [isIdentified, hkind, Option.any_some, List.contains_iff_mem.mpr h]

theorem Fields.isIdentified_of_not_mem (h : kind ∉ Kind.identified) : f.isIdentified = false := by
  rw [isIdentified, hkind, Option.any_some]
  exact Bool.eq_false_iff.mpr (mt List.contains_iff_mem.mp h)

theorem Fields.stamp_of_mem (h : kind ∈ Kind.identified) : f.stamp = (some kind, some f.uid) := by
  rw [stamp, isIdentified_of_mem hkind h, hkind]
  rfl

theorem Fields.stamp_of_not_mem (h : kind ∉ Kind.identified) : f.stamp = (some kind, none) := by
  rw [stamp, isIdentified_of_not_mem hkind h, hkind]
  rfl

end Stamp

open Decoding

/-! ### Trees with the walk of a document -/

/-- The walks from the nodes, one after the other, are stamped like the fields. -/
def Mirrors (fs : List Fields) (ns : List Node) : Prop :=
  (ns.flatMap Node.nodes).map Node.stamp = fs.map Fields.stamp

theorem mirrors_nil : Mirrors [] [] := rfl

theorem Mirrors.append {fs gs : List Fields} {ns ms : List Node} (hns : Mirrors fs ns)
    (hms : Mirrors gs ms) : Mirrors (fs ++ gs) (ns ++ ms) := by
  rw [Mirrors, List.flatMap_append, List.map_append, hns, hms, List.map_append]

/-- A node is walked like its fields, and then like what is below it. -/
theorem Mirrors.node {f : Fields} {fs : List Fields} {kind : Kind} {uid : Option Uid} {n : Node}
    (hf : f.stamp = (some kind, uid)) (hn : n.stamp = (some kind, uid))
    (hbelow : Mirrors fs n.children) : Mirrors (f :: fs) [n] := by
  have hpresent : n ≠ .missing := by
    rintro rfl
    exact Option.some_ne_none kind (congrArg Prod.fst hn).symm
  rw [Mirrors, List.flatMap_singleton, Node.nodes_eq hpresent, List.map_cons, hbelow, hn, ← hf,
    List.map_cons]

/-- What the document is decoded to is walked like the document. -/
def ReadsInOrder (doc : Document) : Prop :=
  ∀ place, Yields (decode .required place doc) fun n ↦ Mirrors doc.walk [n]

section Lists

theorem yields_readAll_mirrors {α : Type} {node : α → Node} {read : Place → Document → Decoding α}
    {docs : List Document}
    (hread : ∀ doc ∈ docs, ∀ place, Yields (read place doc) fun a ↦ Mirrors doc.walk [node a])
    (place : Place) (i : Nat) :
    Yields (readAll read place i docs) fun as ↦ Mirrors (walkAll docs) (as.map node) := by
  induction docs generalizing i with
  | nil => exact yields_pure mirrors_nil
  | cons doc docs ih =>
    obtain ⟨hdoc, hdocs⟩ := List.forall_mem_cons.mp hread
    refine yields_bind (hdoc _) fun a ha ↦ ?_
    refine yields_bind (ih hdocs (i + 1)) fun as has ↦ ?_
    exact yields_pure (ha.append has)

theorem ReadsInOrder.fitting {α : Type} {node : α → Node} {fits : Node → Option α}
    (flaw : Kind → Flaw) (hfits : ∀ n a, fits n = some a → node a = n) {doc : Document}
    (hdoc : doc.ReadsInOrder) (place : Place) :
    Yields (readFitting .required fits flaw place doc) fun a ↦ Mirrors doc.walk [node a] := by
  refine yields_bind (hdoc place) fun n hn ↦ ?_
  exact (yields_fit place fits flaw n).imp fun a ha ↦ (hfits n a ha).symm ▸ hn

theorem ReadsInOrder.type {doc : Document} (hdoc : doc.ReadsInOrder) (place : Place) :
    Yields (readType .required place doc) fun t ↦ Mirrors doc.walk [.type t] := by
  cases doc with
  | null => exact yields_refuse _ _
  | node record => exact hdoc.fitting .notType (fun _ _ ↦ Node.node_of_type?) place

theorem ReadsInOrder.module {doc : Document} (hdoc : doc.ReadsInOrder) (place : Place) :
    Yields (decodeModule .required place doc) fun m ↦ Mirrors doc.walk [.module m] := by
  cases doc with
  | null => exact yields_refuse _ _
  | node record =>
    refine yields_bind (yields_true _) fun _ _ ↦ ?_
    exact hdoc.fitting .unexpected (fun _ _ ↦ Node.node_of_module?) place

theorem ReadsInOrder.slot {doc : Document} (hdoc : doc.ReadsInOrder) (place : Place) :
    Yields (decodeSlot .required place doc) fun slot ↦ Mirrors doc.walk (Ty.slot slot) := by
  cases doc with
  | null => exact yields_pure mirrors_nil
  | node record =>
    refine yields_bind (hdoc place) fun n hn ↦ ?_
    refine yields_bind (yields_fit _ _ _ _) fun t ht ↦ ?_
    obtain rfl := Node.node_of_type? ht
    exact yields_pure hn

variable {docs : List Document} (hdocs : ∀ doc ∈ docs, doc.ReadsInOrder) (place : Place)
include hdocs

theorem yields_types_mirror :
    Yields (decodeTypes .required place 0 docs) fun ts ↦
      Mirrors (walkAll docs) (ts.map .type) := by
  rw [decodeTypes_eq_readAll]
  exact yields_readAll_mirrors (fun doc hdoc ↦ (hdocs doc hdoc).type) place 0

theorem yields_params_mirror :
    Yields (decodeParams .required place 0 docs) fun ps ↦
      Mirrors (walkAll docs) (ps.map .param) := by
  rw [decodeParams_eq_readAll]
  refine yields_readAll_mirrors (fun doc hdoc ↦ ?_) place 0
  exact (hdocs doc hdoc).fitting _ fun _ _ ↦ Node.node_of_param?

theorem yields_typeParams_mirror :
    Yields (decodeTypeParams .required place 0 docs) fun ps ↦
      Mirrors (walkAll docs) (ps.map .typeParam) := by
  rw [decodeTypeParams_eq_readAll]
  refine yields_readAll_mirrors (fun doc hdoc ↦ ?_) place 0
  exact (hdocs doc hdoc).fitting _ fun _ _ ↦ Node.node_of_typeParam?

theorem yields_parents_mirror :
    Yields (decodeParents .required place 0 docs) fun hs ↦
      Mirrors (walkAll docs) (hs.map .heritage) := by
  rw [decodeParents_eq_readAll]
  refine yields_readAll_mirrors (fun doc hdoc ↦ ?_) place 0
  exact (hdocs doc hdoc).fitting _ fun _ _ ↦ Node.node_of_heritage?

theorem yields_members_mirror :
    Yields (decodeMembers .required place 0 docs) fun ms ↦
      Mirrors (walkAll docs) (ms.map Member.node) := by
  rw [decodeMembers_eq_readAll]
  refine yields_readAll_mirrors (fun doc hdoc ↦ ?_) place 0
  exact (hdocs doc hdoc).fitting _ fun _ _ ↦ Node.node_of_member?

theorem yields_decls_mirror :
    Yields (decodeDecls .required place 0 docs) fun ds ↦
      Mirrors (walkAll docs) (ds.map Decl.node) := by
  rw [decodeDecls_eq_readAll]
  refine yields_readAll_mirrors (fun doc hdoc ↦ ?_) place 0
  exact (hdocs doc hdoc).fitting _ fun _ _ ↦ Node.node_of_decl?

theorem yields_modules_mirror :
    Yields (decodeModules .required place 0 docs) fun ms ↦
      Mirrors (walkAll docs) (ms.map .module) := by
  rw [decodeModules_eq_readAll]
  exact yields_readAll_mirrors (fun doc hdoc ↦ (hdocs doc hdoc).module) place 0

end Lists

/-! ### Records -/

theorem decode_in_order :
    Storey ReadsInOrder fun record ↦ (Document.node record).ReadsInOrder where
  null place := yields_refuse _ _
  node record hrecord := hrecord
  record f typeParameters parents members parameters type params constraints default declarations
      submodules htypeParameters hparents hmembers hparameters htype hparams hconstraints hdefault
      hdeclarations hsubmodules place := by
    simp only [decode, Record.decode, walk, Record.walk]
    cases hkind : Kind.ofText? f.kind with
    | none => exact yields_refuse _ _
    | some kind =>
      have hnamed := Fields.stamp_of_mem hkind
      have hplain := Fields.stamp_of_not_mem hkind
      -- Of the fields that are walked only those of the kind are left.
      cases kind with
      | moduleDecl =>
        simp (disch := decide) only [Kind.keep_of_mem, Kind.keep_of_not_mem, List.nil_append]
        refine yields_bind (yields_true _) fun annotations _ ↦ ?_
        refine yields_bind (yields_decls_mirror hdeclarations _) fun ds hds ↦ ?_
        refine yields_bind (yields_modules_mirror hsubmodules _) fun ms hms ↦ ?_
        refine yields_bind (yields_true _) fun name _ ↦ ?_
        refine yields_bind (yields_true _) fun shortName _ ↦ ?_
        refine yields_bind (yields_true _) fun imports _ ↦ ?_
        exact yields_pure (.node (hplain (by decide)) rfl (hds.append hms))
      | classDecl =>
        simp (disch := decide) only [Kind.keep_of_mem, Kind.keep_of_not_mem, List.append_nil]
        refine yields_bind (yields_true _) fun name _ ↦ ?_
        refine yields_bind (yields_uid_eq _ _) fun uid huid ↦ ?_
        refine yields_bind (yields_typeParams_mirror htypeParameters _) fun tps htps ↦ ?_
        refine yields_bind (yields_parents_mirror hparents _) fun hs hhs ↦ ?_
        refine yields_bind (yields_members_mirror hmembers _) fun ms hms ↦ ?_
        subst huid
        exact yields_pure (.node (hnamed (by decide)) rfl ((htps.append hhs).append hms))
      | interfaceDecl =>
        simp (disch := decide) only [Kind.keep_of_mem, Kind.keep_of_not_mem, List.append_nil]
        refine yields_bind (yields_true _) fun name _ ↦ ?_
        refine yields_bind (yields_uid_eq _ _) fun uid huid ↦ ?_
        refine yields_bind (yields_typeParams_mirror htypeParameters _) fun tps htps ↦ ?_
        refine yields_bind (yields_parents_mirror hparents _) fun hs hhs ↦ ?_
        refine yields_bind (yields_members_mirror hmembers _) fun ms hms ↦ ?_
        subst huid
        exact yields_pure (.node (hnamed (by decide)) rfl ((htps.append hhs).append hms))
      | objectDecl =>
        simp (disch := decide) only [Kind.keep_of_mem, Kind.keep_of_not_mem, List.nil_append,
          List.append_nil]
        refine yields_bind (yields_true _) fun name _ ↦ ?_
        refine yields_bind (yields_uid_eq _ _) fun uid huid ↦ ?_
        refine yields_bind (yields_parents_mirror hparents _) fun hs hhs ↦ ?_
        refine yields_bind (yields_members_mirror hmembers _) fun ms hms ↦ ?_
        subst huid
        exact yields_pure (.node (hnamed (by decide)) rfl (hhs.append hms))
      | functionDecl =>
        simp (disch := decide) only [Kind.keep_of_mem, Kind.keep_of_not_mem, List.append_nil]
        refine yields_bind (yields_true _) fun name _ ↦ ?_
        refine yields_bind (yields_uid_eq _ _) fun uid huid ↦ ?_
        refine yields_bind (yields_typeParams_mirror htypeParameters _) fun tps htps ↦ ?_
        refine yields_bind (yields_params_mirror hparameters _) fun ps hps ↦ ?_
        refine yields_bind (htype.slot _) fun slot hslot ↦ ?_
        refine yields_bind (yields_true _) fun receiver _ ↦ ?_
        subst huid
        exact yields_pure (.node (hnamed (by decide)) rfl ((htps.append hps).append hslot))
      | variableDecl =>
        simp (disch := decide) only [Kind.keep_of_mem, Kind.keep_of_not_mem, List.nil_append,
          List.append_nil]
        refine yields_bind (yields_true _) fun name _ ↦ ?_
        refine yields_bind (htype.slot _) fun slot hslot ↦ ?_
        refine yields_bind (yields_true _) fun receiver _ ↦ ?_
        exact yields_pure (.node (hplain (by decide)) rfl hslot)
      | aliasDecl =>
        simp (disch := decide) only [Kind.keep_of_mem, Kind.keep_of_not_mem, List.append_nil]
        refine yields_bind (yields_true _) fun name _ ↦ ?_
        refine yields_bind (yields_uid_eq _ _) fun uid huid ↦ ?_
        refine yields_bind (yields_typeParams_mirror htypeParameters _) fun tps htps ↦ ?_
        refine yields_bind (htype.slot _) fun slot hslot ↦ ?_
        subst huid
        exact yields_pure (.node (hnamed (by decide)) rfl (htps.append hslot))
      | enumDecl =>
        simp (disch := decide) only [Kind.keep_of_not_mem, List.append_nil]
        refine yields_bind (yields_true _) fun tokens _ ↦ ?_
        refine yields_bind (yields_true _) fun name _ ↦ ?_
        refine yields_bind (yields_uid_eq _ _) fun uid huid ↦ ?_
        subst huid
        exact yields_pure (.node (hnamed (by decide)) rfl mirrors_nil)
      | method =>
        simp (disch := decide) only [Kind.keep_of_mem, Kind.keep_of_not_mem, List.append_nil]
        refine yields_bind (yields_true _) fun name _ ↦ ?_
        refine yields_bind (yields_typeParams_mirror htypeParameters _) fun tps htps ↦ ?_
        refine yields_bind (yields_params_mirror hparameters _) fun ps hps ↦ ?_
        refine yields_bind (htype.slot _) fun slot hslot ↦ ?_
        exact yields_pure (.node (hplain (by decide)) rfl ((htps.append hps).append hslot))
      | property =>
        simp (disch := decide) only [Kind.keep_of_mem, Kind.keep_of_not_mem, List.append_nil]
        refine yields_bind (yields_true _) fun name _ ↦ ?_
        refine yields_bind (yields_typeParams_mirror htypeParameters _) fun tps htps ↦ ?_
        refine yields_bind (htype.slot _) fun slot hslot ↦ ?_
        exact yields_pure (.node (hplain (by decide)) rfl (htps.append hslot))
      | constructor =>
        simp (disch := decide) only [Kind.keep_of_mem, Kind.keep_of_not_mem, List.append_nil]
        refine yields_bind (yields_typeParams_mirror htypeParameters _) fun tps htps ↦ ?_
        refine yields_bind (yields_params_mirror hparameters _) fun ps hps ↦ ?_
        exact yields_pure (.node (hplain (by decide)) rfl (htps.append hps))
      | param =>
        simp (disch := decide) only [Kind.keep_of_mem, Kind.keep_of_not_mem, List.nil_append,
          List.append_nil]
        refine yields_bind (yields_true _) fun name _ ↦ ?_
        refine yields_bind (htype.slot _) fun slot hslot ↦ ?_
        exact yields_pure (.node (hplain (by decide)) rfl hslot)
      | typeParam =>
        simp (disch := decide) only [Kind.keep_of_mem, Kind.keep_of_not_mem, List.nil_append,
          List.append_nil]
        refine yields_bind (yields_true _) fun name _ ↦ ?_
        refine yields_bind (yields_types_mirror hconstraints _) fun ts hts ↦ ?_
        refine yields_bind (hdefault.slot _) fun slot hslot ↦ ?_
        exact yields_pure (.node (hplain (by decide)) rfl (hts.append hslot))
      | heritage =>
        simp (disch := decide) only [Kind.keep_of_mem, Kind.keep_of_not_mem, List.nil_append,
          List.append_nil]
        refine yields_bind (yields_true _) fun name _ ↦ ?_
        refine yields_bind (yields_types_mirror hparams _) fun ts hts ↦ ?_
        exact yields_pure (.node (hplain (by decide)) rfl hts)
      | namedType =>
        simp (disch := decide) only [Kind.keep_of_mem, Kind.keep_of_not_mem, List.nil_append,
          List.append_nil]
        refine yields_bind (yields_true _) fun name _ ↦ ?_
        refine yields_bind (yields_types_mirror hparams _) fun ts hts ↦ ?_
        exact yields_pure (.node (hplain (by decide)) rfl hts)
      | functionType =>
        simp (disch := decide) only [Kind.keep_of_mem, Kind.keep_of_not_mem, List.nil_append,
          List.append_nil]
        refine yields_bind (yields_params_mirror hparameters _) fun ps hps ↦ ?_
        refine yields_bind (htype.slot _) fun slot hslot ↦ ?_
        exact yields_pure (.node (hplain (by decide)) rfl (hps.append hslot))
      | unionType =>
        simp (disch := decide) only [Kind.keep_of_mem, Kind.keep_of_not_mem, List.nil_append,
          List.append_nil]
        refine yields_bind (yields_types_mirror hparams _) fun ts hts ↦ ?_
        exact yields_pure (.node (hplain (by decide)) rfl hts)
      | selfType =>
        simp (disch := decide) only [Kind.keep_of_not_mem, List.append_nil]
        exact yields_pure (.node (hplain (by decide)) rfl mirrors_nil)
      | generatedType =>
        simp (disch := decide) only [Kind.keep_of_mem, Kind.keep_of_not_mem, List.append_nil]
        refine yields_bind (yields_true _) fun name _ ↦ ?_
        refine yields_bind (yields_typeParams_mirror htypeParameters _) fun tps htps ↦ ?_
        exact yields_pure (.node (hplain (by decide)) rfl htps)

end Document

end DeclTree
