import DeclTree.Document.Decode
import DeclTree.Document.Encode

/-!
# Reading and writing lists of documents

The decoder has one function for every sort of list. They differ only in how a single entry is
read, so each of them is `Decoding.readAll` of a reader for one entry, and writing a list is
writing its entries in order. What holds of entries then passes to lists once and for all.
-/

set_option autoImplicit false
set_option relaxedAutoImplicit false

namespace DeclTree

/-! ### Writing lists -/

theorem Ty.encodeAll_eq_mapM (ts : List Ty) : Ty.encodeAll ts = ts.mapM Ty.encode := by
  induction ts with
  | nil => rfl
  | cons t ts ih => rw [Ty.encodeAll, ih, List.mapM_cons]

theorem Param.encodeAll_eq_mapM (ps : List Param) :
    Param.encodeAll ps = ps.mapM Param.encode := by
  induction ps with
  | nil => rfl
  | cons p ps ih => rw [Param.encodeAll, ih, List.mapM_cons]

theorem TypeParam.encodeAll_eq_mapM (ps : List TypeParam) :
    TypeParam.encodeAll ps = ps.mapM TypeParam.encode := by
  induction ps with
  | nil => rfl
  | cons p ps ih => rw [TypeParam.encodeAll, ih, List.mapM_cons]

theorem Heritage.encodeAll_eq_mapM (hs : List Heritage) :
    Heritage.encodeAll hs = hs.mapM Heritage.encode := by
  induction hs with
  | nil => rfl
  | cons h hs ih => rw [Heritage.encodeAll, ih, List.mapM_cons]

theorem Member.encodeAll_eq_mapM (ms : List Member) :
    Member.encodeAll ms = ms.mapM Member.encode := by
  induction ms with
  | nil => rfl
  | cons m ms ih => rw [Member.encodeAll, ih, List.mapM_cons]

theorem Decl.encodeAll_eq_mapM (ds : List Decl) : Decl.encodeAll ds = ds.mapM Decl.encode := by
  induction ds with
  | nil => rfl
  | cons d ds ih => rw [Decl.encodeAll, ih, List.mapM_cons]

theorem Module.encodeAll_eq_mapM (ms : List Module) :
    Module.encodeAll ms = ms.mapM Module.encode := by
  induction ms with
  | nil => rfl
  | cons m ms ih => rw [Module.encodeAll, ih, List.mapM_cons]

namespace Document

open Decoding

/-! ### Reading lists -/

/-- Reads the entries of a list at their places, the first of them at the given index. -/
def Decoding.readAll {α : Type} (read : Place → Document → Decoding α) (place : Place) :
    Nat → List Document → Decoding (List α)
  | _, [] => return []
  | i, doc :: docs => do
    let a ← read (place.index i) doc
    let as ← readAll read place (i + 1) docs
    return a :: as

/-- Reads an entry that has to fit its slot. -/
def readFitting {α : Type} (policy : UidPolicy) (fits : Node → Option α) (flaw : Kind → Flaw)
    (place : Place) (doc : Document) : Decoding α := do
  let n ← decode policy place doc
  fit place fits flaw n

/-- Reads an entry that has to be a type. -/
def readType (policy : UidPolicy) (place : Place) : Document → Decoding Ty
  | .null => refuse place .nullType
  | .node record => do
    let n ← record.decode policy place
    fit place Node.type? .notType n

variable (policy : UidPolicy) (place : Place)

theorem decodeDecls_eq_readAll (i : Nat) (docs : List Document) :
    decodeDecls policy place i docs =
      readAll (readFitting policy Node.decl? .notDeclaration) place i docs := by
  induction docs generalizing i with
  | nil => rfl
  | cons doc docs ih => simp only [decodeDecls, readAll, readFitting, bind_assoc, ih]

theorem decodeMembers_eq_readAll (i : Nat) (docs : List Document) :
    decodeMembers policy place i docs =
      readAll (readFitting policy Node.member? .notMember) place i docs := by
  induction docs generalizing i with
  | nil => rfl
  | cons doc docs ih => simp only [decodeMembers, readAll, readFitting, bind_assoc, ih]

theorem decodeTypeParams_eq_readAll (i : Nat) (docs : List Document) :
    decodeTypeParams policy place i docs =
      readAll (readFitting policy Node.typeParam? .unexpected) place i docs := by
  induction docs generalizing i with
  | nil => rfl
  | cons doc docs ih => simp only [decodeTypeParams, readAll, readFitting, bind_assoc, ih]

theorem decodeParams_eq_readAll (i : Nat) (docs : List Document) :
    decodeParams policy place i docs =
      readAll (readFitting policy Node.param? .unexpected) place i docs := by
  induction docs generalizing i with
  | nil => rfl
  | cons doc docs ih => simp only [decodeParams, readAll, readFitting, bind_assoc, ih]

theorem decodeParents_eq_readAll (i : Nat) (docs : List Document) :
    decodeParents policy place i docs =
      readAll (readFitting policy Node.heritage? .unexpected) place i docs := by
  induction docs generalizing i with
  | nil => rfl
  | cons doc docs ih => simp only [decodeParents, readAll, readFitting, bind_assoc, ih]

theorem decodeTypes_eq_readAll (i : Nat) (docs : List Document) :
    decodeTypes policy place i docs = readAll (readType policy) place i docs := by
  induction docs generalizing i with
  | nil => rfl
  | cons doc docs ih =>
    cases doc with
    | null => rfl
    | node record => simp only [decodeTypes, readAll, readType, bind_assoc, ih]

theorem decodeModules_eq_readAll (i : Nat) (docs : List Document) :
    decodeModules policy place i docs = readAll (decodeModule policy) place i docs := by
  induction docs generalizing i with
  | nil => rfl
  | cons doc docs ih =>
    cases doc with
    | null => rfl
    | node record => simp only [decodeModules, readAll, decodeModule, bind_assoc, ih]

end Document

end DeclTree
