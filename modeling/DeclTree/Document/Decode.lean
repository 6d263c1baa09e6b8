import DeclTree.Document.Basic
import DeclTree.Lowering.Rules

/-!
# Reading documents

Decoding a document gives the tree it describes, or refuses it with one flaw and the place of that
flaw. `Flaw.fault` says in words what is wrong. Declarations that need an identity and have none are
refused, or are given the next one of a supply.
-/

set_option autoImplicit false
set_option relaxedAutoImplicit false

namespace DeclTree.Document

/-- What can be wrong at a place of a document. -/
inductive Flaw where
  | nullNode
  | nullModule
  | nullType
  | unknownKind (kind : String)
  | notModule (kind : String)
  | notDeclaration (kind : Kind)
  | notType (kind : Kind)
  | notMember (kind : Kind)
  | unexpected (kind : Kind)
  | noName (kind : String)
  | noUid (kind name : String)
  | badName (flaw : Name.Flaw)
  deriving DecidableEq, Repr

/-- Why a document gives no tree: a flaw at a place, or a null where reading breaks down. -/
inductive Refusal where
  | flawed (place : Place) (flaw : Flaw)
  | crash
  deriving DecidableEq, Repr

namespace Flaw

def invalid (text : String) : Fault := (Fault.ofSentinel .invalidTree).wrap text

def fault : Flaw → Fault
  | .nullNode => invalid "null node"
  | .nullModule => invalid "null module"
  | .nullType => invalid "null type"
  | .unknownKind kind =>
    (Fault.ofSentinel .unsupportedNode).wrap ("unknown kind " ++ Text.quoted kind)
  | .notModule kind => invalid ("expected module, got " ++ kind)
  | .notDeclaration kind => invalid (kind.text ++ " is not a declaration")
  | .notType kind => invalid (kind.text ++ " is not a type")
  | .notMember kind => invalid (kind.text ++ " is not a member")
  | .unexpected kind => invalid ("unexpected " ++ kind.text)
  | .noName kind => invalid (kind ++ " has no name")
  | .noUid kind name => invalid (kind ++ " " ++ Text.quoted name ++ " has no uid")
  | .badName flaw => flaw.fault.mark .invalidTree

def hint? : Flaw → Option String
  | .noUid .. =>
    some ("set uid on every class, interface, object, function, type alias and enum, or decode " ++
      "with GenerateMissingUIDs")
  | _ => none

end Flaw

def Refusal.failure : Refusal → Failure
  | .crash => .crash
  | .flawed place flaw =>
    let f := flaw.fault.withDetail ("at " ++ place.text)
    .fault (match flaw.hint? with
      | some hint => f.withHint hint
      | none => f)

/-- What to do with a declaration that needs an identity and has none. -/
inductive UidPolicy where
  | required
  | minted (supply : Nat → Uid)

/-- Decoding counts the identities it has taken from the supply. -/
abbrev Decoding := StateT Nat (Except Refusal)

namespace Decoding

def refuse {α : Type} (place : Place) (flaw : Flaw) : Decoding α :=
  fun _ => .error (.flawed place flaw)

def crash {α : Type} : Decoding α := fun _ => .error .crash

/-- Reads a written name. -/
def nameAt (place : Place) (text : String) : Decoding Name :=
  match Name.parse text with
  | .ok name => pure name
  | .error flaw => refuse place (.badName flaw)

def requiredName (place : Place) (f : Fields) : Decoding Name :=
  if f.name = "" then refuse place (.noName f.kind) else nameAt (place.field "name") f.name

def requiredText (place : Place) (f : Fields) : Decoding String :=
  if f.name = "" then refuse place (.noName f.kind) else pure f.name

def optionalName (place : Place) (text : String) : Decoding (Option Name) :=
  if text = "" then pure none else some <$> nameAt place text

def namesAt (place : Place) : List String → Decoding (List Name)
  | [] => pure []
  | text :: rest => do
    let name ← nameAt place text
    let names ← namesAt place rest
    return name :: names

def imports (place : Place) : Nat → List String → Decoding (List Name)
  | _, [] => pure []
  | i, text :: rest => do
    let name ← nameAt (place.index i) text
    let names ← imports place (i + 1) rest
    return name :: names

/-- The identity of a declaration that needs one. -/
def uid (policy : UidPolicy) (place : Place) (f : Fields) : Decoding Uid :=
  if f.uid ≠ "" then pure f.uid
  else
    match policy with
    | .required => refuse place (.noUid f.kind f.name)
    | .minted supply => fun n => .ok (supply n, n + 1)

def receiver (place : Place) (f : Fields) : Decoding (Option DeclTree.Receiver) :=
  match f.receiver with
  | none => pure none
  | some r => do
    let name ← nameAt (place.field "extend") r.name
    let typeParams ← namesAt (place.field "extend") r.typeParameters
    return some ⟨name, typeParams⟩

/-- The entries of a list none of which may be null. -/
def present {α β : Type} (f : α → β) : List (Option α) → Decoding (List β)
  | [] => pure []
  | none :: _ => crash
  | some a :: rest => do
    let bs ← present f rest
    return f a :: bs

/-- A decoded node in its slot; `flaw` is what is wrong with a node of another sort. -/
def fit {α : Type} (place : Place) (fits : Node → Option α) (flaw : Kind → Flaw) (n : Node) :
    Decoding α :=
  match fits n, n.kind? with
  | some a, _ => pure a
  | none, some kind => refuse place (flaw kind)
  | none, none => refuse place .nullNode

/-- Only a node of kind module may stand for a module. -/
def requireModule (place : Place) (f : Fields) : Decoding Unit :=
  if f.kind = Kind.moduleDecl.text then pure ()
  else
    match Kind.ofText? f.kind with
    | none => refuse place (.unknownKind f.kind)
    | some _ => refuse place (.notModule f.kind)

end Decoding

open Decoding

def Fields.provenance (f : Fields) : Provenance := .ofList f.tags

mutual

def decode (policy : UidPolicy) (place : Place) : Document → Decoding Node
  | .null => refuse place .nullNode
  | .node record => Record.decode policy place record

def Record.decode (policy : UidPolicy) (place : Place) : Record → Decoding Node
  | ⟨f, typeParameters, parents, members, parameters, type, params, constraints, default,
      declarations, submodules⟩ =>
    match Kind.ofText? f.kind with
    | none => refuse place (.unknownKind f.kind)
    | some .moduleDecl => do
      let annotations ← present (fun a => DeclTree.Annotation.mk a.name a.params) f.annotations
      let declarations ← decodeDecls policy (place.field "declarations") 0 declarations
      let submodules ← decodeModules policy (place.field "submodules") 0 submodules
      let name ← optionalName (place.field "name") f.name
      let shortName ← optionalName (place.field "short_name") f.shortName
      let imports ← imports (place.field "imports") 0 f.imports
      return .module ⟨⟨name, shortName, f.uid, imports, annotations⟩, declarations, submodules⟩
    | some .classDecl => do
      let name ← requiredName place f
      let uid ← uid policy place f
      let typeParams ← decodeTypeParams policy (place.field "type_parameters") 0 typeParameters
      let parents ← decodeParents policy (place.field "parents") 0 parents
      let members ← decodeMembers policy (place.field "members") 0 members
      return .classLike
        ⟨.cls f.isAbstract typeParams, name, parents, f.isExported, uid, f.provenance⟩ members
    | some .interfaceDecl => do
      let name ← requiredName place f
      let uid ← uid policy place f
      let typeParams ← decodeTypeParams policy (place.field "type_parameters") 0 typeParameters
      let parents ← decodeParents policy (place.field "parents") 0 parents
      let members ← decodeMembers policy (place.field "members") 0 members
      return .classLike
        ⟨.interface f.isGenerated typeParams, name, parents, f.isExported, uid, f.provenance⟩
        members
    | some .objectDecl => do
      let name ← requiredName place f
      let uid ← uid policy place f
      let parents ← decodeParents policy (place.field "parents") 0 parents
      let members ← decodeMembers policy (place.field "members") 0 members
      return .classLike ⟨.object, name, parents, f.isExported, uid, f.provenance⟩ members
    | some .functionDecl => do
      let name ← requiredName place f
      let uid ← uid policy place f
      let typeParams ← decodeTypeParams policy (place.field "type_parameters") 0 typeParameters
      let params ← decodeParams policy (place.field "parameters") 0 parameters
      let result ← decodeSlot policy (place.field "type") type
      let receiver ← receiver place f
      return .function
        ⟨name, typeParams, params, result, receiver, f.isInline, f.isOperator, f.isExported, uid,
          f.provenance⟩
    | some .variableDecl => do
      let name ← requiredName place f
      let type ← decodeSlot policy (place.field "type") type
      let receiver ← receiver place f
      return .var
        ⟨name, type, receiver, f.isImmutable, f.isInline, f.isExported, f.provenance⟩
    | some .aliasDecl => do
      let name ← requiredName place f
      let uid ← uid policy place f
      let typeParams ← decodeTypeParams policy (place.field "type_parameters") 0 typeParameters
      let type ← decodeSlot policy (place.field "type") type
      return .typeAlias ⟨name, typeParams, type, uid, f.provenance⟩
    | some .enumDecl => do
      let tokens ← present (fun t => DeclTree.Token.mk t.value t.literal) f.tokens
      let name ← requiredName place f
      let uid ← uid policy place f
      return .enum ⟨name, tokens, uid⟩
    | some .method => do
      let name ← requiredText place f
      let typeParams ← decodeTypeParams policy (place.field "type_parameters") 0 typeParameters
      let params ← decodeParams policy (place.field "parameters") 0 parameters
      let result ← decodeSlot policy (place.field "type") type
      return .method ⟨name, typeParams, params, result, f.isStatic, f.isOverride, f.isOperator⟩
    | some .property => do
      let name ← requiredText place f
      let typeParams ← decodeTypeParams policy (place.field "type_parameters") 0 typeParameters
      let type ← decodeSlot policy (place.field "type") type
      return .property
        ⟨name, typeParams, type, f.isStatic, f.isOverride, f.hasGetter, f.hasSetter, f.isOpen⟩
    | some .constructor => do
      let typeParams ← decodeTypeParams policy (place.field "type_parameters") 0 typeParameters
      let params ← decodeParams policy (place.field "parameters") 0 parameters
      return .constructor ⟨typeParams, params⟩
    | some .param => do
      let name ← requiredText place f
      let type ← decodeSlot policy (place.field "type") type
      return .param ⟨name, type, f.isOptional, f.isVararg⟩
    | some .typeParam => do
      let name ← requiredName place f
      let constraints ← decodeTypes policy (place.field "constraints") 0 constraints
      let default ← decodeSlot policy (place.field "default") default
      return .typeParam ⟨name, constraints, default⟩
    | some .heritage => do
      let name ← requiredName place f
      let args ← decodeTypes policy (place.field "params") 0 params
      return .heritage ⟨name, args, Uid.reference? f.reference⟩
    | some .namedType => do
      let name ← requiredName place f
      let args ← decodeTypes policy (place.field "params") 0 params
      return .type (.named name args (Uid.reference? f.reference) f.isNullable f.provenance)
    | some .functionType => do
      let params ← decodeParams policy (place.field "parameters") 0 parameters
      let result ← decodeSlot policy (place.field "type") type
      return .type (.function params result f.isNullable f.provenance)
    | some .unionType => do
      let alternatives ← decodeTypes policy (place.field "params") 0 params
      return .type (.union alternatives f.isNullable f.provenance)
    | some .selfType => return .type (.self f.isNullable f.provenance)
    | some .generatedType => do
      let name ← requiredName place f
      let typeParams ← decodeTypeParams policy (place.field "type_parameters") 0 typeParameters
      return .type
        (.generated name typeParams (Uid.reference? f.reference) f.isNullable f.provenance)

def decodeDecls (policy : UidPolicy) (place : Place) : Nat → List Document → Decoding (List Decl)
  | _, [] => return []
  | i, doc :: docs => do
    let n ← decode policy (place.index i) doc
    let d ← fit (place.index i) Node.decl? .notDeclaration n
    let ds ← decodeDecls policy place (i + 1) docs
    return d :: ds

def decodeModules (policy : UidPolicy) (place : Place) :
    Nat → List Document → Decoding (List Module)
  | _, [] => return []
  | i, .null :: _ => refuse (place.index i) .nullModule
  | i, .node record :: docs => do
    requireModule (place.index i) record.fields
    let n ← Record.decode policy (place.index i) record
    let m ← fit (place.index i) Node.module? .unexpected n
    let ms ← decodeModules policy place (i + 1) docs
    return m :: ms

def decodeMembers (policy : UidPolicy) (place : Place) :
    Nat → List Document → Decoding (List Member)
  | _, [] => return []
  | i, doc :: docs => do
    let n ← decode policy (place.index i) doc
    let m ← fit (place.index i) Node.member? .notMember n
    let ms ← decodeMembers policy place (i + 1) docs
    return m :: ms

def decodeTypeParams (policy : UidPolicy) (place : Place) :
    Nat → List Document → Decoding (List TypeParam)
  | _, [] => return []
  | i, doc :: docs => do
    let n ← decode policy (place.index i) doc
    let p ← fit (place.index i) Node.typeParam? .unexpected n
    let ps ← decodeTypeParams policy place (i + 1) docs
    return p :: ps

def decodeParams (policy : UidPolicy) (place : Place) : Nat → List Document → Decoding (List Param)
  | _, [] => return []
  | i, doc :: docs => do
    let n ← decode policy (place.index i) doc
    let p ← fit (place.index i) Node.param? .unexpected n
    let ps ← decodeParams policy place (i + 1) docs
    return p :: ps

def decodeParents (policy : UidPolicy) (place : Place) :
    Nat → List Document → Decoding (List Heritage)
  | _, [] => return []
  | i, doc :: docs => do
    let n ← decode policy (place.index i) doc
    let h ← fit (place.index i) Node.heritage? .unexpected n
    let hs ← decodeParents policy place (i + 1) docs
    return h :: hs

def decodeTypes (policy : UidPolicy) (place : Place) : Nat → List Document → Decoding (List Ty)
  | _, [] => return []
  | i, .null :: _ => refuse (place.index i) .nullType
  | i, .node record :: docs => do
    let n ← Record.decode policy (place.index i) record
    let t ← fit (place.index i) Node.type? .notType n
    let ts ← decodeTypes policy place (i + 1) docs
    return t :: ts

def decodeSlot (policy : UidPolicy) (place : Place) : Document → Decoding (Option Ty)
  | .null => return none
  | .node record => do
    let n ← Record.decode policy place record
    let t ← fit place Node.type? .notType n
    return some t

end

/-- Reads one module. -/
def decodeModule (policy : UidPolicy) (place : Place) : Document → Decoding Module
  | .null => refuse place .nullModule
  | .node record => do
    requireModule place record.fields
    let n ← Record.decode policy place record
    fit place Node.module? .unexpected n

/-- The module that a document describes. -/
def toModule (policy : UidPolicy) (doc : Document) : Except Refusal Module :=
  (decodeModule policy [] doc).run' 0

/-- The modules that a list of documents describes. -/
def toModules (policy : UidPolicy) (docs : List Document) : Except Refusal (List Module) :=
  (decodeModules policy [] 0 docs).run' 0

/-- The node that a document describes. -/
def toNode (policy : UidPolicy) (doc : Document) : Except Refusal Node :=
  (decode policy [] doc).run' 0

end DeclTree.Document
