import DeclTree.Document.Basic
import DeclTree.Tree.Node

/-!
# Writing documents

Encoding gives the document of a tree. It fails at a node from outside; a missing declaration is
written as null.
-/

set_option autoImplicit false
set_option relaxedAutoImplicit false

namespace DeclTree

open Document (Record Fields)

/-- The fault for a node that has no written form. -/
def Document.unwritable (label : String) : Fault := Fault.unsupported ("cannot encode " ++ label)

abbrev Encoding := Except Fault

def Name.text? : Option Name → String
  | none => ""
  | some name => name.render

def Receiver.encode (r : Receiver) : Document.Receiver :=
  ⟨r.name.render, r.typeParams.map Name.render⟩

mutual

def Ty.encode : Ty → Encoding Document
  | .named name args target nullable tags => do
    let params ← Ty.encodeAll args
    return .node
      { Record.ofFields
          { kind := Kind.namedType.text, name := name.render, reference := target.getD "",
            isNullable := nullable, tags := tags.tags } with
        params }
  | .function params result nullable tags => do
    let parameters ← Param.encodeAll params
    let type ← Ty.encodeSlot result
    return .node
      { Record.ofFields
          { kind := Kind.functionType.text, isNullable := nullable, tags := tags.tags } with
        parameters, type }
  | .union alternatives nullable tags => do
    let params ← Ty.encodeAll alternatives
    return .node
      { Record.ofFields
          { kind := Kind.unionType.text, isNullable := nullable, tags := tags.tags } with
        params }
  | .self nullable tags =>
    return .node
      (Record.ofFields { kind := Kind.selfType.text, isNullable := nullable, tags := tags.tags })
  | .generated name typeParams target nullable tags => do
    let typeParameters ← TypeParam.encodeAll typeParams
    return .node
      { Record.ofFields
          { kind := Kind.generatedType.text, name := name.render, reference := target.getD "",
            isNullable := nullable, tags := tags.tags } with
        typeParameters }
  | .foreign label => .error (Document.unwritable label)

def Ty.encodeAll : List Ty → Encoding (List Document)
  | [] => return []
  | t :: ts => do
    let doc ← Ty.encode t
    let docs ← Ty.encodeAll ts
    return doc :: docs

def Ty.encodeSlot : Option Ty → Encoding Document
  | none => return .null
  | some t => Ty.encode t

def Param.encode : Param → Encoding Document
  | ⟨name, type, isOptional, isVararg⟩ => do
    let type ← Ty.encodeSlot type
    return .node
      { Record.ofFields { kind := Kind.param.text, name, isOptional, isVararg } with type }

def Param.encodeAll : List Param → Encoding (List Document)
  | [] => return []
  | p :: ps => do
    let doc ← Param.encode p
    let docs ← Param.encodeAll ps
    return doc :: docs

def TypeParam.encode : TypeParam → Encoding Document
  | ⟨name, constraints, default⟩ => do
    let constraints ← Ty.encodeAll constraints
    let default ← Ty.encodeSlot default
    return .node
      { Record.ofFields { kind := Kind.typeParam.text, name := name.render } with
        constraints, default }

def TypeParam.encodeAll : List TypeParam → Encoding (List Document)
  | [] => return []
  | p :: ps => do
    let doc ← TypeParam.encode p
    let docs ← TypeParam.encodeAll ps
    return doc :: docs

end

def Heritage.encode (h : Heritage) : Encoding Document := do
  let params ← Ty.encodeAll h.args
  return .node
    { Record.ofFields
        { kind := Kind.heritage.text, name := h.name.render, reference := h.target.getD "" } with
      params }

def Heritage.encodeAll : List Heritage → Encoding (List Document)
  | [] => return []
  | h :: hs => do
    let doc ← Heritage.encode h
    let docs ← Heritage.encodeAll hs
    return doc :: docs

def Function.encode (f : Function) : Encoding Document := do
  let typeParameters ← TypeParam.encodeAll f.typeParams
  let parameters ← Param.encodeAll f.params
  let type ← Ty.encodeSlot f.result
  return .node
    { Record.ofFields
        { kind := Kind.functionDecl.text, name := f.name.render, uid := f.uid, tags := f.tags.tags,
          isInline := f.isInline, isOperator := f.isOperator, isExported := f.isExported,
          receiver := f.receiver.map Receiver.encode } with
      typeParameters, parameters, type }

def Variable.encode (v : Variable) : Encoding Document := do
  let type ← Ty.encodeSlot v.type
  return .node
    { Record.ofFields
        { kind := Kind.variableDecl.text, name := v.name.render, tags := v.tags.tags,
          isImmutable := v.isImmutable, isInline := v.isInline, isExported := v.isExported,
          receiver := v.receiver.map Receiver.encode } with
      type }

def TypeAlias.encode (a : TypeAlias) : Encoding Document := do
  let typeParameters ← TypeParam.encodeAll a.typeParams
  let type ← Ty.encodeSlot a.type
  return .node
    { Record.ofFields
        { kind := Kind.aliasDecl.text, name := a.name.render, uid := a.uid,
          tags := a.tags.tags } with
      typeParameters, type }

def Enum.encode (e : Enum) : Document :=
  .node
    (Record.ofFields
      { kind := Kind.enumDecl.text, name := e.name.render, uid := e.uid,
        tokens := e.tokens.map fun t => some ⟨t.value, t.literal⟩ })

/-- The plain fields of a class-like declaration. -/
def ClassHead.fields (head : ClassHead) : Fields :=
  let f : Fields :=
    { kind := head.form.kind.text, name := head.name.render, uid := head.uid,
      tags := head.tags.tags, isExported := head.isExported }
  match head.form with
  | .cls isAbstract _ => { f with isAbstract }
  | .interface isGenerated _ => { f with isGenerated }
  | .object => f

mutual

def Member.encode : Member → Encoding Document
  | .method m => do
    let typeParameters ← TypeParam.encodeAll m.typeParams
    let parameters ← Param.encodeAll m.params
    let type ← Ty.encodeSlot m.result
    return .node
      { Record.ofFields
          { kind := Kind.method.text, name := m.name, isStatic := m.isStatic,
            isOverride := m.isOverride, isOperator := m.isOperator } with
        typeParameters, parameters, type }
  | .property p => do
    let typeParameters ← TypeParam.encodeAll p.typeParams
    let type ← Ty.encodeSlot p.type
    return .node
      { Record.ofFields
          { kind := Kind.property.text, name := p.name, isStatic := p.isStatic,
            isOverride := p.isOverride, hasGetter := p.hasGetter, hasSetter := p.hasSetter,
            isOpen := p.isOpen } with
        typeParameters, type }
  | .constructor c => do
    let typeParameters ← TypeParam.encodeAll c.typeParams
    let parameters ← Param.encodeAll c.params
    return .node
      { Record.ofFields { kind := Kind.constructor.text } with typeParameters, parameters }
  | .function f => f.encode
  | .classLike head members => do
    let typeParameters ← TypeParam.encodeAll head.typeParams
    let parents ← Heritage.encodeAll head.parents
    let members ← Member.encodeAll members
    return .node { Record.ofFields head.fields with typeParameters, parents, members }

def Member.encodeAll : List Member → Encoding (List Document)
  | [] => return []
  | m :: ms => do
    let doc ← Member.encode m
    let docs ← Member.encodeAll ms
    return doc :: docs

end

/-- The plain fields of a module. -/
def ModuleHead.fields (head : ModuleHead) : Fields :=
  { kind := Kind.moduleDecl.text, name := Name.text? head.name,
    shortName := Name.text? head.shortName, uid := head.uid,
    imports := head.imports.map Name.render,
    annotations := head.annotations.map fun a => some ⟨a.name, a.params⟩ }

mutual

def Decl.encode : Decl → Encoding Document
  | .module m => Module.encode m
  | .classLike head members => Member.encode (.classLike head members)
  | .function f => f.encode
  | .var v => v.encode
  | .typeAlias a => a.encode
  | .enum e => return e.encode
  | .foreign label => .error (Document.unwritable label)
  | .missing => return .null

def Decl.encodeAll : List Decl → Encoding (List Document)
  | [] => return []
  | d :: ds => do
    let doc ← Decl.encode d
    let docs ← Decl.encodeAll ds
    return doc :: docs

/-- The document of a module. -/
def Module.encode : Module → Encoding Document
  | ⟨head, declarations, submodules⟩ => do
    let declarations ← Decl.encodeAll declarations
    let submodules ← Module.encodeAll submodules
    return .node { Record.ofFields head.fields with declarations, submodules }

def Module.encodeAll : List Module → Encoding (List Document)
  | [] => return []
  | m :: ms => do
    let doc ← Module.encode m
    let docs ← Module.encodeAll ms
    return doc :: docs

end

end DeclTree
