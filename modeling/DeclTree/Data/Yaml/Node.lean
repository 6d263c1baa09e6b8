import DeclTree.Data.Yaml.Token

/-!
# Nodes

The first document of a text as a tree of scalars, lists and records, with the tags that are written
before them. A name given to a node stands for that node where it is used later. A name that is used
inside the node that it stands for leads nowhere, and only what it stands for is kept.
-/

set_option autoImplicit false
set_option relaxedAutoImplicit false

namespace DeclTree.Yaml

inductive Node where
  | scalar (tag : Option String) (isPlain : Bool) (text : String)
  | list (tag : Option String) (items : List Node)
  | record (tag : Option String) (entries : List (Node × Node))
  | alias (name : String) (target : Node)
  | inside (name : String) (isRecord : Bool)

namespace Node

/-- Where nothing is written. -/
def empty : Node := .scalar none true ""

/-- A named node, which may still be read. -/
structure Anchor where
  name : String
  isRecord : Bool
  node : Option Node

/-- What is left to read, the beginnings that the handles of tags stand for, and the named nodes so
far, the latest first. -/
structure Reading where
  tokens : List Token
  handles : List (String × String)
  anchors : List Anchor

def Reading.skip (r : Reading) : Reading := { r with tokens := r.tokens.tail }

/-- Notes the name of a node that begins. -/
def Reading.bindName (r : Reading) (name? : Option String) : Reading :=
  match name? with
  | none => r
  | some name =>
    let isRecord := match r.tokens.head? with
      | some .flowRecordStart => true
      | some .blockRecordStart => true
      | _ => false
    { r with anchors := ⟨name, isRecord, none⟩ :: r.anchors }

/-- Notes the node whose name came after the first `count`. -/
def Reading.bindNode (r : Reading) (count : Nat) (name? : Option String) (node : Node) : Reading :=
  match name? with
  | none => r
  | some _ =>
    { r with
      anchors := r.anchors.modify (r.anchors.length - 1 - count) fun a =>
        { a with node := some node } }

/-- What a name stands for where it is used. -/
def Reading.target? (r : Reading) (name : String) : Option Node :=
  match r.anchors.find? fun a => a.name = name with
  | none => none
  | some a =>
    match a.node with
    | some node => some (.alias name node)
    | none => some (.inside name a.isRecord)

/-- The name and the tag before a node, in either order. -/
def properties : List Token → Option String × Option Tag × List Token
  | .anchor name :: .tag tag :: rest => (some name, some tag, rest)
  | .tag tag :: .anchor name :: rest => (some name, some tag, rest)
  | .anchor name :: rest => (some name, none, rest)
  | .tag tag :: rest => (none, some tag, rest)
  | tokens => (none, none, tokens)

/-- The name of a tag, if there is one; its handle has to stand for something. -/
def tagName? (handles : List (String × String)) : Option Tag → Option (Option String)
  | none => some none
  | some tag => (tag.name? handles).map some

mutual

/-- A node. `inBlock` allows blocks; `inRecord` allows a list that is not indented. -/
def node : Nat → Bool → Bool → Reading → Option (Node × Reading)
  | 0, _, _, _ => none
  | fuel + 1, inBlock, inRecord, r =>
    match r.tokens with
    | .alias name :: rest => (r.target? name).map fun node => (node, { r with tokens := rest })
    | _ =>
      let (name?, tag?, rest) := properties r.tokens
      match tagName? r.handles tag? with
      | none => none
      | some tag =>
        let count := r.anchors.length
        let r := ({ r with tokens := rest } : Reading).bindName name?
        let isMarked := name?.isSome || tag.isSome
        let content : Option (Node × Reading) :=
          match rest with
          | .scalar isPlain text :: rest =>
            some (.scalar tag isPlain text, { r with tokens := rest })
          | .flowListStart :: rest =>
            (flowItems fuel true { r with tokens := rest }).map fun (items, r) =>
              (.list tag items, r)
          | .flowRecordStart :: rest =>
            (flowEntries fuel true { r with tokens := rest }).map fun (entries, r) =>
              (.record tag entries, r)
          | token :: rest =>
            if inRecord && token = .blockEntry then
              (bareItems fuel r).map fun (items, r) => (.list tag items, r)
            else if inBlock && token = .blockListStart then
              (blockItems fuel { r with tokens := rest }).map fun (items, r) =>
                (.list tag items, r)
            else if inBlock && token = .blockRecordStart then
              (blockEntries fuel { r with tokens := rest }).map fun (entries, r) =>
                (.record tag entries, r)
            else if isMarked then some (.scalar tag true "", r)
            else none
          | [] => if isMarked then some (.scalar tag true "", r) else none
        content.map fun (node, r) => (node, r.bindNode count name? node)

/-- The items of an indented list. -/
def blockItems : Nat → Reading → Option (List Node × Reading)
  | 0, _ => none
  | fuel + 1, r =>
    match r.tokens with
    | .blockEntry :: rest =>
      match blockSlot fuel (fun t => t = .blockEntry || t = .blockEnd) false
        { r with tokens := rest } with
      | none => none
      | some (item, r) => (blockItems fuel r).map fun (items, r) => (item :: items, r)
    | .blockEnd :: rest => some ([], { r with tokens := rest })
    | _ => none

/-- The items of a list in a record that is not indented further. -/
def bareItems : Nat → Reading → Option (List Node × Reading)
  | 0, _ => none
  | fuel + 1, r =>
    match r.tokens with
    | .blockEntry :: rest =>
      match blockSlot fuel
        (fun t => t = .blockEntry || t = .key || t = .value || t = .blockEnd) false
        { r with tokens := rest } with
      | none => none
      | some (item, r) => (bareItems fuel r).map fun (items, r) => (item :: items, r)
    | _ => some ([], r)

/-- A node of a block, or nothing where a token follows that ends the slot. -/
def blockSlot : Nat → (Token → Bool) → Bool → Reading → Option (Node × Reading)
  | 0, _, _, _ => none
  | fuel + 1, ends, inRecord, r =>
    match r.tokens with
    | token :: _ => if ends token then some (empty, r) else node fuel true inRecord r
    | [] => node fuel true inRecord r

/-- The entries of an indented record. -/
def blockEntries : Nat → Reading → Option (List (Node × Node) × Reading)
  | 0, _ => none
  | fuel + 1, r =>
    let ends := fun t => t = Token.key || t = .value || t = .blockEnd
    match r.tokens with
    | .key :: rest =>
      match blockSlot fuel ends true { r with tokens := rest } with
      | none => none
      | some (key, r) =>
        let value :=
          match r.tokens with
          | .value :: rest => blockSlot fuel ends true { r with tokens := rest }
          | _ => some (empty, r)
        match value with
        | none => none
        | some (value, r) =>
          (blockEntries fuel r).map fun (entries, r) => ((key, value) :: entries, r)
    | .blockEnd :: rest => some ([], { r with tokens := rest })
    | _ => none

/-- A node in brackets, or nothing where a token follows that ends the slot. -/
def flowSlot : Nat → (Token → Bool) → Reading → Option (Node × Reading)
  | 0, _, _ => none
  | fuel + 1, ends, r =>
    match r.tokens with
    | token :: _ => if ends token then some (empty, r) else node fuel false false r
    | [] => node fuel false false r

/-- The items of a list in brackets; a comma stands before each but the first, and one may end
the list. -/
def flowItems : Nat → Bool → Reading → Option (List Node × Reading)
  | 0, _, _ => none
  | fuel + 1, isFirst, r =>
    let item := fun (r : Reading) =>
      match r.tokens with
      | .flowListEnd :: rest => some ([], { r with tokens := rest })
      | .key :: rest =>
        match flowPair fuel { r with tokens := rest } with
        | none => none
        | some (pair, r) =>
          (flowItems fuel false r).map fun (items, r) => (.record none [pair] :: items, r)
      | _ =>
        match node fuel false false r with
        | none => none
        | some (item, r) => (flowItems fuel false r).map fun (items, r) => (item :: items, r)
    match r.tokens with
    | .flowListEnd :: rest => some ([], { r with tokens := rest })
    | .flowEntry :: rest => if isFirst then none else item { r with tokens := rest }
    | _ => if isFirst then item r else none

/-- One entry that stands among the items of a list. A key that is left out takes the token behind
it along. -/
def flowPair : Nat → Reading → Option ((Node × Node) × Reading)
  | 0, _ => none
  | fuel + 1, r =>
    let ends := fun t => t = Token.flowEntry || t = .flowListEnd
    let key :=
      match r.tokens with
      | [] => none
      | token :: rest =>
        if token = Token.value || ends token then some (empty, { r with tokens := rest })
        else node fuel false false r
    match key with
    | none => none
    | some (key, r) =>
      match r.tokens with
      | .value :: rest =>
        (flowSlot fuel ends { r with tokens := rest }).map fun (value, r) => ((key, value), r)
      | _ => some ((key, empty), r)

/-- The entries of a record in braces. -/
def flowEntries : Nat → Bool → Reading → Option (List (Node × Node) × Reading)
  | 0, _, _ => none
  | fuel + 1, isFirst, r =>
    let ends := fun t => t = Token.flowEntry || t = .flowRecordEnd
    let entry := fun (r : Reading) =>
      match r.tokens with
      | .flowRecordEnd :: rest => some ([], { r with tokens := rest })
      | .key :: rest =>
        match flowSlot fuel (fun t => t = .value || ends t) { r with tokens := rest } with
        | none => none
        | some (key, r) =>
          let value :=
            match r.tokens with
            | .value :: rest => flowSlot fuel ends { r with tokens := rest }
            | _ => some (empty, r)
          match value with
          | none => none
          | some (value, r) =>
            (flowEntries fuel false r).map fun (entries, r) => ((key, value) :: entries, r)
      | _ =>
        match node fuel false false r with
        | none => none
        | some (key, r) =>
          (flowEntries fuel false r).map fun (entries, r) => ((key, empty) :: entries, r)
    match r.tokens with
    | .flowRecordEnd :: rest => some ([], { r with tokens := rest })
    | .flowEntry :: rest => if isFirst then none else entry { r with tokens := rest }
    | _ => if isFirst then entry r else none

end

/-- What a text holds. -/
inductive Content where
  | blank
  | malformed
  | node (n : Node)

/-- Whether a document ends before a token. -/
def endsDocument : Token → Bool
  | .directive _ => true
  | .documentStart => true
  | .documentEnd => true
  | _ => false

/-- The version of the format that documents may ask for. -/
def version : Directive := .version 1 1

/-- Takes the directives before a document: one may give the version, and each handle may be told
once. The handles that nothing was said on have their usual beginnings. -/
def directives (hasVersion : Bool) (handles : List (String × String)) :
    List Token → Option (List (String × String) × List Token)
  | .directive (.version major minor) :: rest =>
    if hasVersion || Directive.version major minor ≠ version then none
    else directives true handles rest
  | .directive (.handle name lead) :: rest =>
    if (handles.lookup name).isSome then none
    else directives hasVersion (handles ++ [(name, lead)]) rest
  | rest => some (handles ++ Tag.usualHandles, rest)

/-- Reads the root, which must be followed by a token that could be read. -/
def finish (handles : List (String × String)) (tokens : List Token) : Content :=
  match node (4 * tokens.length + 4) true false ⟨tokens, handles, []⟩ with
  | none => .malformed
  | some (root, r) => if r.tokens.head? = some .broken then .malformed else .node root

def ofTokens (tokens : List Token) : Content :=
  match tokens with
  | [] => .blank
  | token :: _ =>
    if token = .documentEnd || !endsDocument token then finish Tag.usualHandles tokens
    else
      match directives false [] tokens with
      | some (handles, .documentStart :: rest) =>
        if rest.head?.all endsDocument then .node empty else finish handles rest
      | _ => .malformed

/-- The first document of a text. -/
def read (text : String) : Content := ofTokens (Token.scan text)

end Node

end DeclTree.Yaml
