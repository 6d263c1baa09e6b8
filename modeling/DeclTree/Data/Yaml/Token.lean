import DeclTree.Data.Yaml.Tag

/-!
# Tokens

`Token.scan` cuts a text into tokens. Indentation becomes tokens of its own: a block opens where a
first entry or key stands further to the right than what holds it, and closes where a line begins
further to the left. That something is a key shows only at the colon behind it, so each place where
a key may begin is remembered, and the tokens for it are put in there later.

A reader is given a token when two more are known and it cannot turn out to begin a key. Where the
text cannot be read on, the tokens that were not given yet are dropped, and `broken` stands for
them.
-/

set_option autoImplicit false
set_option relaxedAutoImplicit false

namespace DeclTree.Yaml

inductive Token where
  | directive (d : Directive)
  | documentStart
  | documentEnd
  | blockListStart
  | blockRecordStart
  | blockEnd
  | flowListStart
  | flowListEnd
  | flowRecordStart
  | flowRecordEnd
  | blockEntry
  | flowEntry
  | key
  | value
  | alias (name : String)
  | anchor (name : String)
  | tag (tag : Tag)
  | scalar (isPlain : Bool) (text : String)
  | broken
  deriving DecidableEq, Repr

/-- A place where a key may begin: the number of tokens before it, whether only a key may stand
there, and whether a reader is kept waiting for what comes of it. -/
structure KeySite where
  index : Nat
  line : Nat
  column : Nat
  isRequired : Bool
  isAwaited : Bool
  deriving DecidableEq, Repr

/-- The longest text of a key that is not marked as one. -/
def maxKeyLength : Nat := 1024

/-- Whether a key can still end at a spot: it has to end on its line. -/
def KeySite.reaches (site : KeySite) (s : Spot) : Bool :=
  s.line ≤ site.line && s.column ≤ site.column + maxKeyLength

/-- What is known inside one pair of brackets, or outside all of them: the place of a possible key,
and the number of the token at which one was looked for last. -/
structure Level where
  site : Option KeySite
  number : Nat
  deriving DecidableEq, Repr

/-- Nobody has to wait for a key at a token of a given number any more. -/
def Level.settle (number : Nat) (level : Level) : Level :=
  { level with
    site := level.site.map fun site =>
      if site.index = number then { site with isAwaited := false } else site }

/-- What has been read. The tokens begin with the latest, and `size` is their number. Indents are
the columns of the open blocks, and levels go with the open brackets, with one more for what holds
them all; both begin with the innermost. -/
structure Scan where
  rest : List Spot
  tokens : List Token
  size : Nat
  indents : List Nat
  levels : List Level
  mayKey : Bool

namespace Scan

def init (spots : List Spot) : Scan where
  rest := spots
  tokens := []
  size := 0
  indents := []
  levels := [⟨none, 0⟩]
  mayKey := true

def inFlow (st : Scan) : Bool := 1 < st.levels.length

def indent? (st : Scan) : Option Nat := st.indents.head?

def site? (st : Scan) : Option KeySite := st.levels.head?.bind Level.site

def push (st : Scan) (token : Token) : Scan :=
  { st with tokens := token :: st.tokens, size := st.size + 1 }

/-- Puts in tokens behind the first so many. -/
def insert (st : Scan) (index : Nat) (tokens : List Token) : Scan :=
  let (after, before) := st.tokens.splitAt (st.size - index)
  { st with tokens := after ++ (tokens.reverse ++ before), size := st.size + tokens.length }

def setSite (st : Scan) (site : Option KeySite) : Scan :=
  match st.levels with
  | level :: levels => { st with levels := { level with site := site } :: levels }
  | [] => st

/-- How many tokens a reader has been given. -/
def given (st : Scan) : Nat :=
  let awaited := st.levels.filterMap fun level =>
    match level.site, st.rest with
    | some site, s :: _ => if site.isAwaited && site.reaches s then some site.index else none
    | _, _ => none
  awaited.foldl min (st.size - 2)

/-- How many blocks or brackets may be open at once. -/
def maxDepth : Nat := 10000

/-- Closes the blocks that begin to the right of a column. -/
def closeBlocks (column : Nat) (st : Scan) : Scan :=
  if st.inFlow then st
  else
    let count := (st.indents.takeWhile (column < ·)).length
    { st.insert st.size (List.replicate count .blockEnd) with indents := st.indents.drop count }

def closeAll (st : Scan) : Scan :=
  if st.inFlow then st
  else { st.insert st.size (List.replicate st.indents.length .blockEnd) with indents := [] }

def isDeeper (st : Scan) (column : Nat) : Bool :=
  !st.inFlow && st.indents.head?.all (· < column)

/-- Opens a block at a column to the right of the open ones. -/
def openBlock (column : Nat) (token : Token) (st : Scan) : Option Scan :=
  if st.isDeeper column then
    if st.indents.length < maxDepth then
      some { st.push token with indents := column :: st.indents }
    else none
  else some st

/-- Puts in the tokens for a key that began earlier; they come too late where the key itself has
been given to a reader, and then they go to the end. -/
def insertKey (site : KeySite) (st : Scan) : Option Scan :=
  let index := if site.index < st.given then st.size else site.index
  if st.isDeeper site.column then
    if st.indents.length < maxDepth then
      some
        { st.insert index [.blockRecordStart, .key] with
          indents := site.column :: st.indents }
    else none
  else some (st.insert index [.key])

/-- Forgets the place of a possible key, unless a key has to stand there. -/
def dropSite (st : Scan) : Option Scan :=
  match st.site? with
  | none => some st
  | some site => if site.isRequired then none else some (st.setSite none)

/-- Remembers that a key may begin here. -/
def markSite (s : Spot) (st : Scan) : Option Scan :=
  if st.mayKey then
    st.dropSite.map fun st =>
      let site : KeySite :=
        { index := st.size
          line := s.line
          column := s.column
          isRequired := !st.inFlow && st.indent? = some s.column
          isAwaited := true }
      { st with levels := ⟨some site, st.size⟩ :: st.levels.tail }
  else some st

/-- The place of the key that a colon ends; one that has to be a key must end on its line. -/
def keySite (s : Spot) (st : Scan) : Option (Option KeySite) :=
  match st.site? with
  | none => some none
  | some site =>
    if site.reaches s then some (some site) else if site.isRequired then none else some none

/-!
## Between tokens
-/

/-- How far ahead a comment is looked for behind another one. -/
def commentReach : Nat := 512

/-- Skips the comment that begins here, and those on the lines behind it with only blanks between
them. -/
def skipComments : Nat → List Spot → List Spot
  | 0, spots => spots
  | fuel + 1, spots =>
    let rest := spots.dropWhile fun s => !s.isBreak
    let blank := rest.takeWhile fun s => s.isGap || s.isBreak
    let after := rest.drop blank.length
    if blank.length < commentReach && after.head?.any fun s => s.char = '#' then
      skipComments fuel after
    else rest

/-- Skips blanks, comments and line breaks. A key may begin on a new line, and where one may begin
a tab is no blank. In a text that `isMarked` the first character of a line is taken for a mark. -/
def skip (inFlow isMarked : Bool) : Nat → Bool → List Spot → Bool × List Spot
  | 0, mayKey, spots => (mayKey, spots)
  | _, mayKey, [] => (mayKey, [])
  | fuel + 1, mayKey, s :: rest =>
    if s.isBreak then skip inFlow isMarked fuel (mayKey || !inFlow) rest
    else if isMarked && s.column = 0 then skip inFlow isMarked fuel mayKey rest
    else if s.char = ' ' || (s.char = '\t' && (inFlow || !mayKey)) then
      skip inFlow isMarked fuel mayKey rest
    else if s.char = '#' then
      skip inFlow isMarked fuel mayKey (skipComments (fuel + 1) (s :: rest))
    else (mayKey, s :: rest)

def skipBlanks (isMarked : Bool) (fuel : Nat) (st : Scan) : Scan :=
  let (mayKey, rest) := skip st.inFlow isMarked fuel st.mayKey st.rest
  { st with mayKey := mayKey, rest := rest }

/-!
## One token
-/

/-- A directive, on a line of its own. -/
def directive (rest : List Spot) (st : Scan) : Option Scan := do
  let st ← st.closeAll.dropSite
  let (d, rest) ← Directive.read? rest
  return { st.push (.directive d) with mayKey := false, rest := rest }

/-- A mark between documents. -/
def boundary (token : Token) (rest : List Spot) (st : Scan) : Option Scan :=
  st.closeAll.dropSite.map fun st =>
    { st.push token with mayKey := false, rest := rest }

def openFlow (token : Token) (s : Spot) (rest : List Spot) (st : Scan) : Option Scan :=
  if st.levels.length ≤ maxDepth then
    (st.markSite s).map fun st =>
      { st.push token with
        levels := ⟨none, st.size⟩ :: st.levels
        mayKey := true
        rest := rest }
  else none

def closeFlow (token : Token) (rest : List Spot) (st : Scan) : Option Scan :=
  st.dropSite.map fun st =>
    let levels := match st.levels with
      | closed :: outer :: levels => outer.settle closed.number :: levels
      | levels => levels
    { st.push token with levels := levels, mayKey := false, rest := rest }

def flowEntry (rest : List Spot) (st : Scan) : Option Scan :=
  st.dropSite.map fun st => { st.push .flowEntry with mayKey := true, rest := rest }

def blockEntry (s : Spot) (rest : List Spot) (st : Scan) : Option Scan := do
  if !st.inFlow && !st.mayKey then none
  else
    let st ← (← st.openBlock s.column .blockListStart).dropSite
    return { st.push .blockEntry with mayKey := true, rest := rest }

def markedKey (s : Spot) (rest : List Spot) (st : Scan) : Option Scan := do
  if !st.inFlow && !st.mayKey then none
  else
    let st ← (← st.openBlock s.column .blockRecordStart).dropSite
    return { st.push .key with mayKey := !st.inFlow, rest := Spot.dropComment rest }

def colon (s : Spot) (rest : List Spot) (st : Scan) : Option Scan := do
  match ← st.keySite s with
  | some site =>
    let st ← st.insertKey site
    return { (st.setSite none).push .value with mayKey := false, rest := rest }
  | none =>
    if !st.inFlow && !st.mayKey then none
    else
      let st ← st.openBlock s.column .blockRecordStart
      return { st.push .value with mayKey := !st.inFlow, rest := Spot.dropComment rest }

/-- Characters that may follow the name of an anchor directly. -/
def endsName : List Spot → Bool
  | [] => true
  | s :: _ =>
    s.isGap || s.isBreak || s.char = '?' || s.char = ':' || s.char = ',' || s.char = ']' ||
      s.char = '}' || s.char = '%' || s.char = '@' || s.char = Char.ofNat 96

def named (token : String → Token) (s : Spot) (rest : List Spot) (st : Scan) : Option Scan := do
  let (name, rest) := name rest
  if name = "" || !endsName rest then none
  else
    let st ← st.markSite s
    return { st.push (token name) with mayKey := false, rest := rest }

def tagged (s : Spot) (rest : List Spot) (st : Scan) : Option Scan := do
  let st ← st.markSite s
  let (tag, rest) ← Tag.read? rest
  return { st.push (.tag tag) with mayKey := false, rest := rest }

def block (isLiteral : Bool) (rest : List Spot) (st : Scan) : Option Scan := do
  let st ← st.dropSite
  let (text, rest) ← blockText isLiteral st.indent? rest
  return { st.push (.scalar false text) with mayKey := true, rest := rest }

def quoted (s : Spot) (read : Option (List Char × List Spot)) (st : Scan) : Option Scan := do
  let st ← st.markSite s
  let (text, rest) ← read
  return {
    st.push (.scalar false (String.ofList text.reverse)) with
    mayKey := false
    rest := rest }

def plain (s : Spot) (st : Scan) : Option Scan := do
  let indent := match st.indent? with
    | some column => column + 1
    | none => 0
  let (text, gap, rest) ← plainText st.inFlow indent .none [] st.rest
  let st ← st.markSite s
  return {
    st.push (.scalar true (String.ofList text.reverse)) with
    mayKey := gap.isBroken
    rest := rest }

/-- Characters that begin something other than a scalar without quotes. -/
def isSign (c : Char) : Bool :=
  "-?:,[]\x7b\x7d#&*!|>'\"%@".toList.contains c || c.toNat = 96

def beginsPlain (inFlow : Bool) (s : Spot) (rest : List Spot) : Bool :=
  let isFollowedByBlank := match rest with
    | next :: _ => next.isGap
    | [] => false
  (!s.isGap && !s.isBreak && !isSign s.char) || (s.char = '-' && !isFollowedByBlank) ||
    (!inFlow && (s.char = '?' || s.char = ':') && !Spot.isClear rest)

/-- Reads the token that begins at a character. -/
def step (fuel : Nat) (s : Spot) (rest : List Spot) (st : Scan) : Option Scan :=
  let isClear := Spot.isClear rest
  if s.column = 0 && s.char = '%' then st.directive rest
  else if Spot.isBoundary (s :: rest) then
    st.boundary (if s.char = '-' then .documentStart else .documentEnd) (rest.drop 2)
  else if s.char = '[' then st.openFlow .flowListStart s rest
  else if s.char = '{' then st.openFlow .flowRecordStart s rest
  else if s.char = ']' then st.closeFlow .flowListEnd rest
  else if s.char = '}' then st.closeFlow .flowRecordEnd rest
  else if s.char = ',' then st.flowEntry rest
  else if s.char = '-' && isClear then st.blockEntry s rest
  else if s.char = '?' && (st.inFlow || isClear) then st.markedKey s rest
  else if s.char = ':' && (st.inFlow || isClear) then st.colon s rest
  else if s.char = '*' then st.named .alias s rest
  else if s.char = '&' then st.named .anchor s rest
  else if s.char = '!' then st.tagged s rest
  else if s.char = '|' && !st.inFlow then st.block true rest
  else if s.char = '>' && !st.inFlow then st.block false rest
  else if s.char = '\'' then st.quoted s (singleText .none [] rest)
  else if s.char = '"' then st.quoted s (doubleText fuel .none [] rest)
  else if beginsPlain st.inFlow s rest then st.plain s
  else none

/-- The tokens that a reader has been given when the text cannot be read on. -/
def giveUp (st : Scan) : List Token := st.tokens.reverse.take st.given ++ [.broken]

/-- How many characters have to be known where a token begins. -/
def lookahead : Nat := 4

/-- Reads to the end. There is always more fuel than there are characters to read. -/
def run (source : Source) : Nat → Scan → List Token
  | 0, st => st.giveUp
  | fuel + 1, st =>
    let next := st.skipBlanks source.isMarked (fuel + 1)
    if source.isCut && (next.rest.drop (lookahead - 1)).isEmpty then st.giveUp
    else
      match next.rest with
      | [] =>
        match next.closeAll.dropSite with
        | some last => last.tokens.reverse
        | none => st.giveUp
      | s :: rest =>
        match (next.closeBlocks s.column).step (fuel + 1) s rest with
        | some st => st.run source fuel
        | none => st.giveUp

end Scan

/-- The tokens of a text. -/
def Token.scan (text : String) : List Token :=
  let source := Source.ofText text
  Scan.run source (source.spots.length + 1) (Scan.init source.spots)

end DeclTree.Yaml
