import Cobol.Yaml.Lexeme

/-!
# Tokens of a settings text

A settings text as a sequence of tokens in which the structure given by indentation is explicit: a
block starts with a token of its own, and `Token.blockEnd` ends it.

## Shape decisions

* A key is known only by the colon behind it. Where a key may start, its place is kept
  (`Scan.keys`, one for each depth of brackets); the colon then puts the key token in front of what
  has been read since.
* Such a place is given up at the end of its line and after `keyReach` characters. At the
  indentation of the block it stands in nothing but a key can start, so there giving it up is an
  error.
* Reading never fails as a whole. What cannot be read is a last token `Token.broken`, so that what
  stands in front of it is judged first. So is a list or a mapping that is nested too deeply.
* As long as a key may have started at a token, the token is not given out, and neither are those
  behind it (`Scan.certain`): what cannot be read on the way to the colon comes in front of them.
-/

namespace Cobol.Yaml

/-- A token of a settings text. -/
inductive Token
  /-- A scalar without quotes. -/
  | plain (t : Text)
  /-- A scalar in quotes. -/
  | quoted (points : List CodePoint)
  /-- A list by indentation starts. -/
  | blockSequence
  /-- A mapping by indentation starts. -/
  | blockMapping
  /-- A list or a mapping by indentation ends. -/
  | blockEnd
  /-- A list in brackets starts. -/
  | openSequence
  /-- A list in brackets ends. -/
  | closeSequence
  /-- A mapping in brackets starts. -/
  | openMapping
  /-- A mapping in brackets ends. -/
  | closeMapping
  /-- The comma between items in brackets. -/
  | comma
  /-- The dash in front of an item. -/
  | dash
  /-- A key follows. -/
  | key
  /-- The colon between a key and its value. -/
  | colon
  /-- The mark that starts a document. -/
  | documentStart
  /-- The mark that ends a document. -/
  | documentEnd
  /-- What cannot be read. -/
  | broken (e : ReadError)
  deriving DecidableEq, Repr

/-- A place where a key may have started. -/
structure KeyPlace where
  /-- The number of tokens in front of it. -/
  number : Nat
  /-- Where it is. -/
  place : Place
  /-- Nothing but a key can start here. -/
  required : Bool

/-- A reading of tokens. -/
structure Scan where
  /-- What is still to be read. -/
  cursor : Cursor
  /-- The tokens read. -/
  tokens : Array Token := #[]
  /-- The number of open brackets. -/
  depth : Nat := 0
  /-- The columns of the open blocks, the innermost first. -/
  indents : List Nat := []
  /-- A key may start here. -/
  keyAllowed : Bool := true
  /-- The places where keys may have started, by depth. -/
  keys : List (Nat × KeyPlace) := []

namespace Scan

/-- The greatest number of characters from the start of a key to its colon. -/
def keyReach : Nat := 1024

/-- The current column. -/
def column (s : Scan) : Nat :=
  s.cursor.place.column

/-- The reading stands inside brackets. -/
def inBrackets (s : Scan) : Bool :=
  s.depth != 0

/-- Adds a token. -/
def push (s : Scan) (t : Token) : Scan :=
  { s with tokens := s.tokens.push t }

/-- Adds a token that is a number of characters. -/
def pass (s : Scan) (width : Nat) (t : Token) : Scan :=
  { s.push t with cursor := s.cursor.skip width }

/-! ### Places of keys -/

/-- The place can no longer be the start of a key. -/
def isStale (s : Scan) (k : KeyPlace) : Bool :=
  k.place.line != s.cursor.place.line || keyReach < s.cursor.place.index - k.place.index

/-- Gives up the places that can no longer start a key. -/
def dropStale (s : Scan) : Read Scan :=
  if s.keys.any fun k ↦ s.isStale k.2 && k.2.required then .error .malformed
  else .ok { s with keys := s.keys.filter fun k ↦ !s.isStale k.2 }

/-- Gives up the place kept for the current depth. -/
def dropKey (s : Scan) : Read Scan :=
  if (s.keys.lookup s.depth).any KeyPlace.required then .error .malformed
  else .ok { s with keys := s.keys.filter fun k ↦ k.1 != s.depth }

/-- Keeps the current place, if a key may start here. -/
def saveKey (s : Scan) : Read Scan :=
  if s.keyAllowed then do
    let place : KeyPlace :=
      { number := s.tokens.size
        place := s.cursor.place
        required := !s.inBrackets && s.indents.head? == some s.column }
    let s ← s.dropKey
    return { s with keys := (s.depth, place) :: s.keys }
  else .ok s

/-! ### Blocks -/

/-- Ends the innermost blocks whose columns do not stay open. Brackets hold every block open. -/
def closeBlocks (stays : Nat → Bool) (s : Scan) : Scan :=
  if s.inBrackets then s
  else
    { s with
      tokens := s.tokens ++ (s.indents.takeWhile fun i ↦ !stays i).map fun _ ↦ Token.blockEnd
      indents := s.indents.dropWhile fun i ↦ !stays i }

/-- A block that starts at a column is inside all open ones. -/
def isInner (s : Scan) (column : Nat) : Bool :=
  s.indents.head?.all (· < column)

/-- Starts a block at the current column, unless the current block stands there. -/
def openBlock (s : Scan) (t : Token) : Scan :=
  if s.isInner s.column then { s.push t with indents := s.column :: s.indents } else s

/-! ### Tokens -/

/-- A mark between documents. -/
def documentMark (s : Scan) (t : Token) : Read Scan := do
  let s ← (s.closeBlocks fun _ ↦ false).dropKey
  return { s.pass 3 t with keyAllowed := false }

/-- An opening bracket. -/
def openBracket (s : Scan) (t : Token) : Read Scan := do
  let s ← s.saveKey
  return { s.pass 1 t with depth := s.depth + 1, keyAllowed := true }

/-- A closing bracket. -/
def closeBracket (s : Scan) (t : Token) : Read Scan :=
  if s.inBrackets then do
    let s ← s.dropKey
    return { s.pass 1 t with depth := s.depth - 1, keyAllowed := false }
  else .error .malformed

/-- A comma. -/
def comma (s : Scan) : Read Scan := do
  let s ← s.dropKey
  return { s.pass 1 .comma with keyAllowed := true }

/-- The scan inside a block at the current column, in which a key may start; brackets need no
block. -/
def inBlock (s : Scan) (t : Token) : Read Scan :=
  if s.inBrackets then .ok s
  else if s.keyAllowed then .ok (s.openBlock t)
  else .error .malformed

/-- A dash in front of an item. -/
def dash (s : Scan) : Read Scan := do
  let s ← (← s.inBlock .blockSequence).dropKey
  return { s.pass 1 .dash with keyAllowed := true }

/-- A question mark in front of a key. -/
def keyMark (s : Scan) : Read Scan := do
  let s ← (← s.inBlock .blockMapping).dropKey
  return { s.pass 1 .key with keyAllowed := !s.inBrackets }

/-- Puts the key token in front of what has been read since the place of the key, and in front of
that the start of a mapping, if there is none. -/
def insertKey (s : Scan) (k : KeyPlace) : Scan :=
  let tokens := s.tokens.insertIdxIfInBounds k.number .key
  if !s.inBrackets && s.isInner k.place.column then
    { s with
      tokens := tokens.insertIdxIfInBounds k.number .blockMapping
      indents := k.place.column :: s.indents }
  else { s with tokens := tokens }

/-- A colon, behind a key that has been read or behind none. -/
def colon (s : Scan) : Read Scan :=
  match s.keys.lookup s.depth with
  | some k =>
    let s := { s.insertKey k with keys := s.keys.filter fun k ↦ k.1 != s.depth }
    .ok { s.pass 1 .colon with keyAllowed := false }
  | none => do
    let s ← (← s.inBlock .blockMapping).dropKey
    return { s.pass 1 .colon with keyAllowed := !s.inBrackets }

/-- A quoted scalar. -/
def quotedScalar (s : Scan) (double : Bool) : Read Scan := do
  let s ← s.saveKey
  let (t, after) ← quoted double (s.cursor.skip 1)
  return { s.push (.quoted t) with cursor := after, keyAllowed := false }

/-- A plain scalar. -/
def plainScalar (s : Scan) : Read Scan := do
  let s ← s.saveKey
  let indent := match s.indents with
    | [] => 0
    | i :: _ => i + 1
  let p := plain s.inBrackets indent s.cursor
  return { s.push (.plain p.text) with cursor := p.cursor, keyAllowed := p.newLine }

/-- Reads one token from a text that is not at its end. -/
def token (s : Scan) : Read Scan :=
  match s.cursor.rest with
  | [] => .ok s
  | c :: rest =>
    if s.column == 0 && startsDocumentMark (c :: rest) then
      s.documentMark (if c == '-' then .documentStart else .documentEnd)
    else if c == '[' then s.openBracket .openSequence
    else if c == '\x7b' then s.openBracket .openMapping
    else if c == ']' then s.closeBracket .closeSequence
    else if c == '\x7d' then s.closeBracket .closeMapping
    else if c == ',' then s.comma
    else if c == '-' && endsMark rest then s.dash
    else if c == '?' && (s.inBrackets || endsMark rest) then s.keyMark
    else if c == ':' && (s.inBrackets || endsMark rest) then s.colon
    else if c == '\'' || c == '"' then s.quotedScalar (c == '"')
    else if startsPlain s.inBrackets (c :: rest) then s.plainScalar
    else .error .malformed

/-! ### Whole texts -/

/-- The spaces, line ends and comments at the start of a text. -/
def skipped (inComment : Bool) : Text → Text
  | [] => []
  | c :: rest =>
    if isBreak c then c :: skipped false rest
    else if inComment then c :: skipped true rest
    else if c == ' ' then c :: skipped false rest
    else if c == '#' then c :: skipped true rest
    else []

/-- Goes to the next token: a key may start on a new line outside brackets, and the blocks are ended
that are indented further. -/
def advance (s : Scan) : Read Scan := do
  let piece := skipped false s.cursor.rest
  let s ← dropStale
    { s with
      cursor := s.cursor.past piece
      keyAllowed := s.keyAllowed || (!s.inBrackets && piece.any isBreak) }
  return s.closeBlocks fun i ↦ i ≤ s.column

/-- Ends the reading at the end of the text. -/
def finish (s : Scan) : Read Scan :=
  (s.closeBlocks fun _ ↦ false).dropKey

/-- The scan, unless it has come to the end of a text that is not the whole. -/
def withinSupply (s : Scan) : Read Scan :=
  match s.cursor.rest, s.cursor.beyond with
  | [], some e => .error e
  | _, _ => .ok s

/-- Reads the next token, or ends the reading (`true`) at the end of the text. -/
def next (s : Scan) : Read (Bool × Scan) := do
  let s ← s.advance
  let s ← s.withinSupply
  if s.cursor.rest.isEmpty then return (true, ← s.finish)
  else
    let s ← s.token
    return (false, ← s.withinSupply)

/-- The tokens in front of the first place where a key may have started. -/
def certain (s : Scan) : Array Token :=
  match ((s.keys.filter fun k ↦ !s.isStale k.2).map fun k ↦ k.2.number).min? with
  | some n => s.tokens.take n
  | none => s.tokens

/-- Reads tokens to the end; every token takes a character at least. -/
def toEnd : Nat → Scan → Array Token
  | 0, s => s.tokens
  | fuel + 1, s =>
    match s.next with
    | .error e => s.certain.push (.broken e)
    | .ok (true, s) => s.tokens
    | .ok (false, s) => toEnd fuel s

end Scan

namespace Token

/-- The greatest number of lists and mappings around a value. -/
def depthLimit : Nat := 400

/-- The token starts a list or a mapping. -/
def isOpening : Token → Bool
  | blockSequence | blockMapping | openSequence | openMapping => true
  | _ => false

/-- The token ends a list or a mapping. -/
def isClosing : Token → Bool
  | blockEnd | closeSequence | closeMapping => true
  | _ => false

/-- The tokens up to the first list or mapping that is nested beyond the limit; `depth` of them are
open. -/
def withinLimit (depth : Nat) : List Token → List Token
  | [] => []
  | t :: rest =>
    if t.isOpening then
      if depth < depthLimit then t :: withinLimit (depth + 1) rest else [.broken .nesting]
    else t :: withinLimit (if t.isClosing then depth - 1 else depth) rest

/-- The tokens of a text, which may start with a byte order mark. -/
def ofSupply (s : Supply) : List Token :=
  let start := Cursor.ofSupply s
  let start := if s.text.head? == some '\uFEFF' then start.skip 1 else start
  withinLimit 0 (Scan.toEnd (s.text.length + 1) { cursor := start }).toList

end Token

end Cobol.Yaml
