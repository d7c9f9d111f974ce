import Cobol.Yaml.Token

/-!
# Trees of a settings text

The tokens of a settings text as a tree of scalars, lists and mappings. A scalar is still as it is
written; what it denotes is decided when the tree has been read as a whole.

## Shape decisions

* A place where a value may stand and none does is an empty plain scalar (`Node.empty`).
* Every reading returns the tokens behind what it has read. The recursion takes fuel, which
  `ofTokens` computes from the number of tokens: at most two calls in a row take none.
* What cannot be read is named by the first token that is not taken (`refused`).
-/

namespace Cobol.Yaml

/-- A tree of scalars, lists and mappings. -/
inductive Node
  /-- A scalar without quotes. -/
  | plain (t : Text)
  /-- A scalar in quotes. -/
  | quoted (points : List CodePoint)
  /-- A list. -/
  | sequence (items : List Node)
  /-- Values under keys. -/
  | mapping (fields : List (Node × Node))

namespace Node

/-- The value that is left out. -/
def empty : Node := plain []

/-- The error at the first token that is not taken. -/
def refused {α : Type} : List Token → Read α
  | .broken e :: _ => .error e
  | _ => .error .malformed

/-- The next token is one of those behind which a value is left out. -/
def isLeftOut (ends : List Token) (tokens : List Token) : Bool :=
  tokens.head?.any ends.contains

/-- The tokens behind which the value of a mapping in block form is left out. -/
def fieldEnds : List Token := [.key, .colon, .blockEnd]

mutual

/-- A node and the tokens behind it. Below a key, a list in block form may stand without a block of
its own. -/
def read (fuel : Nat) (belowKey : Bool) (tokens : List Token) : Read (Node × List Token) :=
  match fuel with
  | 0 => refused tokens
  | fuel + 1 =>
    match tokens with
    | .plain t :: rest => .ok (.plain t, rest)
    | .quoted points :: rest => .ok (.quoted points, rest)
    | .openSequence :: rest => bracketItems fuel true [] rest
    | .openMapping :: rest => bracketFields fuel true [] rest
    | .blockSequence :: rest => blockItems fuel [] rest
    | .blockMapping :: rest => blockFields fuel [] rest
    | .dash :: _ => if belowKey then dashItems fuel [] tokens else refused tokens
    | _ => refused tokens

/-- A node, unless it is left out. -/
def readUnless (fuel : Nat) (ends : List Token) (belowKey : Bool) (tokens : List Token) :
    Read (Node × List Token) :=
  match fuel with
  | 0 => refused tokens
  | fuel + 1 => if isLeftOut ends tokens then .ok (empty, tokens) else read fuel belowKey tokens

/-- The value behind a key; without a colon it is left out. -/
def readValue (fuel : Nat) (ends : List Token) (belowKey : Bool) (tokens : List Token) :
    Read (Node × List Token) :=
  match fuel with
  | 0 => refused tokens
  | fuel + 1 =>
    match tokens with
    | .colon :: rest => readUnless fuel ends belowKey rest
    | _ => .ok (empty, tokens)

/-- The items of a list in block form; `items` are those read, last first. -/
def blockItems (fuel : Nat) (items : List Node) (tokens : List Token) :
    Read (Node × List Token) :=
  match fuel with
  | 0 => refused tokens
  | fuel + 1 =>
    match tokens with
    | .dash :: rest => do
      let (item, rest) ← readUnless fuel [.dash, .blockEnd] false rest
      blockItems fuel (item :: items) rest
    | .blockEnd :: rest => .ok (.sequence items.reverse, rest)
    | _ => refused tokens

/-- The items of a list without a block of its own; `items` are those read, last first. -/
def dashItems (fuel : Nat) (items : List Node) (tokens : List Token) :
    Read (Node × List Token) :=
  match fuel with
  | 0 => refused tokens
  | fuel + 1 =>
    match tokens with
    | .dash :: rest => do
      let (item, rest) ← readUnless fuel (.dash :: fieldEnds) false rest
      dashItems fuel (item :: items) rest
    | _ => .ok (.sequence items.reverse, tokens)

/-- The fields of a mapping in block form; `fields` are those read, last first. -/
def blockFields (fuel : Nat) (fields : List (Node × Node)) (tokens : List Token) :
    Read (Node × List Token) :=
  match fuel with
  | 0 => refused tokens
  | fuel + 1 =>
    match tokens with
    | .key :: rest => do
      let (name, rest) ← readUnless fuel fieldEnds true rest
      let (value, rest) ← readValue fuel fieldEnds true rest
      blockFields fuel ((name, value) :: fields) rest
    | .blockEnd :: rest => .ok (.mapping fields.reverse, rest)
    | _ => refused tokens

/-- A key and its value in brackets, of which either may be left out. -/
def bracketField (fuel : Nat) (closing : Token) (tokens : List Token) :
    Read ((Node × Node) × List Token) :=
  match fuel with
  | 0 => refused tokens
  | fuel + 1 => do
    let (name, rest) ← readUnless fuel [.colon, .comma, closing] false tokens
    let (value, rest) ← readValue fuel [.comma, closing] false rest
    return ((name, value), rest)

/-- The items of a list in brackets; a comma stands in front of every item but the first. A key
makes an item that is a mapping of one field. `items` are those read, last first. -/
def bracketItems (fuel : Nat) (first : Bool) (items : List Node) (tokens : List Token) :
    Read (Node × List Token) :=
  match fuel with
  | 0 => refused tokens
  | fuel + 1 =>
    match tokens, first with
    | .closeSequence :: rest, _ => .ok (.sequence items.reverse, rest)
    | .comma :: .closeSequence :: rest, false => .ok (.sequence items.reverse, rest)
    | .comma :: .key :: rest, false | .key :: rest, true => do
      let (field, rest) ← bracketField fuel .closeSequence rest
      bracketItems fuel false (.mapping [field] :: items) rest
    | .comma :: rest, false | rest, true => do
      let (item, rest) ← read fuel false rest
      bracketItems fuel false (item :: items) rest
    | rest, false => refused rest

/-- The fields of a mapping in brackets; a comma stands in front of every field but the first. A
node without a key token is a key alone. `fields` are those read, last first. -/
def bracketFields (fuel : Nat) (first : Bool) (fields : List (Node × Node))
    (tokens : List Token) : Read (Node × List Token) :=
  match fuel with
  | 0 => refused tokens
  | fuel + 1 =>
    match tokens, first with
    | .closeMapping :: rest, _ => .ok (.mapping fields.reverse, rest)
    | .comma :: .closeMapping :: rest, false => .ok (.mapping fields.reverse, rest)
    | .comma :: .key :: rest, false | .key :: rest, true => do
      let (field, rest) ← bracketField fuel .closeMapping rest
      bracketFields fuel false (field :: fields) rest
    | .comma :: rest, false | rest, true => do
      let (name, rest) ← read fuel false rest
      bracketFields fuel false ((name, empty) :: fields) rest
    | rest, false => refused rest

end

/-- The node of a document, behind the mark that may start it. -/
def readDocument (fuel : Nat) : List Token → Read (Node × List Token)
  | [] => .ok (empty, [])
  | .documentStart :: rest =>
    match rest with
    | [] => .ok (empty, rest)
    | .documentStart :: _ => .ok (empty, rest)
    | .documentEnd :: _ => .ok (empty, rest)
    | _ => read fuel false rest
  | tokens => read fuel false tokens

/-- The tree of the only document that the tokens hold. -/
def ofTokens (tokens : List Token) : Read Node := do
  let (node, rest) ← readDocument (4 * tokens.length + 8) tokens
  match rest.dropWhile (· == .documentEnd) with
  | [] => return node
  | rest => refused rest

end Node

end Cobol.Yaml
