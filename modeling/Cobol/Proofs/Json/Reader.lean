import Cobol.Json.Document
import Cobol.Proofs.Text.Blank

/-!
# Reading documents

A reader of the whole format, which knows nothing of how documents are written: any white space
between the parts, every escape with its pairs of surrogates, numbers with places and exponents. It
is what the written documents are measured by.

The text is first cut into tokens, and the tokens are then taken one after another. What has been
read so far of the arrays and objects that are still open is kept as a stack of frames, so that one
step looks at one token only (`Awaited.step`).

## Shape decisions

* A token is a mark, a quoted text, or a maximal run of other characters (a *word*). Whether a word
  means something is decided when a value is awaited: `null`, a truth value or a number.
* An escape stands for a unit of 16 bits. The units of a text are put together to characters at the
  end, so a pair of surrogates may be written as two escapes; a half without its other half is no
  character, and the text is refused.
* The last field of a repeated name counts.
-/

namespace Cobol.Json

open Text

/-! ### Tokens -/

/-- The parts of a text between white space. -/
inductive Token
  /-- `[` -/
  | openArray
  /-- `]` -/
  | closeArray
  /-- The brace that opens an object. -/
  | openObject
  /-- The brace that closes an object. -/
  | closeObject
  /-- `,` -/
  | comma
  /-- `:` -/
  | colon
  /-- A quoted text. -/
  | text (t : Text)
  /-- A run of other characters. -/
  | word (w : Text)
  deriving DecidableEq, Repr

/-- White space. -/
def isSpace (c : Char) : Bool :=
  c == ' ' || c == '\n' || c == '\r' || c == '\t'

/-- The tokens of one character. -/
def marks : List (Char × Token) :=
  [('[', .openArray), (']', .closeArray), ('\x7b', .openObject), ('\x7d', .closeObject),
   (',', .comma), (':', .colon)]

/-- The characters of words. -/
def isWordChar (c : Char) : Bool :=
  !isSpace c && c != '"' && (marks.lookup c).isNone

/-! ### Quoted texts -/

/-- The value of a hexadecimal digit. -/
def hexValue? (c : Char) : Option Nat :=
  if '0' ≤ c ∧ c ≤ '9' then some (c.toNat - 48)
  else if 'a' ≤ c ∧ c ≤ 'f' then some (c.toNat - 87)
  else if 'A' ≤ c ∧ c ≤ 'F' then some (c.toNat - 55)
  else none

/-- The number of hexadecimal digits. -/
def hexNumber? (digits : Text) : Option Nat :=
  digits.foldlM (fun n c ↦ (hexValue? c).map (16 * n + ·)) 0

/-- The character for which an escape of one character stands. -/
def unescape? (c : Char) : Option Char :=
  if c == '"' || c == '\\' || c == '/' then some c
  else if c == 'n' then some '\n'
  else if c == 'r' then some '\r'
  else if c == 't' then some '\t'
  else if c == 'b' then some '\x08'
  else if c == 'f' then some '\x0c'
  else none

/-- The unit of a character that stands for itself. -/
def plainUnit? (c : Char) : Option Nat :=
  if 32 ≤ c.toNat then some c.toNat else none

/-- Puts a unit in front of the units that have been read. -/
def pushUnit (unit? : Option Nat) (read? : Option (List Nat × Text)) : Option (List Nat × Text) :=
  unit?.bind fun unit ↦ read?.map fun r ↦ (unit :: r.1, r.2)

/-- The units of a text up to its closing quote, and what stands behind it. -/
def readUnits : Text → Option (List Nat × Text)
  | [] => none
  | '"' :: rest => some ([], rest)
  | '\\' :: 'u' :: a :: b :: c :: d :: rest => pushUnit (hexNumber? [a, b, c, d]) (readUnits rest)
  | '\\' :: c :: rest => pushUnit ((unescape? c).map Char.toNat) (readUnits rest)
  | c :: rest => pushUnit (plainUnit? c) (readUnits rest)

/-- The text that units make. -/
def ofUnits? : List Nat → Option Text
  | [] => some []
  | unit :: rest =>
    if unit.isValidChar then (ofUnits? rest).map (Char.ofNat unit :: ·)
    else
      match rest with
      | low :: rest =>
        if unit < 0xDC00 ∧ 0xDC00 ≤ low ∧ low < 0xE000 then
          (ofUnits? rest).map
            (Char.ofNat (0x10000 + 0x400 * (unit - 0xD800) + (low - 0xDC00)) :: ·)
        else none
      | [] => none

/-- The text up to the closing quote, and what stands behind it. -/
def readText (t : Text) : Option (Text × Text) :=
  (readUnits t).bind fun r ↦ (ofUnits? r.1).map fun text ↦ (text, r.2)

/-- A unit in front of others does not change what is left behind them. -/
theorem exists_of_pushUnit {unit? : Option Nat} {read? : Option (List Nat × Text)}
    {units : List Nat} {behind : Text} (h : pushUnit unit? read? = some (units, behind)) :
    ∃ units', read? = some (units', behind) := by
  obtain ⟨unit, -, hmap⟩ := Option.bind_eq_some_iff.1 h
  obtain ⟨⟨units', _⟩, hread, heq⟩ := Option.map_eq_some_iff.1 hmap
  cases heq
  exact ⟨units', hread⟩

/-- Reading quoted units takes at least the quote that ends them. -/
theorem length_lt_of_readUnits {t behind : Text} {units : List Nat}
    (h : readUnits t = some (units, behind)) : behind.length < t.length := by
  fun_induction readUnits t generalizing units with
  | case1 => cases h
  | case2 rest =>
    obtain ⟨-, rfl⟩ := Prod.mk.inj (Option.some.inj h)
    exact Nat.lt_succ_self _
  | case3 a b c d rest ih =>
    obtain ⟨_, hrest⟩ := exists_of_pushUnit h
    have := ih hrest
    simp only [List.length_cons]
    omega
  | case4 c rest _ ih =>
    obtain ⟨_, hrest⟩ := exists_of_pushUnit h
    have := ih hrest
    simp only [List.length_cons]
    omega
  | case5 c rest _ _ _ ih =>
    obtain ⟨_, hrest⟩ := exists_of_pushUnit h
    have := ih hrest
    simp only [List.length_cons]
    omega

/-- Reading a quoted text takes at least the quote that ends it. -/
theorem length_lt_of_readText {t text behind : Text} (h : readText t = some (text, behind)) :
    behind.length < t.length := by
  obtain ⟨⟨units, behind'⟩, hread, h⟩ := Option.bind_eq_some_iff.1 h
  obtain ⟨text', -, heq⟩ := Option.map_eq_some_iff.1 h
  obtain ⟨-, rfl⟩ := Prod.mk.inj heq
  exact length_lt_of_readUnits hread

/-! ### Cutting -/

/-- The tokens of a text. -/
def tokens? : Text → Option (List Token)
  | [] => some []
  | c :: rest =>
    if isSpace c then tokens? rest
    else if c == '"' then
      match _h : readText rest with
      | some (t, behind) => (tokens? behind).map (.text t :: ·)
      | none => none
    else
      match marks.lookup c with
      | some mark => (tokens? rest).map (mark :: ·)
      | none =>
        (tokens? (rest.dropWhile isWordChar)).map (.word (c :: rest.takeWhile isWordChar) :: ·)
termination_by t => t.length
decreasing_by
  · exact Nat.lt_succ_self _
  · exact Nat.lt_succ_of_lt (length_lt_of_readText ‹_›)
  · exact Nat.lt_succ_self _
  · exact Nat.lt_succ_of_le (length_dropWhile_le isWordChar rest)

/-- White space in front is passed over. -/
theorem tokens?_space {c : Char} (h : isSpace c = true) (t : Text) :
    tokens? (c :: t) = tokens? t := by
  rw [tokens?, if_pos h]

/-- Any amount of white space in front is passed over. -/
theorem tokens?_spaces {blanks : Text} (h : ∀ c ∈ blanks, isSpace c = true) (t : Text) :
    tokens? (blanks ++ t) = tokens? t := by
  induction blanks with
  | nil => rfl
  | cons c blanks ih =>
    obtain ⟨hc, hblanks⟩ := List.forall_mem_cons.1 h
    rw [List.cons_append, tokens?_space hc, ih hblanks]

/-- What a scanner has to know of the marks. -/
theorem marks_apart : ∀ m ∈ marks, isSpace m.1 = false ∧ (m.1 == '"') = false ∧
    marks.lookup m.1 = some m.2 ∧ isWordChar m.1 = false ∧ 32 ≤ m.1.toNat := by
  decide

/-- A mark is a token of its own. -/
theorem tokens?_mark {c : Char} {mark : Token} (h : (c, mark) ∈ marks) (t : Text) :
    tokens? (c :: t) = (tokens? t).map (mark :: ·) := by
  obtain ⟨hspace, hquote, hmark, -⟩ := marks_apart _ h
  rw [tokens?, if_neg (by simp [hspace]), if_neg (by simp [hquote]), hmark]

/-- A quoted text is a token, and cutting goes on behind its quote. -/
theorem tokens?_text {t text behind : Text} (h : readText t = some (text, behind)) :
    tokens? ('"' :: t) = (tokens? behind).map (.text text :: ·) := by
  rw [tokens?, if_neg (by decide), if_pos (by decide), h]

/-- A text that does not go on with a word. -/
def Apart (t : Text) : Prop :=
  ∀ c ∈ t.head?, isWordChar c = false

/-- **A word is one token**, if something other than a word stands behind it. -/
theorem tokens?_word {w t : Text} (hne : w ≠ []) (hw : ∀ c ∈ w, isWordChar c = true)
    (ht : Apart t) : tokens? (w ++ t) = (tokens? t).map (.word w :: ·) := by
  cases w with
  | nil => exact absurd rfl hne
  | cons c w =>
    obtain ⟨hc, hw⟩ := List.forall_mem_cons.1 hw
    obtain ⟨⟨hspace, hquote⟩, hmark⟩ : (isSpace c = false ∧ c ≠ '"') ∧ marks.lookup c = none := by
      simpa [isWordChar] using hc
    obtain ⟨htake, hdrop⟩ := takeWhile_append_of_stop hw ht
    rw [List.cons_append, tokens?, if_neg (by simp [hspace]), if_neg (by simp [hquote]), hmark]
    dsimp only
    rw [htake, hdrop]

/-! ### Words -/

/-- A number without fraction: its digits do not start with a zero, unless it is zero. -/
def isWhole (digits : Text) : Bool :=
  match digits with
  | [] => false
  | [_] => true
  | d :: _ => d != '0'

/-- The number of a sign and a word without sign. -/
def unsigned? (minus : Bool) (w : Text) : Option Document :=
  let (whole, rest) := Binary64.takeDigits w
  let binary (places : Text) (e : Int) : Document :=
    .number (Binary64.ofDecimal minus (Numeral.ofDigits (whole ++ places)) (e - places.length))
  if w.any (128 ≤ ·.toNat) || !isWhole whole then none
  else
    match rest with
    | [] =>
      some (.integer (if minus then -(Numeral.ofDigits whole : Int) else Numeral.ofDigits whole))
    | '.' :: rest =>
      match Binary64.takeDigits rest with
      | ([], _) => none
      | (places, rest) => (Binary64.exponentOf? rest).map (binary places)
    | rest => (Binary64.exponentOf? rest).map (binary [])

/-- The number that a word denotes. -/
def number? : Text → Option Document
  | '-' :: w => unsigned? true w
  | w => unsigned? false w

/-- The document that a word denotes. -/
def wordValue? (w : Text) : Option Document :=
  if w = "null".toList then some .null
  else if w = "true".toList then some (.bool true)
  else if w = "false".toList then some (.bool false)
  else number? w

/-! ### The machine -/

/-- An array or object that is still open, with what has been read of it. -/
inductive Frame
  /-- An array with its items so far. -/
  | array (items : List Document)
  /-- An object with its fields so far, and the name whose value is to come. -/
  | object (fields : List (Text × Document)) (name : Text)

/-- What is awaited, inside open frames. -/
inductive Awaited
  /-- A value. -/
  | value (frames : List Frame)
  /-- The first item of an array, or its end. -/
  | firstItem (frames : List Frame)
  /-- A comma behind the items of an array, or its end. -/
  | moreItems (items : List Document) (frames : List Frame)
  /-- The first name of an object, or its end. -/
  | firstName (frames : List Frame)
  /-- A name behind the fields of an object. -/
  | nextName (fields : List (Text × Document)) (frames : List Frame)
  /-- The colon behind a name. -/
  | colon (fields : List (Text × Document)) (name : Text) (frames : List Frame)
  /-- A comma behind the fields of an object, or its end. -/
  | moreFields (fields : List (Text × Document)) (frames : List Frame)
  /-- Nothing: the document has been read. -/
  | nothing (d : Document)

namespace Awaited

/-- What is awaited when a value has been read. -/
def after (d : Document) : List Frame → Awaited
  | [] => nothing d
  | .array items :: frames => moreItems (items ++ [d]) frames
  | .object fields name :: frames => moreFields (fields ++ [(name, d)]) frames

/-- Starts a value with a token. -/
def start? (frames : List Frame) : Token → Option Awaited
  | .openArray => some (firstItem frames)
  | .openObject => some (firstName frames)
  | .text t => some (after (.text t) frames)
  | .word w => (wordValue? w).map (after · frames)
  | _ => none

/-- Takes one token. -/
def step : Awaited → Token → Option Awaited
  | value frames, token => start? frames token
  | firstItem frames, .closeArray => some (after (.array []) frames)
  | firstItem frames, token => start? (.array [] :: frames) token
  | moreItems items frames, .comma => some (value (.array items :: frames))
  | moreItems items frames, .closeArray => some (after (.array items) frames)
  | firstName frames, .closeObject => some (after (.object []) frames)
  | firstName frames, .text n => some (colon [] n frames)
  | nextName fields frames, .text n => some (colon fields n frames)
  | colon fields n frames, .colon => some (value (.object fields n :: frames))
  | moreFields fields frames, .comma => some (nextName fields frames)
  | moreFields fields frames, .closeObject => some (after (.ofFields fields) frames)
  | _, _ => none

/-- Takes tokens one after another. -/
def run (s : Awaited) (tokens : List Token) : Option Awaited :=
  tokens.foldlM step s

/-- The document that has been read, if nothing is awaited any more. -/
def document? : Awaited → Option Document
  | nothing d => some d
  | _ => none

end Awaited

/-- The document that a text denotes. -/
def read (t : Text) : Option Document := do
  let tokens ← tokens? t
  let reached ← Awaited.run (.value []) tokens
  reached.document?

end Cobol.Json
