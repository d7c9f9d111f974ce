/-!
# Text

A text is a list of Unicode code points. Every count, cut and comparison of the library is made in
code points, so a list of characters is the whole model and the list lemmas apply to it directly.

## Shape decisions

* Blank characters are one predicate, `isBlank`: trimming, splitting into words and finding the end
  of a sentence all use it, so that they agree on what separates.
* `words` is the list library's `splitOnP` with the empty pieces dropped; `afterWord` is what stands
  behind the first word. Together they are all the tokenising the statement forms need.
-/

namespace Cobol

/-- A text is a list of code points. -/
abbrev Text := List Char

namespace Text

/-! ### Character classes as ranges -/

/-- The code point of `c` lies in one of the closed ranges of `table`. -/
def inRanges (table : List (Nat × Nat)) (c : Char) : Bool :=
  table.any fun r ↦ r.1 ≤ c.toNat && c.toNat ≤ r.2

/-! ### Blanks -/

/-- The white space outside ASCII, with the four information separators. -/
def wideBlanks : List (Nat × Nat) :=
  [(0x1C, 0x1F), (0x85, 0x85), (0xA0, 0xA0), (0x1680, 0x1680), (0x2000, 0x200A), (0x2028, 0x2029),
   (0x202F, 0x202F), (0x205F, 0x205F), (0x3000, 0x3000)]

/-- Blank characters: tab to carriage return, space, and `wideBlanks`. -/
def isBlank (c : Char) : Bool :=
  c == ' ' || (9 ≤ c.toNat && c.toNat ≤ 13) || inRanges wideBlanks c

/-- A text without its leading blanks. -/
def trimLeft (t : Text) : Text :=
  t.dropWhile isBlank

/-- A text without its trailing blanks. -/
def trimRight (t : Text) : Text :=
  (t.reverse.dropWhile isBlank).reverse

/-- A text without its leading and trailing blanks. -/
def trim (t : Text) : Text :=
  trimLeft (trimRight t)

/-- The maximal blank-free pieces of a text, in order. -/
def words (t : Text) : List Text :=
  (t.splitOnP isBlank).filter fun w ↦ !w.isEmpty

/-- What stands behind the first word, trimmed; empty if there is at most one word. -/
def afterWord (t : Text) : Text :=
  trim ((trimLeft t).dropWhile fun c ↦ !isBlank c)

/-! ### Quoted literals -/

/-- The two characters that open and close a literal. -/
def isQuote (c : Char) : Bool :=
  c == '\'' || c == '"'

/-- A text of at least two characters that starts and ends with the same quote. -/
def isQuoted (t : Text) : Bool :=
  match t with
  | q :: c :: rest => isQuote q && (c :: rest).getLast? == some q
  | _ => false

/-- A text without its first and last character. -/
def unquote (t : Text) : Text :=
  t.tail.dropLast

/-! ### Searching -/

/-- The text behind `lead`, if it starts with `lead`. -/
def dropLead? (lead t : Text) : Option Text :=
  if lead.isPrefixOf t then some (t.drop lead.length) else none

/-- The index of the last occurrence of `pattern`. -/
def lastIndexOf? (pattern : Text) : Text → Option Nat
  | [] => if pattern.isEmpty then some 0 else none
  | c :: rest =>
    match lastIndexOf? pattern rest with
    | some i => some (i + 1)
    | none => if pattern.isPrefixOf (c :: rest) then some 0 else none

/-- The texts before and behind the first occurrence of the character `mark`. -/
def cutAt? (mark : Char) (t : Text) : Option (Text × Text) :=
  match t.dropWhile (· != mark) with
  | [] => none
  | _ :: rest => some (t.takeWhile (· != mark), rest)

/-! ### Lengths -/

theorem length_dropWhile_le (p : Char → Bool) (t : Text) : (t.dropWhile p).length ≤ t.length :=
  (List.dropWhile_suffix p).length_le

theorem length_lt_of_trimLeft {t rest : Text} {c : Char} (h : trimLeft t = c :: rest) :
    rest.length < t.length := by
  have := length_dropWhile_le isBlank t
  rw [show t.dropWhile isBlank = c :: rest from h, List.length_cons] at this
  omega

theorem isBlank_of_trimLeft {t rest : Text} {c : Char} (h : trimLeft t = c :: rest) :
    isBlank c = false := by
  have hne : t.dropWhile isBlank ≠ [] := by rw [show t.dropWhile isBlank = c :: rest from h]; simp
  have := List.head_dropWhile_not isBlank hne
  simpa [show t.dropWhile isBlank = c :: rest from h] using this

theorem length_lt_of_cutAt? {mark : Char} {t before after : Text}
    (h : cutAt? mark t = some (before, after)) : after.length < t.length := by
  have hle := length_dropWhile_le (· != mark) t
  unfold cutAt? at h
  split at h
  · cases h
  · rename_i heq
    obtain ⟨-, rfl⟩ := Prod.mk.inj (Option.some.inj h)
    rw [heq, List.length_cons] at hle
    omega

end Text

end Cobol
