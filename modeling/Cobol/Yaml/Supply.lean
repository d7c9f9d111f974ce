import Cobol.Encoding.Stream
import Cobol.Yaml.Value

/-!
# The supply of a settings text

A settings file is taken in portions of characters. What is wrong with a portion, bytes that are no
text or a character that is not allowed, is found when it is taken; a fault in the text in front of
it comes first.

The first two portions are taken at once, before anything is read.
-/

namespace Cobol.Yaml

/-- The characters that may stand in a settings file. -/
def isAllowed (c : Char) : Bool :=
  c == '\t' || c == '\n' || c == '\r' || c == '\u0085' ||
    Text.inRanges [(0x20, 0x7E), (0xA0, 0xD7FF), (0xE000, 0xFFFD), (0x10000, 0x10FFFF)] c

/-- A text to be read, and the error behind it, if it is not the whole. -/
structure Supply where
  /-- The text. -/
  text : Text
  /-- The error of the portion behind the text. -/
  beyond : Option ReadError := none

namespace Supply

/-- The number of characters of a portion. -/
def portion : Nat := 4096

/-- The number of characters that are taken at once at the start. -/
def start : Nat := 2 * portion

/-- The number of characters in the whole portions in front of an index. -/
def inFront (index : Nat) : Nat :=
  index / portion * portion

/-- The supply of a text with the error behind it, up to the portion with a character that is not
allowed. -/
def ofText (t : Text) (beyond : Option ReadError) : Read Supply :=
  match t.findIdx? fun c ↦ !isAllowed c with
  | none => .ok ⟨t, beyond⟩
  | some i => if i < start then .error .malformed else .ok ⟨t.take (inFront i), some .malformed⟩

/-- The supply that bytes make. -/
def ofBytes (bytes : List UInt8) : Read Supply :=
  match Utf8.decodeBlocks bytes with
  | (t, none) => ofText t none
  | (t, some part) =>
    if t.length < start then .error (.undecodable part)
    else ofText (t.take (inFront t.length)) (some (.undecodable part))

end Supply

end Cobol.Yaml
