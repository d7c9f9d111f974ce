import Cobol.Encoding.Utf8

/-!
# Character sets

The character sets in which source files can be read, and the names by which they are known. Names
are compared by their ASCII letters, digits and points; anything between two of them counts as one
separator.

## Shape decisions

* Four character sets are defined here. Reading in one of them never fails: bytes that stand for no
  character become replacement characters.
* Whatever else a platform knows of is a parameter (`Further`): for a name that is none of the four
  it gives the text of the bytes, or refuses them.
-/

namespace Cobol

/-- The character sets of source files. -/
inductive Charset
  /-- UTF-8. -/
  | utf8
  /-- UTF-8, with a byte order mark at the start left out. -/
  | utf8Signed
  /-- Latin-1: every byte is a character. -/
  | latin1
  /-- ASCII. -/
  | ascii
  deriving DecidableEq, Repr

namespace Charset

/-- The usual name of a character set. -/
def name : Charset → Text
  | utf8 => "utf_8".toList
  | utf8Signed => "utf_8_sig".toList
  | latin1 => "latin_1".toList
  | ascii => "ascii".toList

/-- The other names of the character sets. -/
def otherNames : List (String × Charset) :=
  [("u8", utf8), ("utf", utf8), ("utf8", utf8), ("utf8_ucs2", utf8), ("utf8_ucs4", utf8),
   ("cp65001", utf8),
   ("8859", latin1), ("cp819", latin1), ("csisolatin1", latin1), ("ibm819", latin1),
   ("iso8859", latin1), ("iso8859_1", latin1), ("iso_8859_1", latin1), ("iso_8859_1_1987", latin1),
   ("iso_ir_100", latin1), ("l1", latin1), ("latin", latin1), ("latin1", latin1),
   ("646", ascii), ("ansi_x3.4_1968", ascii), ("ansi_x3_4_1968", ascii), ("ansi_x3.4_1986", ascii),
   ("cp367", ascii), ("csascii", ascii), ("ibm367", ascii), ("iso646_us", ascii),
   ("iso_646.irv_1991", ascii), ("iso_ir_6", ascii), ("us", ascii), ("us_ascii", ascii)]

/-- A name in small letters, with one underscore for everything between ASCII letters, digits and
points. `separated` says that such a thing has just been passed, `started` that something stands
before. -/
def normalName (started separated : Bool) : Text → Text
  | [] => []
  | c :: rest =>
    if c.isAlphanum || c == '.' then
      (if separated && started then ['_'] else []) ++ c.toLower :: normalName true false rest
    else normalName started true rest

/-- The name of the character set of the surroundings, which is UTF-8. It has no other spelling. -/
def localName : Text := "locale".toList

/-- The character set of which this is another name. -/
def ofOtherName? (n : Text) : Option Charset :=
  (otherNames.find? fun e ↦ e.1.toList == n).map (·.2)

/-- The character set of a name. A usual name is taken as it is; in another name a point may stand
for an underscore. -/
def ofName? (name : Text) : Option Charset :=
  let n := normalName false false name
  if name = localName then some utf8
  else
    ofOtherName? n <|> ofOtherName? (n.map fun c ↦ if c == '.' then '_' else c) <|>
      [utf8, utf8Signed, latin1, ascii].find? fun set ↦ set.name == n

/-- The bytes of the byte order mark. -/
def mark : List UInt8 := [0xEF, 0xBB, 0xBF]

/-- The text of bytes. With a byte order mark to be left out, so is the beginning of one that is all
there is. -/
def decode : Charset → List UInt8 → Text
  | utf8, bytes => Utf8.decodeReplacing bytes
  | utf8Signed, bytes =>
    if bytes.isPrefixOf mark then []
    else if mark.isPrefixOf bytes then Utf8.decodeReplacing (bytes.drop mark.length)
    else Utf8.decodeReplacing bytes
  | latin1, bytes => bytes.map fun b ↦ Char.ofNat b.toNat
  | ascii, bytes => bytes.map fun b ↦ if b.toNat < 128 then Char.ofNat b.toNat else Utf8.replacement

/-- Why a further character set gives no text. -/
inductive Refusal
  /-- The name is not that of a character set for texts, and the message says why. -/
  | unknown (message : Text)
  /-- The character set ends with an error of its own. -/
  | broken (message : Text)
  deriving DecidableEq, Repr

/-- The further character sets of a platform: what each makes of bytes, by its name. -/
abbrev Further := Text → List UInt8 → Except Refusal Text

/-- A platform without further character sets. -/
def noFurther : Further := fun name _ ↦
  .error (.unknown ("unknown encoding: ".toList ++ name))

/-- The text of bytes in the character set of a name. -/
def decodeNamed (further : Further) (name : Text) (bytes : List UInt8) : Except Refusal Text :=
  match ofName? name with
  | some charset => .ok (charset.decode bytes)
  | none => further name bytes

end Charset

end Cobol
