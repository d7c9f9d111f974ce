import Cobol.Encoding.Utf8
import Cobol.Text.Line

/-!
# Streams of bytes

A file that is read while it is used is decoded in blocks of bytes. Malformed bytes are found with
the block in which they show, and until then the text in front of that block can be used.

## Shape decisions

* An unfinished character at the end of a block is carried over to the next one, and so is a
  carriage return, because a line feed may follow. Neither belongs to the text that can be used.
* A malformed part is placed by its index in what is decoded at once: the bytes carried over and the
  block. Bytes that end inside a character are found behind the last block, with nothing else to
  decode.
-/

namespace Cobol.Utf8

open Text

/-- The number of bytes of a block. -/
def blockSize : Nat := 8192

/-- The index of the byte at which a malformed part shows; `none` if it is the end that shows it. -/
def Malformed.shownAt? (m : Malformed) : Option Nat :=
  match m.what with
  | .start => some m.position
  | .continuation => some (m.position + m.width)
  | .ending => none

/-- The text that can be used when more is to come. -/
def usable (t : Text) : Text :=
  unifyNewlines (if t.getLast? == some '\r' then t.dropLast else t)

/-- The text in front of the block in which bytes are found malformed, with unified line ends, and
the malformed part as it is found there; the whole text if there is none. -/
def decodeBlocks (bytes : List UInt8) : Text × Option Malformed :=
  match decode bytes with
  | (t, none) => (unifyNewlines t, none)
  | (t, some part) =>
    match part.shownAt? with
    | none => (usable t, some { part with position := 0 })
    | some shown =>
      let start := shown / blockSize * blockSize
      match decode (bytes.take start) with
      | (t, none) => (usable t, some { part with position := part.position - start })
      | (t, some carried) =>
        (usable t, some { part with position := part.position - carried.position })

end Cobol.Utf8
