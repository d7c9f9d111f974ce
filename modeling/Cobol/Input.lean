import Cobol.Encoding.Stream
import Cobol.Fault

/-!
# Input

`ACCEPT` takes one line at a time from an input: a queue of lines, or a stream of text that is cut
at line feeds as it is read. A stream may break: behind the text that could be decoded stand bytes
that could not, and the read that reaches them fails.
-/

namespace Cobol

open Text

/-- Where `ACCEPT` reads from. -/
inductive Input
  /-- Lines that wait in order. -/
  | queue (lines : List Text)
  /-- A text not yet read, and the malformed bytes behind it, if any. -/
  | stream (unread : Text) (broken : Option Utf8.Malformed)
  /-- A source without a reader. -/
  | unsupported
  deriving DecidableEq, Repr

namespace Input

/-- Takes the next line, without its line end; `none` if there is none left. -/
def read : Input → Except Fault (Option Text × Input)
  | .queue [] => .ok (none, .queue [])
  | .queue (line :: rest) => .ok (some line, .queue rest)
  | .stream unread broken =>
    match firstLine? unread, broken with
    | some (line, rest), _ => .ok (some (dropLineEnd line), .stream rest broken)
    | none, some part => .error (.unreadable part)
    | none, none =>
      if unread.isEmpty then .ok (none, .stream [] none)
      else .ok (some (dropLineEnd unread), .stream [] none)
  | .unsupported => .error .noReader

/-- The input that a caller's lines or stream give; the lines come first. -/
def choose? (lines : Option (List Text)) (stream : Option Text) : Option Input :=
  match lines, stream with
  | some ls, _ => some (.queue ls)
  | none, some t => some (.stream t none)
  | none, none => none

/-- Decoded bytes as a stream. The bytes are decoded in blocks ahead of the lines, so malformed
bytes are met by the first read that needs their block. -/
def ofBytes (bytes : List UInt8) : Input :=
  let (t, part) := Utf8.decodeBlocks bytes
  .stream t part

end Input

end Cobol
