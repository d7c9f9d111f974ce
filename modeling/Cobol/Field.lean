import Cobol.Fault

/-!
# Fields

A field has a width; a text is fitted to it by cutting it at the right or filling it with spaces.

Widths are written by programs and can be any numbers. A width beyond `countLimit` is not counted,
which is a fault; below the limit `fit` is the plain function `Text.fit`. How much memory a field
takes is not asked.
-/

namespace Cobol

namespace Text

/-- A text left-justified in a field of `width` characters: cut to the width, else padded with
spaces. -/
def fit (width : Nat) (t : Text) : Text :=
  t.take width ++ List.replicate (width - t.length) ' '

/-- `fit` for a signed width; a negative width drops that many characters from the end. -/
def fitWidth : Int → Text → Text
  | .ofNat n, t => fit n t
  | .negSucc n, t => t.take (t.length - (n + 1))

@[simp]
theorem length_fit (width : Nat) (t : Text) : (fit width t).length = width := by
  simp only [fit, List.length_append, List.length_take, List.length_replicate]
  omega

end Text

namespace Field

/-- The first number that is too great to be counted. -/
def countLimit : Nat := Nat.pow 2 63

/-- The number can be counted, in either direction. -/
def isCountable (n : Int) : Bool :=
  -(countLimit : Int) ≤ n && n < (countLimit : Int)

/-- A number of spaces; a negative number counts as none. -/
def spaces (n : Int) : Except Fault Text :=
  if !isCountable n then .error .uncountableSpaces
  else .ok (List.replicate n.toNat ' ')

/-- A text fitted to a width. -/
def fit (width : Int) (t : Text) : Except Fault Text :=
  if !isCountable width then .error .uncountableWidth
  else .ok (Text.fitWidth width t)

end Field

end Cobol
