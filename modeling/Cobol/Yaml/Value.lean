import Cobol.Decimal.Binary64
import Cobol.Encoding.Utf8
import Cobol.Text.CodePoint

/-!
# Settings values

The values of a settings file. A mapping keeps its fields in the order in which their keys came
first. Keys are values themselves, and numbers, truth values included, are the same key if they are
equal as numbers: `1`, `1.0` and `true` are one key, and the first of them stays.
-/

namespace Cobol

/-- A value of a settings file. -/
inductive Yaml
  /-- Nothing. -/
  | null
  /-- A truth value. -/
  | bool (b : Bool)
  /-- An integer. -/
  | integer (n : Int)
  /-- A decimal number. -/
  | number (x : Binary64)
  /-- A text. -/
  | text (t : Text)
  /-- A text with surrogates in it. -/
  | surrogates (points : List CodePoint)
  /-- A date, or a date with a time of day. -/
  | moment (timed : Bool)
  /-- A list. -/
  | sequence (items : List Yaml)
  /-- Values under keys. -/
  | mapping (fields : List (Yaml × Yaml))
  deriving Inhabited

namespace Yaml

/-- Why a settings text has no value. -/
inductive ReadError
  /-- The text is not well formed. -/
  | malformed
  /-- A scalar has the form of a number or a date and denotes none. -/
  | noValue
  /-- A code point or a number is too great. -/
  | tooGreat
  /-- Lists and mappings are nested beyond the allowance. -/
  | nesting
  /-- The bytes of the text are malformed. -/
  | undecodable (part : Utf8.Malformed)
  deriving DecidableEq, Repr

/-- Readings that may fail. -/
abbrev Read (α : Type) := Except ReadError α

/-- The value counts as true: it is not nothing, false, zero or empty. -/
def isTruthy : Yaml → Bool
  | null => false
  | bool b => b
  | integer n => n != 0
  | number (.finite _ significand _) => significand != 0
  | number _ => true
  | text t => !t.isEmpty
  | surrogates _ => true
  | moment _ => true
  | sequence items => !items.isEmpty
  | mapping fields => !fields.isEmpty

/-- The name of the kind of a value in messages. -/
def kind : Yaml → String
  | null => "NoneType"
  | bool _ => "bool"
  | integer _ => "int"
  | number _ => "float"
  | text _ => "str"
  | surrogates _ => "str"
  | moment timed => if timed then "datetime.datetime" else "datetime.date"
  | sequence _ => "list"
  | mapping _ => "dict"

/-! ### Keys -/

/-- The number that a value is, as a fraction. -/
def fraction? : Yaml → Option (Int × Nat)
  | bool b => some (if b then 1 else 0, 1)
  | integer n => some (n, 1)
  | number (.finite minus significand exponent) =>
    let (num, den) := Binary64.fraction significand exponent
    some (if minus then -(num : Int) else num, den)
  | _ => none

/-- Two values are the same key. -/
def sameKey (a b : Yaml) : Bool :=
  match fraction? a, fraction? b with
  | some (m, d), some (n, e) => m * e == n * d
  | _, _ =>
    match a, b with
    | null, null => true
    | text s, text t => s == t
    | surrogates p, surrogates q => p == q
    | number x, number y => x == y
    | _, _ => false

/-- The value under a key. -/
def find? (key : Yaml) (fields : List (Yaml × Yaml)) : Option Yaml :=
  (fields.find? fun f ↦ f.1.sameKey key).map (·.2)

/-- The value under a name. -/
def field? (name : Text) (fields : List (Yaml × Yaml)) : Option Yaml :=
  find? (text name) fields

/-- Puts a value under a key, in the place of an earlier one. -/
def put (key value : Yaml) : List (Yaml × Yaml) → List (Yaml × Yaml)
  | [] => [(key, value)]
  | (k, old) :: rest => if k.sameKey key then (k, value) :: rest else (k, old) :: put key value rest

/-- Puts fields in order, each in the place of an earlier one. -/
def putAll (fields more : List (Yaml × Yaml)) : List (Yaml × Yaml) :=
  more.foldl (fun fields f ↦ put f.1 f.2 fields) fields

end Yaml

end Cobol
