import StoreSync.Decimal.Double
import StoreSync.Text.Integer

/-!
# Scalars of configuration files

A scalar is a text that was written plainly or in quotes.  Some plain texts are words for null, a
Boolean or a number.  A reader that knows which type it wants may take any scalar as a text; one
that does not takes a plain word for what it stands for, and only the rest as texts.
-/

namespace StoreSync.Yaml

/-- A scalar as it was written. -/
structure Scalar where
  text : String
  /-- Whether it was written without quotes. -/
  plain : Bool
deriving DecidableEq, Repr

namespace Scalar

/-- What stands where nothing was written. -/
def empty : Scalar := ⟨"", true⟩

/-! ## Words -/

def isNullWord (s : String) : Bool := s = "" || s = "~" || s = "null" || s = "Null" || s = "NULL"

def flagOfWord? (s : String) : Option Bool :=
  if s = "true" ∨ s = "True" ∨ s = "TRUE" then some true
  else if s = "false" ∨ s = "False" ∨ s = "FALSE" then some false
  else none

/-- A magnitude in base ten or, behind `0x`, `0o` and `0b`, in another base.  A zero is followed
by no other decimal digit. -/
def magnitude? : List Char → Option Nat
  | '0' :: 'x' :: rest => Text.magnitude? 16 rest
  | '0' :: 'o' :: rest => Text.magnitude? 8 rest
  | '0' :: 'b' :: rest => Text.magnitude? 2 rest
  | '0' :: _ :: _ => none
  | cs => Text.magnitude? 10 cs

/-- An integer from `-2^63` up to `2^64 - 1`. -/
def integerOfWord? (s : String) : Option Int :=
  match s.toList with
  | '-' :: rest => ((magnitude? rest).filter (· ≤ 0x8000000000000000)).map fun n => -(n : Int)
  | '+' :: rest => ((magnitude? rest).filter (· < 0x10000000000000000)).map Int.ofNat
  | cs => ((magnitude? cs).filter (· < 0x10000000000000000)).map Int.ofNat

def isDecimalDigit (c : Char) : Bool := (Text.digit? c).isSome

/-- The exponent of a decimal number, from its mark on. -/
def exponent? : List Char → Option Int
  | [] => some 0
  | mark :: rest =>
    if mark = 'e' ∨ mark = 'E' then
      match rest with
      | '-' :: ds => (Text.magnitude? 10 ds).map fun n => -(n : Int)
      | '+' :: ds => (Text.magnitude? 10 ds).map Int.ofNat
      | ds => (Text.magnitude? 10 ds).map Int.ofNat
    else none

/-- Whether a text without sign is a decimal number in the range of doubles. -/
def isDecimal (cs : List Char) : Bool :=
  let whole := cs.takeWhile isDecimalDigit
  let (places, rest) := match cs.dropWhile isDecimalDigit with
    | '.' :: rest => (rest.takeWhile isDecimalDigit, rest.dropWhile isDecimalDigit)
    | rest => ([], rest)
  match Text.magnitude? 10 (whole ++ places), exponent? rest with
  | some n, some e => (Decimal.Double.ofDecimal false n (e - places.length)).isFinite
  | _, _ => false

/-- Several digits of which the first is zero. -/
def isPaddedNumber (cs : List Char) : Bool :=
  match cs with
  | '0' :: rest => !rest.isEmpty && rest.all isDecimalDigit
  | _ => false

/-- Whether a word is a fraction, an infinity or no number at all. -/
def isFractionWord (s : String) : Bool :=
  match s.toList with
  | '-' :: rest => isInfinity rest || (isDecimal rest && !isPaddedNumber rest)
  | '+' :: rest => isInfinity rest || (isDecimal rest && !isPaddedNumber rest)
  | cs =>
    isInfinity cs || s = ".nan" || s = ".NaN" || s = ".NAN" ||
      (isDecimal cs && !isPaddedNumber cs)
where
  isInfinity (cs : List Char) : Bool :=
    cs = ".inf".toList || cs = ".Inf".toList || cs = ".INF".toList

/-! ## Scalars for what they stand for -/

def isNull (s : Scalar) : Bool := s.plain && isNullWord s.text

def flag? (s : Scalar) : Option Bool := if s.plain then flagOfWord? s.text else none

def integer? (s : Scalar) : Option Int := if s.plain then integerOfWord? s.text else none

/-- An integer that is not negative. -/
def natural? (s : Scalar) : Option Nat :=
  match s.integer? with
  | some (.ofNat n) => some n
  | _ => none

def isFraction (s : Scalar) : Bool := s.plain && isFractionWord s.text

/-- The text of a scalar that stands for itself. -/
def text? (s : Scalar) : Option String :=
  if s.isNull || s.flag?.isSome || s.integer?.isSome || s.isFraction then none else some s.text

end Scalar

end StoreSync.Yaml
