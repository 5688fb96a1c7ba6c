/-!
# Integers of 64 bits

Reading a signed 64-bit integer: one optional sign, then ASCII digits.  The text is read from
left to right, and the first character that is no digit or the first digit that leaves the range
decides the error.  Magnitudes in other bases are read without a bound.
-/

namespace StoreSync.Text

/-- Why a text is no signed 64-bit integer. -/
inductive IntegerError where
  | empty
  | invalidDigit
  | tooLarge
  | tooSmall
deriving DecidableEq, Repr

def IntegerError.message : IntegerError → String
  | .empty => "cannot parse integer from empty string"
  | .invalidDigit => "invalid digit found in string"
  | .tooLarge => "number too large to fit in target type"
  | .tooSmall => "number too small to fit in target type"

/-- The value of an ASCII digit. -/
def digit? (c : Char) : Option Nat :=
  if '0' ≤ c ∧ c ≤ '9' then some (c.toNat - 48) else none

/-- Read digits after the value `acc`, up to `limit`. -/
def readDigits (limit : Nat) (overflow : IntegerError) :
    Nat → List Char → Except IntegerError Nat
  | acc, [] => .ok acc
  | acc, c :: rest =>
    match digit? c with
    | none => .error .invalidDigit
    | some d =>
      if 10 * acc + d ≤ limit then readDigits limit overflow (10 * acc + d) rest
      else .error overflow

/-- Read at least one digit. -/
def readMagnitude (limit : Nat) (overflow : IntegerError) :
    List Char → Except IntegerError Nat
  | [] => .error .invalidDigit
  | cs => readDigits limit overflow 0 cs

/-- Read a signed 64-bit integer from the whole text. -/
def parseInt64 (s : String) : Except IntegerError Int :=
  match s.toList with
  | [] => .error .empty
  | '+' :: rest => (readMagnitude 0x7fffffffffffffff .tooLarge rest).map Int.ofNat
  | '-' :: rest => (readMagnitude 0x8000000000000000 .tooSmall rest).map fun n => -(n : Int)
  | cs => (readMagnitude 0x7fffffffffffffff .tooLarge cs).map Int.ofNat

/-- Whether an integer fits into 64 signed bits. -/
def FitsInt64 (i : Int) : Prop := -0x8000000000000000 ≤ i ∧ i < 0x8000000000000000

instance (i : Int) : Decidable (FitsInt64 i) := inferInstanceAs (Decidable (_ ∧ _))

/-! ## Magnitudes -/

/-- The value of a hexadecimal digit. -/
def hexDigit? (c : Char) : Option Nat :=
  if '0' ≤ c ∧ c ≤ '9' then some (c.toNat - 48)
  else if 'a' ≤ c ∧ c ≤ 'f' then some (c.toNat - 87)
  else if 'A' ≤ c ∧ c ≤ 'F' then some (c.toNat - 55)
  else none

/-- The value of a digit in a base up to sixteen. -/
def digitIn? (base : Nat) (c : Char) : Option Nat := (hexDigit? c).filter (· < base)

/-- The value of at least one digit. -/
def magnitude? (base : Nat) : List Char → Option Nat
  | [] => none
  | cs => cs.foldlM (fun n c => (digitIn? base c).map (base * n + ·)) 0

/-- Read an unsigned 64-bit integer, with or without a plus sign, from the whole text. -/
def parseNat64? (s : String) : Option Nat :=
  (magnitude? 10 (match s.toList with
    | '+' :: rest => rest
    | cs => cs)).filter (· < 0x10000000000000000)

end StoreSync.Text
