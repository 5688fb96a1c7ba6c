/-!
# Binary fractions of double precision

Numbers `m · 2^q` with at most 53 bits in `m`, kept as their 64-bit pattern so that equality is
decidable and every operation is exact arithmetic on natural numbers followed by one rounding to
the nearest representable number, ties to the even one.
-/

namespace StoreSync.Decimal

/-- A double-precision number, by its bit pattern. -/
structure Double where
  bits : UInt64
deriving DecidableEq, Inhabited, Repr

namespace Double

/-- The low 52 bits of the pattern. -/
def fraction (d : Double) : Nat := d.bits.toNat % 0x10000000000000

/-- The 11 bits above them. -/
def biasedExponent (d : Double) : Nat := d.bits.toNat / 0x10000000000000 % 2048

/-- Whether the sign bit is set. -/
def isNegative (d : Double) : Bool := 0x8000000000000000 ≤ d.bits.toNat

/-- Neither infinite nor without a value. -/
def isFinite (d : Double) : Bool := d.biasedExponent ≠ 2047

/-- The magnitude `m · 2^q` of a finite number, as `(m, q)`. -/
def significand (d : Double) : Nat × Int :=
  if d.biasedExponent = 0 then (d.fraction, -1074)
  else (0x10000000000000 + d.fraction, (d.biasedExponent : Int) - 1075)

def isZero (d : Double) : Bool := d.fraction = 0 && d.biasedExponent = 0

/-- The number of the other sign. -/
def neg (d : Double) : Double :=
  ⟨d.bits ^^^ 0x8000000000000000⟩

/-! ## Rounding -/

/-- The quotient rounded to the nearest natural number, ties to the even one. -/
def roundDiv (num den : Nat) : Nat :=
  let q := num / den
  let r := num % den
  if 2 * r < den then q
  else if den < 2 * r then q + 1
  else if q % 2 = 0 then q else q + 1

/-- The largest `e` with `2^e ≤ num / den`, for positive numbers. -/
def floorLog2 (num den : Nat) : Int :=
  let guess : Int := (Nat.log2 num : Int) - Nat.log2 den
  let atLeast : Bool :=
    if 0 ≤ guess then den * Nat.pow 2 guess.toNat ≤ num else den ≤ num * Nat.pow 2 (-guess).toNat
  if atLeast then guess else guess - 1

/-- The double nearest to `num / den`; infinite beyond the range. -/
def ofRatio (num den : Nat) : Double :=
  if num = 0 then ⟨0⟩
  else
    let e := max (floorLog2 num den - 52) (-1074)
    let q :=
      if 0 ≤ e then roundDiv num (den * Nat.pow 2 e.toNat)
      else roundDiv (num * Nat.pow 2 (-e).toNat) den
    -- The leading bit of `q`, and a carry out of 53 bits, move into the exponent field.
    let pattern := (e + 1074).toNat * 0x10000000000000 + q
    ⟨UInt64.ofNat (min pattern (2047 * 0x10000000000000))⟩

/-- The magnitude of a finite number as a ratio. -/
def ratio (d : Double) : Nat × Nat :=
  let (m, q) := d.significand
  if 0 ≤ q then (m * Nat.pow 2 q.toNat, 1) else (m, Nat.pow 2 (-q).toNat)

/-- Product of two magnitudes, rounded. -/
def mulMagnitude (a b : Double) : Double :=
  let (n, d) := a.ratio
  let (n', d') := b.ratio
  ofRatio (n * n') (d * d')

/-- Quotient of two magnitudes, rounded. -/
def divMagnitude (a b : Double) : Double :=
  let (n, d) := a.ratio
  let (n', d') := b.ratio
  ofRatio (n * d') (d * n')

/-- The double nearest to a power of ten. -/
def powerOfTen (k : Nat) : Double := ofRatio (Nat.pow 10 k) 1

/-- Give a magnitude a sign. -/
def withSign (negative : Bool) (d : Double) : Double := if negative then d.neg else d

/-- Scale a magnitude by a power of ten in rounded steps of at most 308 places.  A magnitude
beyond the range gives none, one below the range gives zero.  `steps` bounds the number of
steps; three reach from the largest 64-bit integer below the smallest double. -/
def scaleTen? : Nat → Double → Int → Option Double
  | 0, _, _ => some ⟨0⟩
  | steps + 1, d, exponent =>
    if exponent.natAbs ≤ 308 then
      let scaled :=
        if 0 ≤ exponent then mulMagnitude d (powerOfTen exponent.toNat)
        else divMagnitude d (powerOfTen (-exponent).toNat)
      if scaled.isFinite then some scaled else none
    else if d.isZero then some d
    else if 0 ≤ exponent then none
    else scaleTen? steps (divMagnitude d (powerOfTen 308)) (exponent + 308)

/-- The double for an integer significand and a decimal exponent, each step rounded. -/
def ofScaled? (negative : Bool) (significand : Nat) (exponent : Int) : Option Double :=
  (scaleTen? 8 (ofRatio significand 1) exponent).map (withSign negative)

/-- The double nearest to `digits · 10^exponent`, rounded once. -/
def ofDecimal (negative : Bool) (digits : Nat) (exponent : Int) : Double :=
  let places : Int := (Nat.toDigits 10 digits).length + exponent
  let magnitude :=
    if digits = 0 ∨ places < -330 then ofRatio 0 1
    else if 310 < places then ofRatio (Nat.pow 2 1025) 1
    else if 0 ≤ exponent then ofRatio (digits * Nat.pow 10 exponent.toNat) 1
    else ofRatio digits (Nat.pow 10 (-exponent).toNat)
  withSign negative magnitude

end Double

end StoreSync.Decimal
