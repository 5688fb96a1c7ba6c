import StoreSync.Decimal.Double

/-!
# The shortest decimal of a double

A finite double is one point of a grid, and every real number nearer to it than to its neighbours
reads back as it.  Among the decimals in that interval those with the fewest digits are wanted,
and of those the nearest.  For 1, 2, … 17 digits the two neighbours of the value on the decimal
grid are tried: if any point of a grid lies in the interval, so does one of the two.

The second half lays out digits as text: positional or with an exponent.
-/

namespace StoreSync.Decimal

/-- The number `digits · 10^exponent`; the last digit is not zero unless the number is. -/
structure Digits where
  digits : Nat
  exponent : Int
deriving DecidableEq, Repr

/-- A positive number with the interval that rounds to it, over one common denominator.  The
ends belong to the interval when `closed`. -/
structure RoundingInterval where
  low : Nat
  value : Nat
  high : Nat
  denominator : Nat
  closed : Bool

/-- The interval of a finite positive double.  Below a power of two the spacing halves. -/
def RoundingInterval.of (d : Double) : RoundingInterval :=
  let (m, q) := d.significand
  let below := if d.fraction = 0 ∧ 1 < d.biasedExponent then 1 else 2
  let scale := if 0 ≤ q then Nat.pow 2 q.toNat else 1
  ⟨(4 * m - below) * scale, 4 * m * scale, (4 * m + 2) * scale,
    4 * (if 0 ≤ q then 1 else Nat.pow 2 (-q).toNat), m % 2 = 0⟩

/-- The power of ten of the leading digit of a positive `num / den`. -/
def leadingPlace (num den : Nat) : Int :=
  if den ≤ num then (Nat.toDigits 10 (num / den)).length - 1
  else -(Nat.toDigits 10 ((den - 1) / num)).length

namespace RoundingInterval

/-- The point `d · 10^place`, over the interval's denominator and `10^(-place)`: the pair to
compare, first the point, then the factor for the interval's own numbers. -/
def atPlace (i : RoundingInterval) (place : Int) (d : Nat) : Nat × Nat :=
  if 0 ≤ place then (d * Nat.pow 10 place.toNat * i.denominator, 1)
  else (d * i.denominator, Nat.pow 10 (-place).toNat)

/-- Whether `d · 10^place` rounds to the interval's value. -/
def holds (i : RoundingInterval) (place : Int) (d : Nat) : Bool :=
  let (point, factor) := i.atPlace place d
  if i.closed then i.low * factor ≤ point && point ≤ i.high * factor
  else i.low * factor < point && point < i.high * factor

/-- The better of the two neighbours on the grid `10^place`: inside the interval and nearer,
the even one on a tie. -/
def neighbour? (i : RoundingInterval) (place : Int) : Option Nat :=
  let below :=
    if 0 ≤ place then i.value / (i.denominator * Nat.pow 10 place.toNat)
    else i.value * Nat.pow 10 (-place).toNat / i.denominator
  let above := below + 1
  match i.holds place below && 0 < below, i.holds place above with
  | false, false => none
  | true, false => some below
  | false, true => some above
  | true, true =>
    let (a, factor) := i.atPlace place below
    let (b, _) := i.atPlace place above
    let down := i.value * factor - a
    let up := b - i.value * factor
    if down < up then some below
    else if up < down then some above
    else if below % 2 = 0 then some below else some above

/-- Try grids of `n`, `n + 1`, … digits, `count` of them. -/
def search (i : RoundingInterval) (lead : Int) : Nat → Nat → Option Digits
  | _, 0 => none
  | n, count + 1 =>
    let place := lead - n + 1
    match i.neighbour? place with
    | some d => some ⟨d, place⟩
    | none => search i lead (n + 1) count

end RoundingInterval

/-- Move zeros at the end of the digits into the exponent. -/
def Digits.normalize (fuel : Nat) (x : Digits) : Digits :=
  match fuel with
  | 0 => x
  | fuel + 1 =>
    if x.digits ≠ 0 ∧ x.digits % 10 = 0 then Digits.normalize fuel ⟨x.digits / 10, x.exponent + 1⟩
    else x

/-- The shortest digits of a finite magnitude; the sign is not looked at. -/
def Double.shortest (d : Double) : Digits :=
  if d.isZero then ⟨0, 0⟩
  else
    let i := RoundingInterval.of d
    let lead := leadingPlace i.value i.denominator
    ((i.search lead 1 17).getD ⟨i.value / i.denominator, 0⟩).normalize 20

/-! ## Layout -/

/-- The digits as text. -/
def Digits.text (x : Digits) : String := Nat.repr x.digits

/-- Place of the point, counted from the first digit. -/
def Digits.point (x : Digits) : Int := x.text.length + x.exponent

def zeros (n : Nat) : String := String.ofList (List.replicate n '0')

/-- All digits written out, with `.0` behind a whole number when asked for. -/
def Digits.positional (x : Digits) (wholeSuffix : String) : String :=
  if 0 ≤ x.exponent then x.text ++ zeros x.exponent.toNat ++ wholeSuffix
  else if 0 < x.point then
    let cs := x.text.toList
    String.ofList (cs.take x.point.toNat) ++ "." ++ String.ofList (cs.drop x.point.toNat)
  else "0." ++ zeros (-x.point).toNat ++ x.text

/-- One digit before the point, and the power of ten behind an `e`. -/
def Digits.scientific (x : Digits) : String :=
  let exponent := "e" ++ toString (x.point - 1)
  match x.text.toList with
  | [] => exponent
  | [c] => String.ofList [c] ++ exponent
  | c :: rest => String.ofList (c :: '.' :: rest) ++ exponent

/-- Data files write numbers from `1e-5` up to below `1e16` with all digits, and always with a
fraction; beyond that an exponent is used. -/
def Double.dataText (d : Double) : String :=
  let x := d.shortest
  let body :=
    if d.isZero then "0.0"
    else if -5 < x.point ∧ x.point ≤ 16 then x.positional ".0"
    else x.scientific
  if d.isNegative then "-" ++ body else body

end StoreSync.Decimal
