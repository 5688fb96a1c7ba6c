/-!
# Instants and their texts

An instant counts nanoseconds from the beginning of 1970, also backwards.  Its generalized-time
text gives the calendar fields in universal time, down to the second, in fixed width; for the
years 0 to 9999 the order of the texts is the order of the seconds.  Reports carry the time of
day with its fraction instead.
-/

namespace StoreSync

/-- A point in time, in nanoseconds from 1970-01-01T00:00:00Z. -/
structure Instant where
  nanoseconds : Int
deriving DecidableEq, Repr

namespace Instant

instance : Inhabited Instant := ⟨⟨0⟩⟩

instance : LE Instant := ⟨fun a b => a.nanoseconds ≤ b.nanoseconds⟩

instance (a b : Instant) : Decidable (a ≤ b) :=
  inferInstanceAs (Decidable (a.nanoseconds ≤ b.nanoseconds))

instance : Max Instant := ⟨fun a b => if a ≤ b then b else a⟩

def ofMilliseconds (n : Int) : Instant := ⟨n * 1000000⟩

/-- Whole milliseconds, rounded down. -/
def milliseconds (t : Instant) : Int := t.nanoseconds / 1000000

/-- Whole seconds, rounded down. -/
def seconds (t : Instant) : Int := t.nanoseconds / 1000000000

def addMilliseconds (t : Instant) (n : Int) : Instant := ⟨t.nanoseconds + n * 1000000⟩

end Instant

/-! ## Calendar -/

/-- A day of the proleptic Gregorian calendar. -/
structure Day where
  year : Int
  month : Nat
  day : Nat
deriving DecidableEq, Repr

/-- The day that lies `n` days after 1970-01-01.  Years are counted from March, so that a leap
day ends its year, in eras of 400 years with 146097 days. -/
def Day.ofNumber (n : Int) : Day :=
  let z := n + 719468
  let era := z / 146097
  let dayOfEra := (z % 146097).toNat
  let yearOfEra :=
    (dayOfEra - dayOfEra / 1460 + dayOfEra / 36524 - dayOfEra / 146096) / 365
  let dayOfYear := dayOfEra - (365 * yearOfEra + yearOfEra / 4 - yearOfEra / 100)
  let marchMonth := (5 * dayOfYear + 2) / 153
  let day := dayOfYear - (153 * marchMonth + 2) / 5 + 1
  let month := if marchMonth < 10 then marchMonth + 3 else marchMonth - 9
  ⟨yearOfEra + era * 400 + (if month ≤ 2 then 1 else 0), month, day⟩

/-- A number in decimal, with zeros in front up to a width. -/
def padded (width n : Nat) : String :=
  let digits := Nat.repr n
  String.ofList (List.replicate (width - digits.length) '0') ++ digits

/-- A year in four digits; outside 0 to 9999 with a sign. -/
def yearText (y : Int) : String :=
  if 0 ≤ y ∧ y ≤ 9999 then padded 4 y.toNat
  else (if y < 0 then "-" else "+") ++ padded 4 y.natAbs

/-- Generalized time, such as `20240301120000Z`. -/
def Instant.generalizedTime (t : Instant) : String :=
  let d := Day.ofNumber (t.seconds / 86400)
  let s := (t.seconds % 86400).toNat
  yearText d.year ++ padded 2 d.month ++ padded 2 d.day ++
    padded 2 (s / 3600) ++ padded 2 (s / 60 % 60) ++ padded 2 (s % 60) ++ "Z"

/-- The digits of a fraction of a second, in groups of three, as many as it needs. -/
def fractionText (nanoseconds : Nat) : String :=
  if nanoseconds = 0 then ""
  else if nanoseconds % 1000000 = 0 then "." ++ padded 3 (nanoseconds / 1000000)
  else if nanoseconds % 1000 = 0 then "." ++ padded 6 (nanoseconds / 1000)
  else "." ++ padded 9 nanoseconds

/-- Date and time, such as `2024-03-01T12:00:00.250Z`. -/
def Instant.dateTime (t : Instant) : String :=
  let d := Day.ofNumber (t.seconds / 86400)
  let s := (t.seconds % 86400).toNat
  yearText d.year ++ "-" ++ padded 2 d.month ++ "-" ++ padded 2 d.day ++ "T" ++
    padded 2 (s / 3600) ++ ":" ++ padded 2 (s / 60 % 60) ++ ":" ++ padded 2 (s % 60) ++
    fractionText (t.nanoseconds % 1000000000).toNat ++ "Z"

end StoreSync
