import StoreSync.Entity.Value

/-!
# Lists of values as sets

The planner compares lists of values without regard to order and takes empty values for absent.
Equality is that of the canonical texts.
-/

namespace StoreSync.ValueSet

/-- Canonical texts of the values that count, in order. -/
def texts (vs : List AttributeValue) : List String :=
  (vs.filter (!·.isEmpty)).map AttributeValue.canonical

/-- The first occurrence of each canonical text that is not among those seen. -/
def distinct (seen : List String) : List AttributeValue → List AttributeValue
  | [] => []
  | v :: rest =>
    if seen.contains v.canonical then distinct seen rest
    else v :: distinct (v.canonical :: seen) rest

/-- Drop empty values, and later occurrences of equal ones. -/
def normalize (vs : List AttributeValue) : List AttributeValue :=
  distinct [] (vs.filter (!·.isEmpty))

/-- Whether two lists hold the same values equally often. -/
def same (a b : List AttributeValue) : Bool := (texts a).isPerm (texts b)

/-- The values of `candidates` that are not among `existing`. -/
def missing (candidates existing : List AttributeValue) : List AttributeValue :=
  normalize (candidates.filter fun v => !(texts existing).contains v.canonical)

end StoreSync.ValueSet
