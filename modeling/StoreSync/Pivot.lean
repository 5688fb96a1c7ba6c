import StoreSync.Entity.Basic

/-!
# Pivots

A pivot correlates a record of one store with its counterpart in the other.  It carries the
record's identifier and a bag of texts by which the counterpart is found.
-/

namespace StoreSync

/-- A pivot as a store lists it. -/
structure Pivot where
  id : String
  attributes : TextMap String
deriving DecidableEq

namespace Pivot

/-- The pivot without bag. -/
def ofId (id : String) : Pivot := ⟨id, ∅⟩

def withAttribute (p : Pivot) (name value : String) : Pivot :=
  { p with attributes := p.attributes.insert name value }

/-- The text under the first name, in ascending order, that agrees up to case. -/
def attribute? (p : Pivot) (name : String) : Option String :=
  (p.attributes.entries.find? fun e => Text.sameFolded e.1 name).map (·.2)

def toJson (p : Pivot) : Json :=
  .object [("id", .string p.id),
    ("attributes", .object (p.attributes.entries.map fun e => (e.1, .string e.2)))]

def ofJson? (j : Json) : Option Pivot := do
  let r ← Record.open? ["id", "attributes"] j
  return ⟨← r.required "id" Json.string?,
    ← r.defaulted "attributes" ∅ (DataTree.map? Json.string?)⟩

end Pivot

end StoreSync
