import StoreSync.Entity.Value
import StoreSync.Text.Case

/-!
# Attributes

An attribute is a display name and a list of values in insertion order.  Its operations never
let two values with the same canonical text stand in the list.
-/

namespace StoreSync

/-- A named list of values. -/
structure Attribute where
  name : String
  values : List AttributeValue
deriving DecidableEq, Repr

namespace Attribute

/-- Whether a value with the same canonical text is held. -/
def holds (a : Attribute) (v : AttributeValue) : Bool :=
  a.values.any fun w => w.canonical == v.canonical

/-- Add a value unless an equal one is held. -/
def add (a : Attribute) (v : AttributeValue) : Attribute :=
  if a.holds v then a else { a with values := a.values ++ [v] }

/-- Drop every value equal to `v`. -/
def remove (a : Attribute) (v : AttributeValue) : Attribute :=
  { a with values := a.values.filter fun w => w.canonical != v.canonical }

/-- Add values one after the other. -/
def addAll (a : Attribute) (vs : List AttributeValue) : Attribute := vs.foldl add a

/-- The attribute with the given values, later duplicates dropped. -/
def ofValues (name : String) (vs : List AttributeValue) : Attribute := addAll ⟨name, []⟩ vs

def hasName (a : Attribute) (name : String) : Bool := Text.sameFolded a.name name

/-- Canonical texts in insertion order. -/
def texts (a : Attribute) : List String := a.values.map AttributeValue.canonical

def first? (a : Attribute) : Option String := a.texts.head?

/-- Whether no value counts. -/
def isEmpty (a : Attribute) : Bool := a.values.all AttributeValue.isEmpty

/-! ## Data form -/

def toJson (a : Attribute) : Json :=
  .object [("name", .string a.name), ("values", .array (a.values.map AttributeValue.toJson))]

def ofJson? (j : Json) : Option Attribute := do
  let r ← Record.open? ["name", "values"] j
  return ⟨← r.required "name" Json.string?,
    ← r.required "values" (DataTree.list? AttributeValue.ofJson?)⟩

/-! ## Laws -/

@[simp] theorem add_name (a : Attribute) (v : AttributeValue) : (a.add v).name = a.name := by
  unfold add; split <;> rfl

@[simp] theorem remove_name (a : Attribute) (v : AttributeValue) : (a.remove v).name = a.name :=
  rfl

@[simp] theorem addAll_name (a : Attribute) (vs : List AttributeValue) :
    (a.addAll vs).name = a.name := by
  induction vs generalizing a with
  | nil => rfl
  | cons v rest ih => exact (ih (a.add v)).trans (add_name a v)

theorem holds_iff {a : Attribute} {v : AttributeValue} :
    a.holds v = true ↔ v.canonical ∈ a.texts := by
  simp [holds, texts]

theorem mem_texts_add {a : Attribute} {v : AttributeValue} {t : String} :
    t ∈ (a.add v).texts ↔ t = v.canonical ∨ t ∈ a.texts := by
  unfold add
  split
  next h => exact ⟨Or.inr, fun ht => ht.elim (fun e => e ▸ holds_iff.1 h) id⟩
  next => simp [texts, or_comm]

theorem mem_texts_remove {a : Attribute} {v : AttributeValue} {t : String} :
    t ∈ (a.remove v).texts ↔ t ≠ v.canonical ∧ t ∈ a.texts := by
  simp only [texts, remove, List.mem_map, List.mem_filter, bne_iff_ne]
  constructor
  · rintro ⟨w, ⟨hw, hne⟩, rfl⟩; exact ⟨hne, w, hw, rfl⟩
  · rintro ⟨hne, w, hw, rfl⟩; exact ⟨w, ⟨hw, hne⟩, rfl⟩

end Attribute

end StoreSync
