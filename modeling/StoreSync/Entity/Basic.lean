import StoreSync.Entity.Attribute

/-!
# Entities

An entity is one record of one store: an identifier, if the store has one, a pending new
identifier, and attributes keyed by the folded form of their name.  The key decides which names
address the same attribute; the display name keeps the casing it was last set with.
-/

namespace StoreSync

/-- One record of one store. -/
structure Entity where
  identifier : Option String
  newIdentifier : Option String
  attributes : TextMap Attribute
deriving DecidableEq

namespace Entity

/-- The record without identifier and attributes. -/
def anonymous : Entity := ⟨none, none, ∅⟩

/-- The record with an identifier and no attributes. -/
def named (identifier : String) : Entity := ⟨some identifier, none, ∅⟩

instance : Inhabited Entity := ⟨anonymous⟩

/-- The attribute that a name addresses. -/
def attribute? (e : Entity) (name : String) : Option Attribute :=
  e.attributes.get? (Text.fold name)

/-- Insert an attribute under its own name, over the one that stood there. -/
def set (e : Entity) (a : Attribute) : Entity :=
  { e with attributes := e.attributes.insert (Text.fold a.name) a }

/-- Replace all values of an attribute. -/
def put (e : Entity) (name : String) (vs : List AttributeValue) : Entity :=
  e.set (Attribute.ofValues name vs)

/-- Remove the attribute that a name addresses. -/
def erase (e : Entity) (name : String) : Entity :=
  { e with attributes := e.attributes.erase (Text.fold name) }

/-- Change the attribute that a name addresses, which is created empty when absent.  An
attribute that is there keeps its key and display name. -/
def updateEntry (e : Entity) (name : String) (f : Attribute → Attribute) : Entity :=
  let a := (e.attribute? name).getD ⟨name, []⟩
  { e with attributes := e.attributes.insert (Text.fold name) (f a) }

/-- Change the attribute that a name addresses, if there is one. -/
def modify (e : Entity) (name : String) (f : Attribute → Attribute) : Entity :=
  match e.attribute? name with
  | some a => { e with attributes := e.attributes.insert (Text.fold name) (f a) }
  | none => e

/-- Canonical texts of an attribute; none when it is absent. -/
def values (e : Entity) (name : String) : List String :=
  match e.attribute? name with
  | some a => a.texts
  | none => []

def first? (e : Entity) (name : String) : Option String :=
  (e.attribute? name).bind Attribute.first?

/-- The attributes in storage order. -/
def attributeList (e : Entity) : List Attribute := e.attributes.values

/-- Display names in storage order. -/
def attributeNames (e : Entity) : List String := e.attributeList.map (·.name)

/-- Build an entity by putting attributes one after the other. -/
def putAll (e : Entity) (attributes : List (String × List AttributeValue)) : Entity :=
  attributes.foldl (fun e a => e.put a.1 a.2) e

/-! ## Data form -/

def toJson (e : Entity) : Json :=
  .object ([("identifier", .ofOption .string e.identifier)] ++
    (match e.newIdentifier with
      | some n => [("new_identifier", .string n)]
      | none => []) ++
    [("attributes", .object (e.attributes.entries.map fun a => (a.1, a.2.toJson)))])

def ofJson? (j : Json) : Option Entity := do
  let r ← Record.open? ["identifier", "new_identifier", "attributes"] j
  return ⟨← r.optional "identifier" Json.string?,
    ← r.optionalDefaulted "new_identifier" Json.string?,
    ← r.defaulted "attributes" ∅ (DataTree.map? Attribute.ofJson?)⟩

/-! ## Laws -/

@[simp] theorem set_identifier (e : Entity) (a : Attribute) :
    (e.set a).identifier = e.identifier := rfl

@[simp] theorem put_identifier (e : Entity) (name : String) (vs : List AttributeValue) :
    (e.put name vs).identifier = e.identifier := rfl

theorem attribute?_set (e : Entity) (a : Attribute) (name : String) :
    (e.set a).attribute? name =
      if Text.fold a.name = Text.fold name then some a else e.attribute? name :=
  TextMap.get?_insert ..

theorem attribute?_put (e : Entity) (name name' : String) (vs : List AttributeValue) :
    (e.put name vs).attribute? name' =
      if Text.fold name = Text.fold name' then some (Attribute.ofValues name vs)
      else e.attribute? name' := by
  simp [put, attribute?_set, Attribute.ofValues]

theorem attribute?_erase (e : Entity) (name name' : String) :
    (e.erase name).attribute? name' =
      if Text.fold name = Text.fold name' then none else e.attribute? name' :=
  TextMap.get?_erase ..

theorem attribute?_updateEntry (e : Entity) (name name' : String) (f : Attribute → Attribute) :
    (e.updateEntry name f).attribute? name' =
      if Text.fold name = Text.fold name' then some (f ((e.attribute? name).getD ⟨name, []⟩))
      else e.attribute? name' :=
  TextMap.get?_insert ..

end Entity

end StoreSync
