import StoreSync.Change
import StoreSync.Filter
import StoreSync.Pivot
import StoreSync.Schema

/-!
# Stores in memory

A store keeps its entries under the folded form of their identifier, or of their first pivot
value when they have no identifier, and remembers when each entry was last written.  Entries are
correlated with another store through the values of the pivot attribute.
-/

namespace StoreSync

/-- A record with the time it was last written. -/
structure StoredEntry where
  entity : Entity
  modifiedAt : Instant
deriving DecidableEq

/-- A store held in memory. -/
structure MemoryStore where
  name : String
  pivotAttribute : String
  /-- The name under which filters see the time of the last write. -/
  timestampAttribute : String
  /-- Whether the store can list changed entries. -/
  changeFeed : Bool
  entries : TextMap StoredEntry
  connectionLost : Bool
  /-- Number of changes applied so far. -/
  applied : Nat

namespace MemoryStore

/-- An empty store. -/
def new (name pivotAttribute : String) : MemoryStore :=
  ⟨name, pivotAttribute, "modifyTimestamp", true, ∅, false, 0⟩

def entities (s : MemoryStore) : List Entity := s.entries.values.map (·.entity)

/-- The entity with an identifier, in any case. -/
def get? (s : MemoryStore) (identifier : String) : Option Entity :=
  (s.entries.get? (Text.fold identifier)).map (·.entity)

/-! ## Insertion -/

/-- The key of an entity: its folded identifier, else its folded first pivot value. -/
def entryKey? (s : MemoryStore) (e : Entity) : Option String :=
  (e.identifier <|> e.first? s.pivotAttribute).map Text.fold

/-- Insert or replace an entry with a time of modification. -/
def insertAt (s : MemoryStore) (e : Entity) (time : Instant) : Except StoreError MemoryStore :=
  match s.entryKey? e with
  | some key => .ok { s with entries := s.entries.insert key ⟨e, time⟩ }
  | none =>
    .error (.invalidData ("entry has neither identifier nor '" ++ s.pivotAttribute ++ "'"))

/-- Map and insert raw records one after the other.  Those before the first failing one stay
inserted. -/
def loadRecords (schema : EntitySchema) (now : Instant) :
    MemoryStore → List Json → MemoryStore × Except StoreError Nat
  | s, [] => (s, .ok 0)
  | s, r :: rest =>
    match schema.mapRecord r >>= (s.insertAt · now) with
    | .error e => (s, .error e)
    | .ok s =>
      let (s, n) := loadRecords schema now s rest
      (s, n.map (· + 1))

/-- Load a data file with an array of records. -/
def load (schema : EntitySchema) (now : Instant) (s : MemoryStore) (records : Option Json) :
    MemoryStore × Except StoreError Nat :=
  match records with
  | some (.array records) => s.loadRecords schema now records
  | _ => (s, .error (.serialization "not an array of records"))

/-- The records of all entries, as an array. -/
def toRecords (schema : EntitySchema) (s : MemoryStore) : Json :=
  .array (s.entities.map schema.toRecord)

/-! ## Reading -/

def checkConnection (s : MemoryStore) : Except StoreError Unit :=
  if s.connectionLost then .error (.connectionFailed (s.name ++ ": connection lost"))
  else .ok ()

/-- The pivot of an entity: its identifier, with the first pivot value in the bag.  An entity
without pivot value has none. -/
def pivotOf? (s : MemoryStore) (e : Entity) : Option Pivot :=
  (e.first? s.pivotAttribute).map fun v =>
    (Pivot.ofId (e.identifier.getD v)).withAttribute s.pivotAttribute v

/-- Length in bytes of an entity's identifier. -/
def depth (e : Entity) : Nat := (e.identifier.map String.utf8ByteSize).getD 0

/-- Longer identifiers first, so that children precede their parents; then by pivot. -/
def listedBefore (a b : Nat × Pivot) : Bool :=
  b.1 < a.1 || (a.1 = b.1 && decide (a.2.id ≤ b.2.id))

/-- The pivots of entities in listing order. -/
def orderedPivots (s : MemoryStore) (es : List Entity) : List Pivot :=
  let keyed := es.filterMap fun e => (s.pivotOf? e).map (depth e, ·)
  (keyed.mergeSort listedBefore).map (·.2)

/-- All pivots of the store. -/
def list (s : MemoryStore) : Except StoreError (List Pivot) := do
  s.checkConnection
  return s.orderedPivots s.entities

/-- What a filter sees of an entry: its attributes, and the time of the last write. -/
def lookup (s : MemoryStore) (entry : StoredEntry) (name : String) : List String :=
  if Text.sameFolded name s.timestampAttribute then [entry.modifiedAt.generalizedTime]
  else entry.entity.values name

/-- The pivots of the entries that match a filter. -/
def changed (s : MemoryStore) (filter : Filter) : Except StoreError (List Pivot) := do
  if !s.changeFeed then throw (.unsupported "list_changed_pivots")
  s.checkConnection
  return s.orderedPivots
    ((s.entries.values.filter fun entry => filter.holds (s.lookup entry)).map (·.entity))

/-- The text to look for on behalf of a pivot: its bag under the pivot attribute, else the only
text of the bag, else its identifier. -/
def wanted (s : MemoryStore) (p : Pivot) : String :=
  match p.attribute? s.pivotAttribute with
  | some v => v
  | none =>
    match p.attributes.values with
    | [v] => v
    | _ => p.id

/-- Whether some pivot value of an entity is the given text, up to case. -/
def carries (s : MemoryStore) (e : Entity) (text : String) : Bool :=
  (e.values s.pivotAttribute).any (Text.sameFolded · text)

/-- The first entry, in key order, that carries what the pivot asks for. -/
def fetch (s : MemoryStore) (p : Pivot) : Except StoreError (Option Entity) := do
  s.checkConnection
  return s.entities.find? fun e => s.carries e (s.wanted p)

/-! ## Writing -/

/-- The entries after a change.  A failing change leaves no trace. -/
def changeEntries (c : Change) (now : Instant) (entries : TextMap StoredEntry) :
    Except StoreError (TextMap StoredEntry) :=
  let key := Text.fold c.identifier
  match c.modification with
  | .create =>
    if entries.contains key then .error (.objectExists c.identifier)
    else .ok (entries.insert key ⟨c.applyTo (.named c.identifier), now⟩)
  | .update =>
    match entries.get? key with
    | some entry => .ok (entries.insert key ⟨c.applyTo entry.entity, now⟩)
    | none => .error (.objectNotFound c.identifier)
  | .delete =>
    if entries.contains key then .ok (entries.erase key)
    else .error (.objectNotFound c.identifier)
  | .rename =>
    match c.newIdentifier with
    | none => .error (.invalidData "rename without new identifier")
    | some newIdentifier =>
      let newKey := Text.fold newIdentifier
      if newKey ≠ key ∧ entries.contains newKey then .error (.objectExists newIdentifier)
      else
        match entries.get? key with
        | some entry =>
          let entity := { entry.entity with identifier := some newIdentifier }
          .ok ((entries.erase key).insert newKey ⟨entity, now⟩)
        | none => .error (.objectNotFound c.identifier)

/-- Apply a change with a time of modification. -/
def applyAt (s : MemoryStore) (c : Change) (time : Instant) : Except StoreError MemoryStore := do
  let entries ← changeEntries c time s.entries
  return { s with entries := entries, applied := s.applied + 1 }

/-- Apply a change, stamped with the current time.  The time is read before the entries are held,
so that other writers may come in between. -/
def apply (s : MemoryStore) (c : Change) (now : Instant) : Except StoreError MemoryStore := do
  s.checkConnection
  s.applyAt c now

end MemoryStore

end StoreSync
