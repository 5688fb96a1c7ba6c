import StoreSync.Text.Integer
import StoreSync.TextMap
import StoreSync.Json.Basic

/-!
# Reading typed data from trees

Typed values are read from data values and from configuration files alike.  `DataTree` is what a
reader may ask of either: is this node null, a text, a flag, a natural number, a sequence, a
mapping.  `Record` reads the fields of a structure; some trees also take a structure as the
sequence of its fields.
-/

namespace StoreSync

/-- Nodes that typed values can be read from. -/
class DataTree (τ : Type) where
  isNull : τ → Bool
  text? : τ → Option String
  flag? : τ → Option Bool
  /-- A natural number of 64 bits. -/
  natural? : τ → Option Nat
  items? : τ → Option (List τ)
  members? : τ → Option (List (String × τ))
  /-- The fields of a structure that is written without their names. -/
  unnamed? : τ → Option (List τ)
  /-- The name of an alternative that carries no data. -/
  alternative? : τ → Option String

instance : DataTree Json where
  isNull := Json.isNull
  text? := Json.string?
  flag? := Json.boolean?
  natural?
    | .number (.integer (.ofNat n)) => some n
    | _ => none
  items? := Json.array?
  unnamed? := Json.array?
  members?
    | .members fields => some fields
    | _ => none
  alternative?
    | .string s => some s
    | .members [(name, .null)] => some name
    | _ => none

namespace DataTree

variable {τ : Type} [DataTree τ] {α : Type}

/-- Read a sequence. -/
def list? (read : τ → Option α) (t : τ) : Option (List α) := do (← items? t).mapM read

/-- Read a mapping; of entries under one key the last one counts. -/
def map? (read : τ → Option α) (t : τ) : Option (TextMap α) := do
  let pairs ← (← members? t).mapM fun (key, value) => (read value).map (key, ·)
  return TextMap.ofList pairs

/-- Read a value that may be null. -/
def nullable? (read : τ → Option α) (t : τ) : Option (Option α) :=
  if isNull t then some none else (read t).map some

def texts? (t : τ) : Option (List String) := list? text? t

end DataTree

/-- The fields of a structure, by name or by position. -/
structure Record (τ : Type) where
  fields : List (String × τ)
  /-- Whether the fields were given by name, so that one without value may be left out. -/
  named : Bool

namespace Record

variable {τ : Type} [DataTree τ] {α : Type}

/-- Whether no name stands twice in the list. -/
def distinctNames : List (String × τ) → Bool
  | [] => true
  | (name, _) :: rest => rest.all (·.1 != name) && distinctNames rest

/-- Open a structure with the given field names.  Unknown fields are passed over. -/
def open? (names : List String) (t : τ) : Option (Record τ) :=
  match DataTree.members? t with
  | some members =>
    let known := members.filter fun m => names.contains m.1
    if distinctNames known then some ⟨known, true⟩ else none
  | none =>
    match DataTree.unnamed? t with
    | some items => if items.length ≤ names.length then some ⟨names.zip items, false⟩ else none
    | none => none

/-- A field that must be there. -/
def required (r : Record τ) (name : String) (read : τ → Option α) : Option α := do
  read (← r.fields.lookup name)

/-- A field that may be null or, given by name, left out. -/
def optional (r : Record τ) (name : String) (read : τ → Option α) : Option (Option α) :=
  match r.fields.lookup name with
  | some t => DataTree.nullable? read t
  | none => if r.named then some none else none

/-- A field with a value for its absence. -/
def defaulted (r : Record τ) (name : String) (default : α) (read : τ → Option α) : Option α :=
  match r.fields.lookup name with
  | some t => read t
  | none => some default

/-- An optional field that may be left out in either form. -/
def optionalDefaulted (r : Record τ) (name : String) (read : τ → Option α) :
    Option (Option α) :=
  r.defaulted name none (DataTree.nullable? read)

end Record

end StoreSync
