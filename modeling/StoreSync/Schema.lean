import StoreSync.Entity.Basic
import StoreSync.Store.Error
import StoreSync.Text.Blank

/-!
# Entity schemas

A schema declares the attributes of one kind of record and their types.  `mapRecord` turns a raw
record into an entity, coercing every field to its declared type and refusing fields without
declaration; `toRecord` writes an entity back.
-/

namespace StoreSync

/-- The type of a declared attribute. -/
inductive DataType where
  | string
  | integer
  | boolean
  /-- Bytes, in Base64 within raw records. -/
  | binary
deriving DecidableEq, Repr

namespace DataType

def all : List DataType := [string, integer, boolean, binary]

def name : DataType → String
  | .string => "string"
  | .integer => "integer"
  | .boolean => "boolean"
  | .binary => "binary"

def read? {τ : Type} [DataTree τ] (t : τ) : Option DataType := do
  let s ← DataTree.alternative? t
  all.find? (·.name == s)

/-- Read one raw scalar as a value of the type; the error says what is wrong with it. -/
def coerce : DataType → Json → Except String AttributeValue
  | .string, .string s => .ok (.string s)
  | .string, .number n => .ok (.string n.text)
  | .string, .boolean b => .ok (.string (if b then "true" else "false"))
  | .integer, .number (.integer i) =>
    if Text.FitsInt64 i then .ok (.integer (Int64.ofInt i)) else .error "not a 64-bit integer"
  | .integer, .number (.fraction _) => .error "not a 64-bit integer"
  | .integer, .string s =>
    match Text.parseInt64 (Text.trim s) with
    | .ok i => .ok (.integer (Int64.ofInt i))
    | .error e => .error e.message
  | .boolean, .boolean b => .ok (.boolean b)
  | .boolean, .string s =>
    match Text.asciiLower (Text.trim s) with
    | "true" => .ok (.boolean true)
    | "false" => .ok (.boolean false)
    | _ => .error "expected true or false"
  | .binary, .string s =>
    match Text.Base64.decode s with
    | .ok bytes => .ok (.binary bytes)
    | .error e => .error e.message
  | _, _ => .error "unsupported JSON value"

end DataType

/-- One declared attribute. -/
structure SchemaAttribute where
  name : String
  dataType : DataType
deriving DecidableEq, Repr

/-- The declared attributes of one kind of record. -/
structure EntitySchema where
  /-- The kind of record, such as `person`. -/
  name : String
  /-- The field that holds the identifier, if the store has one. -/
  identifierField : Option String
  attributes : List SchemaAttribute
deriving DecidableEq, Repr

namespace EntitySchema

/-- The first declaration whose name agrees up to case. -/
def attribute? (s : EntitySchema) (name : String) : Option SchemaAttribute :=
  s.attributes.find? fun a => Text.sameFolded a.name name

def isIdentifierField (s : EntitySchema) (field : String) : Bool :=
  match s.identifierField with
  | some id => Text.sameFolded id field
  | none => false

/-! ## Raw records to entities -/

/-- Coerce one scalar of a field. -/
def coerceField (a : SchemaAttribute) (field : String) (raw : Json) :
    Except StoreError AttributeValue :=
  match a.dataType.coerce raw with
  | .ok v => .ok v
  | .error m => .error (.attributeType field a.dataType.name m)

/-- The values of a field: the items of an array but for nulls, or the one scalar; none for
null. -/
def fieldValues (a : SchemaAttribute) (field : String) :
    Json → Except StoreError (Option (List AttributeValue))
  | .null => .ok none
  | .array items => do
    let vs ← (items.filter (!·.isNull)).mapM (coerceField a field)
    return some vs
  | scalar => do return some [← coerceField a field scalar]

/-- Take one field of a raw record into the entity. -/
def mapField (s : EntitySchema) (e : Entity) (field : String) (raw : Json) :
    Except StoreError Entity :=
  if s.isIdentifierField field then
    match raw with
    | .string id =>
      if id.isEmpty then .error (identifierError field)
      else .ok { e with identifier := some id }
    | .null => .ok e
    | _ => .error (identifierError field)
  else
    match s.attribute? field with
    | none => .error (.attributeNotDeclared field s.name)
    | some a => do
      match ← fieldValues a field raw with
      | none => return e
      | some vs => return e.put a.name vs
where
  identifierError (field : String) : StoreError :=
    .invalidData ("identifier field '" ++ field ++ "' must be a non-empty string")

/-- Map a raw record, field by field in ascending order of the names. -/
def mapRecord (s : EntitySchema) : Json → Except StoreError Entity
  | .members fields => fields.foldlM (fun e f => s.mapField e f.1 f.2) .anonymous
  | _ => .error (.invalidData (s.name ++ " record must be a JSON object"))

/-! ## Entities to raw records -/

/-- A value in a raw record. -/
def rawValue : AttributeValue → Json
  | .string s => .string s
  | .integer i => .ofInt i.toInt
  | .boolean b => .boolean b
  | .binary bytes => .string (Text.Base64.encode bytes)

/-- The field of an attribute, under its declared name if it has one.  A single value stands by
itself, any other number of values in an array. -/
def rawField (s : EntitySchema) (a : Attribute) : String × Json :=
  let name := match s.attribute? a.name with
    | some d => d.name
    | none => a.name
  match a.values with
  | [v] => (name, rawValue v)
  | vs => (name, .array (vs.map rawValue))

/-- Write an entity as a raw record; of fields with one name the later one counts. -/
def toRecord (s : EntitySchema) (e : Entity) : Json :=
  .object ((match s.identifierField, e.identifier with
      | some field, some id => [(field, .string id)]
      | _, _ => []) ++
    e.attributeList.map s.rawField)

/-! ## Data form -/

def attributeToJson (a : SchemaAttribute) : Json :=
  .object [("name", .string a.name), ("type", .string a.dataType.name)]

def readAttribute? {τ : Type} [DataTree τ] (t : τ) : Option SchemaAttribute := do
  let r ← Record.open? ["name", "type"] t
  return ⟨← r.required "name" DataTree.text?, ← r.defaulted "type" .string DataType.read?⟩

def toJson (s : EntitySchema) : Json :=
  .object ([("name", .string s.name)] ++
    (match s.identifierField with
      | some f => [("identifier_field", .string f)]
      | none => []) ++
    [("attributes", .array (s.attributes.map attributeToJson))])

def read? {τ : Type} [DataTree τ] (t : τ) : Option EntitySchema := do
  let r ← Record.open? ["name", "identifier_field", "attributes"] t
  return ⟨← r.required "name" DataTree.text?,
    ← r.optionalDefaulted "identifier_field" DataTree.text?,
    ← r.defaulted "attributes" [] (DataTree.list? readAttribute?)⟩

end EntitySchema

end StoreSync
