import StoreSync.Change
import StoreSync.Expression.Condition

/-!
# Policies

The policy of a task says for every attribute how it converges and which expressions give it
values, for every kind of change under which condition it is applied, and how identifiers of new
records are built.
-/

namespace StoreSync

/-- How an attribute converges when a record is updated. -/
inductive AttributeStatus where
  /-- The destination gets exactly the source's values. -/
  | force
  /-- Missing values are added, none is removed. -/
  | merge
  /-- The attribute is not touched. -/
  | keep
deriving DecidableEq, Repr

namespace AttributeStatus

def name : AttributeStatus → String
  | .force => "force"
  | .merge => "merge"
  | .keep => "keep"

/-- Read a status, in any case. -/
def parse (s : String) : Except String AttributeStatus :=
  match Text.fold s with
  | "force" | "replace" => .ok .force
  | "merge" => .ok .merge
  | "keep" => .ok .keep
  | _ => .error s!"Unknown attribute status: {s}"

def toJson (s : AttributeStatus) : Json := .string s.name

def read? {τ : Type} [DataTree τ] (t : τ) : Option AttributeStatus := do
  match ← DataTree.alternative? t with
  | "force" | "replace" => some .force
  | "merge" => some .merge
  | "keep" => some .keep
  | _ => none

end AttributeStatus

/-- The policy for one attribute. -/
structure AttributePolicy where
  /-- The policy's default status applies when there is none. -/
  status : Option AttributeStatus
  /-- Expressions for values that are added when merging or when there is no other value. -/
  defaultValues : List String
  /-- Expressions whose values take the place of the source's. -/
  forceValues : List String
  /-- Expressions that only count when a record is created. -/
  createValues : List String
deriving DecidableEq, Repr

namespace AttributePolicy

def empty : AttributePolicy := ⟨none, [], [], []⟩

/-- All expressions, in the order default, force, create. -/
def expressions (p : AttributePolicy) : List String :=
  p.defaultValues ++ p.forceValues ++ p.createValues

def toJson (p : AttributePolicy) : Json :=
  .object ((match p.status with
      | some s => [("status", s.toJson)]
      | none => []) ++
    texts "default_values" p.defaultValues ++ texts "force_values" p.forceValues ++
    texts "create_values" p.createValues)
where
  /-- A member for a list that is not empty. -/
  texts (name : String) (list : List String) : List (String × Json) :=
    if list.isEmpty then [] else [(name, .ofStrings list)]

def read? {τ : Type} [DataTree τ] (t : τ) : Option AttributePolicy := do
  let r ← Record.open? ["status", "default_values", "force_values", "create_values"] t
  return ⟨← r.optionalDefaulted "status" AttributeStatus.read?,
    ← r.defaulted "default_values" [] DataTree.texts?,
    ← r.defaulted "force_values" [] DataTree.texts?,
    ← r.defaulted "create_values" [] DataTree.texts?⟩

end AttributePolicy

/-- One condition for each kind of change. -/
structure Conditions where
  create : Condition
  update : Condition
  delete : Condition
  rename : Condition
deriving DecidableEq, Repr

namespace Conditions

def always : Conditions := ⟨.always, .always, .always, .always⟩

def of (c : Conditions) : Modification → Condition
  | .create => c.create
  | .update => c.update
  | .delete => c.delete
  | .rename => c.rename

def toJson (c : Conditions) : Json :=
  .object (Modification.all.map fun m => (m.name, (c.of m).toJson))

def read? {τ : Type} [DataTree τ] (t : τ) : Option Conditions := do
  let r ← Record.open? ["create", "update", "delete", "rename"] t
  return ⟨← r.defaulted "create" .always Condition.read?,
    ← r.defaulted "update" .always Condition.read?,
    ← r.defaulted "delete" .always Condition.read?,
    ← r.defaulted "rename" .always Condition.read?⟩

end Conditions

/-- How the identifier of a new record is built when the source gives none. -/
structure IdentifierRule where
  /-- An expression whose first text is the identifier. -/
  expression : Option String
  /-- Otherwise this attribute's first value, written `attribute=value`. -/
  uniqueAttribute : Option String
  /-- What follows the identifier after a comma. -/
  base : Option String
deriving DecidableEq, Repr

namespace IdentifierRule

def empty : IdentifierRule := ⟨none, none, none⟩

def isConfigured (r : IdentifierRule) : Bool := r.expression.isSome || r.uniqueAttribute.isSome

/-- Append the base. -/
def qualify (r : IdentifierRule) (relative : String) : String :=
  match r.base with
  | some base => if base.isEmpty then relative else relative ++ "," ++ base
  | none => relative

def toJson (r : IdentifierRule) : Json :=
  .object (member "expression" r.expression ++ member "unique_attribute" r.uniqueAttribute ++
    member "base" r.base)
where
  /-- A member for a text that is there. -/
  member (name : String) : Option String → List (String × Json)
    | some s => [(name, .string s)]
    | none => []

def read? {τ : Type} [DataTree τ] (t : τ) : Option IdentifierRule := do
  let r ← Record.open? ["expression", "unique_attribute", "base"] t
  return ⟨← r.optionalDefaulted "expression" DataTree.text?,
    ← r.optionalDefaulted "unique_attribute" DataTree.text?,
    ← r.optionalDefaulted "base" DataTree.text?⟩

end IdentifierRule

/-- The policy of one task. -/
structure Policy where
  defaultStatus : AttributeStatus
  attributes : TextMap AttributePolicy
  conditions : Conditions
  identifier : IdentifierRule
  /-- When given, only these attributes are ever written. -/
  writeAttributes : Option (List String)
deriving DecidableEq

namespace Policy

def empty : Policy := ⟨.force, ∅, .always, .empty, none⟩

instance : Inhabited Policy := ⟨empty⟩

/-- The policy under the first name, in ascending order, that agrees up to case. -/
def attribute? (p : Policy) (name : String) : Option AttributePolicy :=
  (p.attributes.entries.find? fun e => Text.sameFolded e.1 name).map (·.2)

def statusOf (p : Policy) (name : String) : AttributeStatus :=
  ((p.attribute? name).bind (·.status)).getD p.defaultStatus

/-- Keep the first of the names that agree up to case. -/
def distinctNames (names : List String) : List String :=
  names.foldl (fun acc n => if acc.any (Text.sameFolded · n) then acc else acc ++ [n]) []

/-- The attributes that a change may touch: those of the allow-list, or without one those of the
source followed by those the policy names. -/
def writeScope (p : Policy) (source : Option Entity) : List String :=
  match p.writeAttributes with
  | some allowed => distinctNames allowed
  | none =>
    distinctNames ((source.map Entity.attributeNames).getD [] ++ p.attributes.keys)

/-- Every expression that the policy can have evaluated. -/
def expressions (p : Policy) : List String :=
  Modification.all.filterMap (fun m => (p.conditions.of m).expression?) ++
    p.attributes.values.flatMap AttributePolicy.expressions ++ p.identifier.expression.toList

/-! ## Validation -/

def isBlankText (s : String) : Bool := (Text.trim s).isEmpty

/-- What is wrong with a policy. -/
inductive Defect where
  | emptyWriteAttribute
  | emptyAttributeName
  | emptyExpression (name : String)
  | commaAtBase (base : String)
  | emptyUniqueAttribute
deriving DecidableEq, Repr

def Defect.message : Defect → String
  | .emptyWriteAttribute => "write_attributes entries must not be empty"
  | .emptyAttributeName => "attribute policy with empty name"
  | .emptyExpression name => "attribute '" ++ name ++ "' has an empty value expression"
  | .commaAtBase base => "identifier base '" ++ base ++ "' must not start or end with a comma"
  | .emptyUniqueAttribute => "identifier unique_attribute is empty"

/-- The defect of one attribute policy. -/
def attributeDefect? (name : String) (a : AttributePolicy) : Option Defect :=
  if isBlankText name then some .emptyAttributeName
  else if a.expressions.any isBlankText then some (.emptyExpression name)
  else none

/-- The first defect, if there is one. -/
def defect? (p : Policy) : Option Defect :=
  (match p.writeAttributes with
    | some allowed => if allowed.any isBlankText then some .emptyWriteAttribute else none
    | none => none) <|>
  p.attributes.entries.findSome? (fun e => attributeDefect? e.1 e.2) <|>
  (match p.identifier.base with
    | some base =>
      if base.toList.head? = some ',' ∨ base.toList.getLast? = some ',' then
        some (.commaAtBase base)
      else none
    | none => none) <|>
  (match p.identifier.uniqueAttribute with
    | some name => if isBlankText name then some .emptyUniqueAttribute else none
    | none => none)

/-! ## Data form -/

def toJson (p : Policy) : Json :=
  .object ([("default_status", p.defaultStatus.toJson),
    ("attributes", .object (p.attributes.entries.map fun e => (e.1, e.2.toJson))),
    ("conditions", p.conditions.toJson), ("identifier", p.identifier.toJson)] ++
    match p.writeAttributes with
    | some names => [("write_attributes", .ofStrings names)]
    | none => [])

def read? {τ : Type} [DataTree τ] (t : τ) : Option Policy := do
  let r ← Record.open?
    ["default_status", "attributes", "conditions", "identifier", "write_attributes"] t
  return ⟨← r.defaulted "default_status" .force AttributeStatus.read?,
    ← r.defaulted "attributes" ∅ (DataTree.map? AttributePolicy.read?),
    ← r.defaulted "conditions" .always Conditions.read?,
    ← r.defaulted "identifier" .empty IdentifierRule.read?,
    ← r.optionalDefaulted "write_attributes" DataTree.texts?⟩

end Policy

end StoreSync
