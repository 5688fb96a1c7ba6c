import StoreSync.Entity.Basic

/-!
# Changes

A change describes how to alter one record of the destination: which kind of alteration, which
record, and for creations and updates a list of attribute operations that are carried out in
order.
-/

namespace StoreSync

/-- What a change does to its record. -/
inductive Modification where
  | create
  | update
  | delete
  | rename
deriving DecidableEq, Repr

namespace Modification

/-- All kinds, in reporting order. -/
def all : List Modification := [.create, .update, .delete, .rename]

def name : Modification → String
  | .create => "create"
  | .update => "update"
  | .delete => "delete"
  | .rename => "rename"

def ofName? (s : String) : Option Modification := all.find? (·.name == s)

/-- Read a kind from its name or its directory synonym, in any ASCII case. -/
def parse (s : String) : Except String Modification :=
  match Text.asciiLower s with
  | "create" | "add" => .ok .create
  | "update" | "modify" => .ok .update
  | "delete" => .ok .delete
  | "rename" | "modrdn" => .ok .rename
  | _ => .error s!"Unknown modification type: {s}"

def toJson (m : Modification) : Json := .string m.name

def ofJson? (j : Json) : Option Modification := DataTree.alternative? j >>= ofName?

end Modification

/-- What an operation does to its attribute. -/
inductive OperationKind where
  | add
  | replace
  | delete
deriving DecidableEq, Repr

namespace OperationKind

def name : OperationKind → String
  | .add => "add_values"
  | .replace => "replace_values"
  | .delete => "delete_values"

def ofName? (s : String) : Option OperationKind := [add, replace, delete].find? (·.name == s)

def toJson (k : OperationKind) : Json := .string k.name

def ofJson? (j : Json) : Option OperationKind := DataTree.alternative? j >>= ofName?

end OperationKind

/-- One operation on one attribute. -/
structure AttributeOperation where
  kind : OperationKind
  /-- The name of the attribute. -/
  target : String
  values : List AttributeValue
deriving DecidableEq, Repr

namespace AttributeOperation

def texts (op : AttributeOperation) : List String := op.values.map AttributeValue.canonical

/-- Carry the operation out.  Deleting no values at all removes the whole attribute, and so does
deleting the last ones. -/
def applyTo (op : AttributeOperation) (e : Entity) : Entity :=
  match op.kind with
  | .add => e.updateEntry op.target fun a => a.addAll op.values
  | .replace =>
    let e := e.erase op.target
    if op.values.isEmpty then e else e.put op.target op.values
  | .delete =>
    if op.values.isEmpty then e.erase op.target
    else
      match e.attribute? op.target with
      | none => e
      | some a =>
        let a := op.values.foldl Attribute.remove a
        if a.values.isEmpty then e.erase op.target else e.modify op.target fun _ => a

def toJson (op : AttributeOperation) : Json :=
  .object [("kind", op.kind.toJson), ("attribute", .string op.target),
    ("values", .array (op.values.map AttributeValue.toJson))]

def ofJson? (j : Json) : Option AttributeOperation := do
  let r ← Record.open? ["kind", "attribute", "values"] j
  return ⟨← r.required "kind" OperationKind.ofJson?, ← r.required "attribute" Json.string?,
    ← r.required "values" (DataTree.list? AttributeValue.ofJson?)⟩

end AttributeOperation

/-- A planned alteration of one record of the destination. -/
structure Change where
  modification : Modification
  identifier : String
  newIdentifier : Option String
  operations : List AttributeOperation
deriving DecidableEq, Repr

namespace Change

def create (identifier : String) (operations : List AttributeOperation) : Change :=
  ⟨.create, identifier, none, operations⟩

def update (identifier : String) (operations : List AttributeOperation) : Change :=
  ⟨.update, identifier, none, operations⟩

def delete (identifier : String) : Change := ⟨.delete, identifier, none, []⟩

def rename (identifier newIdentifier : String) : Change :=
  ⟨.rename, identifier, some newIdentifier, []⟩

/-- The first operation on an attribute, up to case. -/
def operationFor? (c : Change) (name : String) : Option AttributeOperation :=
  c.operations.find? fun op => Text.sameFolded op.target name

/-- Carry out a list of operations, in order. -/
def applyOperations (ops : List AttributeOperation) (e : Entity) : Entity :=
  ops.foldl (fun e op => op.applyTo e) e

/-- Carry out all operations of the change. -/
def applyTo (c : Change) (e : Entity) : Entity := applyOperations c.operations e

def toJson (c : Change) : Json :=
  .object ([("modification", c.modification.toJson), ("identifier", .string c.identifier)] ++
    (match c.newIdentifier with
      | some n => [("new_identifier", .string n)]
      | none => []) ++
    (if c.operations.isEmpty then []
      else [("operations", .array (c.operations.map AttributeOperation.toJson))]))

def ofJson? (j : Json) : Option Change := do
  let r ← Record.open? ["modification", "identifier", "new_identifier", "operations"] j
  return ⟨← r.required "modification" Modification.ofJson?,
    ← r.required "identifier" Json.string?,
    ← r.optionalDefaulted "new_identifier" Json.string?,
    ← r.defaulted "operations" [] (DataTree.list? AttributeOperation.ofJson?)⟩

end Change

end StoreSync
