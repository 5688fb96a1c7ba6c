import StoreSync.TaskConfig
import StoreSync.ValueSet

/-!
# Reconciliation of one pair of records

A source record and its counterpart in the destination, either of which may be missing, call for
at most one change:

* both missing: none;
* only the source: a creation, which adds values only;
* only the destination: a deletion;
* both, with identifiers that differ up to case: a rename without attribute operations;
* both otherwise: an update, or nothing when no attribute differs.

Every change is planned with the verdict of the policy's condition for its kind, which is
evaluated last.
-/

namespace StoreSync

/-- A change and whether its condition lets it through. -/
structure PlannedChange where
  change : Change
  allowed : Bool
deriving DecidableEq

/-- The kind of change that a pair of records calls for. -/
def classify (source destination : Option Entity) : Option Modification :=
  match source, destination with
  | none, none => none
  | some _, none => some .create
  | none, some _ => some .delete
  | some s, some d =>
    match s.identifier, d.identifier with
    | some a, some b => if Text.sameFolded a b then some .update else some .rename
    | _, _ => some .update

/-- Everything planning depends on: the policy and the meaning of its expressions. -/
structure Reconciler where
  policy : Policy
  evaluator : Evaluator

namespace Reconciler

variable (r : Reconciler)

/-! ## Identifiers -/

/-- The identifier that the rule gives to a source record: the first text of the expression, or
the value of the unique attribute. -/
def resolveIdentifier (source : Entity) : Asked (Option String) :=
  let rule := r.policy.identifier
  match rule.expression with
  | some expression => do
    match ← r.evaluator.askTexts expression (.ofSource source) with
    | relative :: _ => return some (rule.qualify relative)
    | [] => .fail (.evaluation expression "identifier expression returned no value")
  | none =>
    match rule.uniqueAttribute with
    | some name =>
      match source.first? name with
      | some v =>
        if v.isEmpty then return none else return some (rule.qualify (name ++ "=" ++ v))
      | none => return none
    | none => return none

/-- Give a source record without identifier the one it would be created with, so that renames
are recognized. -/
def prepareSource (source : Entity) : Asked Entity :=
  if source.identifier.isSome || !r.policy.identifier.isConfigured then return source
  else do
    match ← r.resolveIdentifier source with
    | some id => return { source with identifier := some id }
    | none => return source

/-! ## Parts of a plan -/

/-- The values held under a name. -/
def valuesOf (e : Entity) (name : String) : List AttributeValue :=
  match e.attribute? name with
  | some a => a.values
  | none => []

/-- The values of a list of expressions, in order. -/
def expand (expressions : List String) (b : Bindings) : Asked (List AttributeValue) :=
  match expressions with
  | [] => return []
  | e :: rest => do
    let texts ← r.evaluator.askTexts e b
    let more ← expand rest b
    return texts.map .string ++ more

/-- The forced values of an attribute if the policy has any, else the source's. -/
def ownValues (name : String) (source : List AttributeValue) (b : Bindings) :
    Asked (List AttributeValue) :=
  match r.policy.attribute? name with
  | some p => if p.forceValues.isEmpty then return source else r.expand p.forceValues b
  | none => return source

/-- Extend values by those of expressions, when merging or when no value counts so far. -/
def extendValues (status : AttributeStatus) (expressions : List String) (b : Bindings)
    (vs : List AttributeValue) : Asked (List AttributeValue) :=
  if status = .merge ∨ ValueSet.normalize vs = [] then do
    return vs ++ (← r.expand expressions b)
  else return vs

/-- The verdict of the condition for a kind of change. -/
def isAllowed (m : Modification) (b : Bindings) : Asked Bool :=
  (r.policy.conditions.of m).evaluate r.evaluator b

/-- The identifier of a destination record. -/
def destinationIdentifier (d : Entity) : Asked String :=
  match d.identifier with
  | some id => return id
  | none => .fail (.internal "destination entity has no identifier")

/-! ## Creation -/

/-- The operation that gives a new record the values of one attribute. -/
def createOperation (source : Entity) (name : String) : Asked (Option AttributeOperation) := do
  let status := r.policy.statusOf name
  let own := valuesOf source name
  let b := (Bindings.ofSource source).withAttribute (ValueSet.texts own) []
  let vs ← r.ownValues name own b
  let vs ←
    match r.policy.attribute? name with
    | some p => do
      let vs ← r.extendValues status p.createValues b vs
      r.extendValues status p.defaultValues b vs
    | none => pure vs
  let vs := ValueSet.normalize vs
  return if vs.isEmpty then none else some ⟨.add, name, vs⟩

/-- Collect the operations of several attributes. -/
def collectOperations (plan : String → Asked (Option AttributeOperation)) :
    List String → Asked (List AttributeOperation)
  | [] => return []
  | name :: rest => do
    let op ← plan name
    let more ← collectOperations plan rest
    return op.toList ++ more

/-- Plan the creation of a record that only the source has. -/
def planCreate (source : Entity) : Asked PlannedChange := do
  let identifier ←
    match source.identifier with
    | some id => pure id
    | none => do
      match ← r.resolveIdentifier source with
      | some id => pure id
      | none => .fail (.missingIdentifier
          "source entry has no identifier and no identifier rule matched")
  let operations ←
    collectOperations (r.createOperation source) (r.policy.writeScope (some source))
  let allowed ← r.isAllowed .create (.ofSource source)
  return ⟨.create identifier operations, allowed⟩

/-! ## Update -/

/-- The operation that brings one attribute from `existing` to `wanted`, both normalized. -/
def diffAttribute (status : AttributeStatus) (name : String)
    (wanted existing : List AttributeValue) : Option AttributeOperation :=
  match status with
  | .force =>
    match wanted.isEmpty, existing.isEmpty with
    | true, true => none
    | true, false => some ⟨.delete, name, existing⟩
    | false, true => some ⟨.replace, name, wanted⟩
    | false, false =>
      if ValueSet.same wanted existing then none else some ⟨.replace, name, wanted⟩
  | .merge =>
    if wanted.isEmpty then none
    else if existing.isEmpty then some ⟨.add, name, wanted⟩
    else
      let missing := ValueSet.missing wanted existing
      if missing.isEmpty then none else some ⟨.add, name, missing⟩
  | .keep => none

/-- The values an attribute should have after an update. -/
def wantedValues (source destination : Entity) (name : String) : Asked (List AttributeValue) := do
  let own := valuesOf source name
  let b := (Bindings.pair (some source) (some destination)).withAttribute
    (ValueSet.texts own) (ValueSet.texts (valuesOf destination name))
  let vs ← r.ownValues name own b
  let vs := ValueSet.normalize vs
  match r.policy.attribute? name with
  | some p => do
    let vs ← r.extendValues (r.policy.statusOf name) p.defaultValues b vs
    return ValueSet.normalize vs
  | none => return vs

/-- The operation that converges one attribute. -/
def updateOperation (source destination : Entity) (name : String) :
    Asked (Option AttributeOperation) :=
  let status := r.policy.statusOf name
  if status = .keep then return none
  else do
    let wanted ← r.wantedValues source destination name
    return diffAttribute status name wanted (ValueSet.normalize (valuesOf destination name))

/-- Plan the convergence of a correlated pair; none when nothing differs. -/
def planUpdate (source destination : Entity) : Asked (Option PlannedChange) := do
  let operations ← collectOperations (r.updateOperation source destination)
    (r.policy.writeScope (some source))
  if operations.isEmpty then return none
  else
    let identifier ← destinationIdentifier destination
    let allowed ← r.isAllowed .update (.pair (some source) (some destination))
    return some ⟨.update identifier operations, allowed⟩

/-! ## Rename and deletion -/

/-- Plan a rename.  Attributes converge in the next pass. -/
def planRename (source destination : Entity) : Asked PlannedChange := do
  let old ← destinationIdentifier destination
  match source.identifier with
  | none => .fail (.missingIdentifier "rename requires a source identifier")
  | some new => do
    let allowed ← r.isAllowed .rename (.pair (some source) (some destination))
    return ⟨.rename old new, allowed⟩

/-- Plan a deletion; the record itself is only needed when the condition mentions it. -/
def planDelete (identifier : String) (destination : Option Entity) : Asked PlannedChange := do
  let allowed ← r.isAllowed .delete (.ofDestination destination)
  return ⟨.delete identifier, allowed⟩

/-- Whether the condition for deletions mentions the destination record. -/
def deleteNeedsDestination : Bool :=
  r.policy.conditions.delete.references r.evaluator "destination"

/-! ## The whole plan -/

/-- Plan the change for a pair of records. -/
def computeChange (source destination : Option Entity) : Asked (Option PlannedChange) :=
  match source, destination with
  | none, none => return none
  | some s, none => do return some (← r.planCreate s)
  | none, some d => do
    let identifier ← destinationIdentifier d
    return some (← r.planDelete identifier (some d))
  | some s, some d =>
    match classify (some s) (some d) with
    | some .rename => do return some (← r.planRename s d)
    | _ => r.planUpdate s d

end Reconciler

end StoreSync
