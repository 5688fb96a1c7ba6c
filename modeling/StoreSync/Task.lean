import StoreSync.Audit
import StoreSync.Reconcile
import StoreSync.Script.Evaluator
import StoreSync.Store.Adapter

/-!
# Tasks

A task binds a configuration to the adapters of a source and a destination.  It plans the change
for one pivot from what the two stores answered; passes carry the plans out.
-/

namespace StoreSync

/-- A task between two stores within a state of type `σ`. -/
structure Task (σ : Type) where
  config : TaskConfig
  source : Adapter σ
  destination : Adapter σ
  evaluator : Evaluator

namespace Task

variable {σ : Type}

/-- The evaluator for the expressions of a configuration. -/
def evaluatorFor (config : TaskConfig) : Except SyncError Evaluator :=
  match config.library with
  | some text => do
    return Script.evaluator .standard (← Script.Library.read .standard text)
  | none => .ok (Script.evaluator .standard .empty)

/-- Bind a valid configuration to its stores. -/
def new (config : TaskConfig) (source destination : Adapter σ) :
    Except SyncError (Task σ) := do
  config.validate
  return ⟨config, source, destination, ← evaluatorFor config⟩

def reconciler (t : Task σ) : Reconciler := ⟨t.config.policy, t.evaluator⟩

/-! ## Errors of the stores -/

def sourceError (t : Task σ) (e : StoreError) : SyncError :=
  .ofStore t.source.name e (t.source.isConnectionLost e)

def destinationError (t : Task σ) (e : StoreError) : SyncError :=
  .ofStore t.destination.name e (t.destination.isConnectionLost e)

/-- An error of the source that concerns one pivot only. -/
def sourceRefusal (t : Task σ) (e : StoreError) : SyncError := .adapter t.source.name e

def destinationRefusal (t : Task σ) (e : StoreError) : SyncError :=
  .adapter t.destination.name e

/-- Take a record that the destination answered; it must have an identifier. -/
def checkDestination (t : Task σ) (p : Pivot) (answer : Except StoreError (Option Entity)) :
    Except SyncError (Option Entity) :=
  match answer with
  | .error e => .error (t.destinationError e)
  | .ok (some e) =>
    if e.identifier.isSome then .ok (some e)
    else .error (t.destinationRefusal
      (.invalidData ("entry fetched for pivot '" ++ p.id ++ "' has no identifier")))
  | .ok none => .ok none

/-! ## Plans -/

/-- The change that brings the destination in line with the source, which listed the pivot. -/
def planSync (t : Task σ) (p : Pivot) (source destination : Option Entity) :
    Asked (Option PlannedChange) :=
  match source with
  | none => .fail (t.sourceRefusal (.objectNotFound p.id))
  | some s => do
    let s ← t.reconciler.prepareSource s
    t.reconciler.computeChange (some s) destination

/-- The deletion of a record that is gone from the source.  The record was only fetched when the
condition needs it. -/
def planClean (t : Task σ) (p : Pivot) (destination : Option Entity) :
    Asked (Option PlannedChange) :=
  match t.reconciler.deleteNeedsDestination, destination with
  | true, none => return none
  | _, d => do
    let identifier := (d.bind (·.identifier)).getD p.id
    return some (← t.reconciler.planDelete identifier d)

/-- Why a planned change is held back, if it is. -/
def suppression? (t : Task σ) (planned : PlannedChange) : Option Suppression :=
  if !planned.allowed then some .condition
  else if t.config.dryRun.suppresses planned.change.modification then some .dryRun
  else none

/-- The answer to an attempt to apply a change. -/
def checkApplied (t : Task σ) (c : Change) (answer : Except StoreError Bool) :
    Except SyncError Unit :=
  match answer with
  | .ok true => .ok ()
  | .ok false => .error (t.destinationRefusal (.operationFailed
      (c.modification.name ++ " of '" ++ c.identifier ++ "' was rejected")))
  | .error e => .error (t.destinationError e)

end Task

end StoreSync
