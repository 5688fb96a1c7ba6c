import StoreSync.Change
import StoreSync.Time

/-!
# Audit records

One record for every change that was applied or held back.
-/

namespace StoreSync

/-- Why a computed change was not applied. -/
inductive Suppression where
  /-- The task does not apply changes of this kind. -/
  | dryRun
  /-- The condition for this kind of change is false. -/
  | condition
deriving DecidableEq, Repr

namespace Suppression

def name : Suppression → String
  | .dryRun => "dry_run"
  | .condition => "condition"

def ofJson? (j : Json) : Option Suppression := do
  match ← DataTree.alternative? j with
  | "dry_run" => some .dryRun
  | "condition" => some .condition
  | _ => none

end Suppression

/-- What became of a computed change. -/
structure AuditRecord where
  task : String
  pivot : String
  change : Change
  /-- None when the change was applied. -/
  suppressed : Option Suppression
  time : Instant
deriving DecidableEq

namespace AuditRecord

def applied (r : AuditRecord) : Bool := r.suppressed.isNone

/-- The record without its time. -/
def toJson (r : AuditRecord) : Json :=
  .object ([("task", .string r.task), ("pivot", .string r.pivot),
    ("modification", r.change.modification.toJson),
    ("identifier", .string r.change.identifier),
    ("operations", .array (r.change.operations.map AttributeOperation.toJson)),
    ("applied", .boolean r.applied)] ++
    (match r.change.newIdentifier with
      | some n => [("new_identifier", .string n)]
      | none => []) ++
    (match r.suppressed with
      | some s => [("suppressed", .string s.name)]
      | none => []))

end AuditRecord

end StoreSync
