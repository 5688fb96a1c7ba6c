import StoreSync.Counters

/-!
# Reports of passes

A report says what a pass went over, how it ended and what it has counted.
-/

namespace StoreSync

/-- What a pass goes over. -/
inductive PassKind where
  /-- All pivots of the source. -/
  | full
  /-- The pivots of the destination that are gone from the source. -/
  | clean
  /-- The changed pivots of the source. -/
  | incremental
deriving DecidableEq, Repr

def PassKind.name : PassKind → String
  | .full => "sync"
  | .clean => "clean"
  | .incremental => "incremental"

def PassKind.ofName? : String → Option PassKind
  | "sync" => some .full
  | "clean" => some .clean
  | "incremental" => some .incremental
  | _ => none

/-- How a pass ended. -/
inductive PassStatus where
  /-- Every pivot was processed; units may have failed. -/
  | completed
  /-- The time was up first.  What was applied stays. -/
  | incomplete
  /-- A connection was lost, or there was nothing to start from. -/
  | failed
deriving DecidableEq, Repr

def PassStatus.name : PassStatus → String
  | .completed => "completed"
  | .incomplete => "incomplete"
  | .failed => "failed"

def PassStatus.ofName? : String → Option PassStatus
  | "completed" => some .completed
  | "incomplete" => some .incomplete
  | "failed" => some .failed
  | _ => none

/-- What is reported of a pass. -/
structure PassReport where
  task : String
  kind : PassKind
  status : PassStatus
  counters : Counters
  /-- Why the pass did not complete. -/
  error : Option String
  /-- How long the pass took, in milliseconds. -/
  duration : Nat
deriving DecidableEq

namespace PassReport

/-- Completed, and no unit failed. -/
def isSuccess (r : PassReport) : Bool := r.status = .completed && r.counters.errored = 0

/-- The report without its duration. -/
def toJson (r : PassReport) : Json :=
  .object ([("task", .string r.task), ("kind", .string r.kind.name),
    ("status", .string r.status.name), ("counters", r.counters.toJson)] ++
    match r.error with
    | some e => [("error", .string e)]
    | none => [])

def ofJson? (j : Json) : Option PassReport := do
  let r ← Record.open? ["task", "kind", "status", "counters", "error", "duration_ms"] j
  return ⟨← r.required "task" DataTree.text?,
    ← r.required "kind" fun k => DataTree.alternative? k >>= PassKind.ofName?,
    ← r.required "status" fun s => DataTree.alternative? s >>= PassStatus.ofName?,
    ← r.required "counters" Counters.ofJson?,
    ← r.optionalDefaulted "error" DataTree.text?,
    ← r.required "duration_ms" DataTree.natural?⟩

end PassReport

end StoreSync
