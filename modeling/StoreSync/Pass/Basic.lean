import StoreSync.Pass.Report
import StoreSync.Pass.Unit

/-!
# Passes

A pass submits one unit for every pivot, then awaits its pool up to the task's time limit.  Once the
pass is cancelled it cancels its pool as well, and submits no more.

A clean pass has a single worker, so that it deletes in the order in which the destination listed
its pivots.  Its pool is awaited without limit: the time limit is a deadline for its units to begin.

The report is taken when the wait ends.  It says `failed` exactly if a lost connection is written
down then, whatever else happened; it does not look at the cancellation.
-/

namespace StoreSync

/-- A pass under way. -/
structure Pass where
  /-- What the report calls the pass. -/
  kind : PassKind
  /-- Whether its units delete what is gone from the source. -/
  isClean : Bool
  /-- When it was started. -/
  started : Nat
  /-- The pivots that are still to be submitted. -/
  pending : List Pivot
  pool : Pool Job
  ledger : Ledger
deriving DecidableEq

namespace Pass

variable {σ : Type}

/-- A pass that brings the counterparts of source pivots in line. -/
def reconciling (config : TaskConfig) (kind : PassKind) (pivots : List Pivot) (now : Nat) : Pass :=
  ⟨kind, false, now, pivots, .new config.workers pivots.length config.stopGrace, .new none⟩

/-- A pass over destination pivots that deletes what is gone from the source. -/
def cleaning (config : TaskConfig) (pivots : List Pivot) (now : Nat) : Pass :=
  ⟨.clean, true, now, pivots, .new 1 pivots.length config.stopGrace,
    .new (some (now + config.timeLimit))⟩

/-- How long the pool of a pass is awaited. -/
def limit (config : TaskConfig) (p : Pass) : Option Nat :=
  if p.isClean then none else some config.timeLimit

/-- The turn of the pass itself: submit a unit, or begin to wait. -/
def lead? (config : TaskConfig) (now : Nat) (p : Pass) : Option Pass :=
  match p.pending with
  | pivot :: rest =>
    let pool := if p.ledger.cancelled then p.pool.cancel else p.pool
    match pool.submit (.new pivot) with
    | .ok pool => some { p with pending := rest, pool := pool }
    | .error _ => some { p with pending := [], pool := pool }
  | [] =>
    if p.pool.stage = .accepting then
      some { p with pool := p.pool.await (p.limit config) now }
    else none

/-- The turn of a worker. -/
def turn? (t : Task σ) (now worker : Nat) (p : Pass) (w : World σ) :
    Option (Pass × World σ) :=
  (p.pool.turn? (t.units p.isClean) now worker (p.ledger, w)).map fun (pool, ledger, w) =>
    ({ p with pool := pool, ledger := ledger }, w)

/-- The first turn that is possible. -/
def step? (t : Task σ) (now : Nat) (p : Pass) (w : World σ) : Option (Pass × World σ) :=
  match p.lead? t.config now with
  | some p => some (p, w)
  | none =>
    (p.pool.step? (t.units p.isClean) now (p.ledger, w)).map fun (pool, ledger, w) =>
      ({ p with pool := pool, ledger := ledger }, w)

def wake? (t : Task σ) (p : Pass) : Option Nat := p.pool.wake? (t.units p.isClean)

/-- A bound on the number of turns that are left. -/
def remaining (t : Task σ) (p : Pass) : Nat :=
  10 * p.pending.length + p.pool.remaining (t.units p.isClean) + 1

/-- The report, once the wait for the pool has ended. -/
def report? (config : TaskConfig) (now : Nat) (p : Pass) : Option PassReport :=
  p.pool.outcome?.map fun complete =>
    let report := fun status error =>
      PassReport.mk config.name p.kind status p.ledger.counters error (now - p.started)
    match p.ledger.failure, complete && !p.ledger.late with
    | some failure, _ => report .failed (some failure)
    | none, false => report .incomplete (some (SyncError.timeout config.timeLimit).message)
    | none, true => report .completed none

/-- Whether nothing of the pass is left: the wait has ended and every worker has stopped. -/
def isOver (p : Pass) : Bool := p.pool.outcome?.isSome && p.pool.isStill

end Pass

end StoreSync
