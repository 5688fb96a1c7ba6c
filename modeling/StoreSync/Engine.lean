import StoreSync.Pass.Basic

/-!
# The engine

The engine holds the passes of a task that are under way: the latest, which somebody waits for,
and earlier ones whose last units have outlived the wait.  It runs them in virtual time.
-/

namespace StoreSync

/-- The passes of a task, the latest first, with the world they work on. -/
structure Engine (σ : Type) where
  passes : List Pass
  world : World σ

namespace Engine

variable {σ : Type}

/-- An engine that has not done anything yet. -/
def new (stores : σ) (epoch : Instant) : Engine σ := ⟨[], ⟨stores, [], [], epoch⟩⟩

/-- The first turn that is possible in one of several passes. -/
def stepAmong? (t : Task σ) (now : Nat) :
    List Pass → World σ → Option (List Pass × World σ)
  | [], _ => none
  | p :: rest, w =>
    match p.step? t now w with
    | some (p, w) => some (p :: rest, w)
    | none => (stepAmong? t now rest w).map fun (rest, w) => (p :: rest, w)

def step? (t : Task σ) (now : Nat) (e : Engine σ) : Option (Engine σ) :=
  (stepAmong? t now e.passes e.world).map fun (passes, w) => ⟨passes, w⟩

def wake? (t : Task σ) (e : Engine σ) : Option Nat :=
  earliest (e.passes.map (Pass.wake? t))

/-- The engine of a task as a process. -/
def process (t : Task σ) : Process (Engine σ) := ⟨step? t, wake? t⟩

/-- Enough for all turns that are left, and for the movements of the clock between them. -/
def fuel (t : Task σ) (e : Engine σ) : Nat :=
  2 * e.passes.foldr (fun p n => p.remaining t + n) 0 + 2

/-- Let time pass. -/
def wait (t : Task σ) (duration : Nat) (e : Timed (Engine σ)) : Timed (Engine σ) :=
  (process t).run (fun _ => false) (some (e.time + duration)) (e.state.fuel t) e

/-! ## Whole passes -/

/-- Start a pass. -/
def start (p : Pass) (e : Engine σ) : Engine σ := { e with passes := p :: e.passes }

/-- The report of the latest pass, once its wait has ended. -/
def report? (t : Task σ) (now : Nat) (e : Engine σ) : Option PassReport :=
  e.passes.head? >>= (·.report? t.config now)

/-- Forget the passes of which nothing is left. -/
def settle (e : Engine σ) : Engine σ :=
  { e with passes := e.passes.filter (!·.isOver) }

/-- The report of a pass that ended before it started any unit. -/
def earlyReport (t : Task σ) (kind : PassKind) (error : SyncError) : PassReport :=
  ⟨t.config.name, kind, .failed, .zero, some error.message, 0⟩

/-- Run a pass up to its report. -/
def runPass (t : Task σ) (p : Pass) (e : Timed (Engine σ)) :
    PassReport × Timed (Engine σ) :=
  let begun := e.state.start p
  let after := (process t).run (fun e => e.passes.head?.any (·.pool.outcome?.isSome)) none
    (begun.fuel t) ⟨e.time, begun⟩
  let report := (after.state.report? t after.time).getD
    (earlyReport t p.kind (.internal "the pass did not end"))
  (report, ⟨after.time, after.state.settle⟩)

/-- Bring the counterparts of source pivots in line. -/
def reconcile (t : Task σ) (kind : PassKind) (pivots : List Pivot) (e : Timed (Engine σ)) :
    PassReport × Timed (Engine σ) :=
  runPass t (.reconciling t.config kind pivots e.time) e

/-- Run a full pass over the pivots of the source. -/
def sync (t : Task σ) (e : Timed (Engine σ)) : PassReport × Timed (Engine σ) :=
  let (listed, stores) := t.source.list e.state.world.stores
  let e := { e with state.world.stores := stores }
  match listed with
  | .error error => (earlyReport t .full (t.sourceError error), e)
  | .ok [] => (earlyReport t .full (.emptySource t.source.name), e)
  | .ok pivots => reconcile t .full pivots e

/-- Run a clean pass over the pivots of the destination. -/
def clean (t : Task σ) (e : Timed (Engine σ)) : PassReport × Timed (Engine σ) :=
  let (listed, stores) := t.destination.list e.state.world.stores
  let e := { e with state.world.stores := stores }
  match listed with
  | .error error => (earlyReport t .clean (t.destinationError error), e)
  | .ok pivots => runPass t (.cleaning t.config pivots e.time) e

end Engine

end StoreSync
