import StoreSync.Engine
import StoreSync.Poller

/-!
# Polling loops

A loop asks its poller for a batch and runs an incremental pass over it, again and again.  The
watermark is committed when the batch was empty or its pass completed, so that a cycle that
failed or ran out of time is repeated from the same point.  After a batch whose pass completed
the loop polls again at once, otherwise it pauses.

A graceful stop is seen between two cycles and at the end of a pause.  A forced stop interrupts
the pause; what is still running after a grace is given up.
-/

namespace StoreSync

/-- What a loop is doing. -/
inductive LoopStage where
  | polling
  /-- It waits for the report of the latest pass. -/
  | passing
  | pausing (deadline : Nat)
  | ended
deriving DecidableEq, Repr

/-- A polling loop with the engine that runs its passes. -/
structure PollingLoop (σ : Type) where
  engine : Engine σ
  poller : Poller
  /-- Number of passes that were run. -/
  cycles : Nat
  /-- The counters of all passes together. -/
  totals : Counters
  /-- Whether the loop is to end before the next cycle. -/
  stopping : Bool
  /-- Whether it is to end even in a pause. -/
  interrupted : Bool
  stage : LoopStage

namespace PollingLoop

variable {σ : Type}

/-- A loop that has not begun. -/
def new (config : TaskConfig) (engine : Engine σ) : PollingLoop σ :=
  ⟨engine, .ofConfig config, 0, .zero, false, false, .polling⟩

def isRunning (l : PollingLoop σ) : Bool := l.stage ≠ .ended

/-! ## Cycles -/

/-- Pause after a cycle. -/
def pause (now : Nat) (l : PollingLoop σ) : PollingLoop σ :=
  { l with stage := .pausing (now + l.poller.interval) }

/-- Go on with a batch, or pause without one. -/
def receive (t : Task σ) (now : Nat) (l : PollingLoop σ)
    (next : Except SyncError (List Pivot) × Poller × σ) : PollingLoop σ :=
  let (batch, poller, stores) := next
  let l := { l with poller := poller, engine.world.stores := stores }
  match batch with
  | .error _ => l.pause now
  | .ok [] => { l with poller := l.poller.commit }.pause now
  | .ok pivots =>
    { l with
      engine := l.engine.start (.reconciling t.config .incremental pivots now)
      stage := .passing }

/-- Begin a cycle. -/
def poll (t : Task σ) (now : Nat) (l : PollingLoop σ) : PollingLoop σ :=
  let world := l.engine.world
  l.receive t now
    (l.poller.nextBatch t.source (world.epoch.addMilliseconds now) world.stores)

/-- Take the report of the pass of this cycle. -/
def take (now : Nat) (report : PassReport) (l : PollingLoop σ) : PollingLoop σ :=
  let l := { l with
    engine := l.engine.settle, cycles := l.cycles + 1, totals := l.totals.merge report.counters }
  match report.status with
  | .completed => { l with poller := l.poller.commit, stage := .polling }
  | _ => l.pause now

/-- The turn of the loop itself. -/
def lead? (t : Task σ) (now : Nat) (l : PollingLoop σ) : Option (PollingLoop σ) :=
  match l.stage with
  | .polling => some (if l.stopping then { l with stage := .ended } else l.poll t now)
  | .passing => (l.engine.report? t now).map fun report => l.take now report
  | .pausing deadline =>
    if l.interrupted then some { l with stage := .ended }
    else if deadline ≤ now then some { l with stage := .polling }
    else none
  | .ended => none

/-! ## In time -/

/-- The loop with the passes it runs, as a process. -/
def process (t : Task σ) : Process (PollingLoop σ) where
  step? now l :=
    match l.lead? t now with
    | some l => some l
    | none => (l.engine.step? t now).map fun e => { l with engine := e }
  wake? l :=
    earlier (match l.stage with
      | .pausing deadline => some deadline
      | _ => none) (l.engine.wake? t)

/-- Let time pass.  The number bounds the steps, of which a loop can make any number at once. -/
def wait (t : Task σ) (fuel duration : Nat) (l : Timed (PollingLoop σ)) :
    Timed (PollingLoop σ) :=
  (process t).run (fun _ => false) (some (l.time + duration)) fuel l

/-- Let time pass until something has happened. -/
def waitUntil (t : Task σ) (fuel : Nat) (happened : PollingLoop σ → Bool)
    (l : Timed (PollingLoop σ)) : Timed (PollingLoop σ) :=
  (process t).run happened none fuel l

/-- Ask the loop to stop. -/
def requestStop (forced : Bool) (l : PollingLoop σ) : PollingLoop σ :=
  { l with stopping := true, interrupted := l.interrupted || forced }

/-- Give up the loop, and the units of its present pass with it. -/
def giveUp (l : PollingLoop σ) : PollingLoop σ :=
  let passes := if l.stage = .passing then l.engine.passes.tail else l.engine.passes
  { l with stage := .ended, engine.passes := passes }

/-- Wait until the loop has ended. -/
def join (t : Task σ) (fuel : Nat) (l : Timed (PollingLoop σ)) : Timed (PollingLoop σ) :=
  l |> waitUntil t fuel (!·.isRunning)

/-- Stop the loop and wait for it; a forced stop waits for a limited time. -/
def stop (t : Task σ) (fuel : Nat) (forced : Bool) (l : Timed (PollingLoop σ)) :
    Timed (PollingLoop σ) :=
  let l := { l with state := l.state.requestStop forced }
  if forced then
    let l := (process t).run (!·.isRunning) (some (l.time + t.config.stopGrace)) fuel l
    if l.state.isRunning then { l with state := l.state.giveUp } else l
  else l |> join t fuel

end PollingLoop

end StoreSync
