import StoreSync.Schedule
import StoreSync.SyncError

/-!
# Worker pools

A fixed number of workers take units from a bounded queue, in the order in which the units were
submitted.  A cancelled pool accepts nothing more and starts nothing more; a unit that is running
goes on to its end.

Whoever awaits a pool closes its queue and waits until every worker has stopped, up to a time
limit.  When the limit comes first, the pool is cancelled and the running units get a further
grace; those that outlive it go on, but nobody waits for them any more.

## Turns

The concurrency of a pool is a choice of turns.  In its turn a worker that waits looks at the
cancellation first, then at the queue, and a worker with a unit makes one step of it.  Every
sequence of turns is a run of the pool; `Pool.step?` chooses one of them.
-/

namespace StoreSync

/-- What a step of a unit leads to. -/
inductive Progress (υ : Type) where
  | running (unit : υ)
  /-- The unit is through; it may ask for the cancellation of its pool. -/
  | ended (cancel : Bool)
  /-- The unit is lost, and its worker with it. -/
  | crashed

/-- What units do to a state of type `σ`. -/
structure Behaviour (υ σ : Type) where
  step : Nat → υ → σ → Progress υ × σ
  /-- The time up to which a unit waits. -/
  wake : υ → Nat
  /-- A bound on the number of steps to the end of a unit. -/
  remaining : υ → Nat

/-- What a worker is doing. -/
inductive Worker (υ : Type) where
  | idle
  | running (unit : υ)
  | stopped
deriving DecidableEq, Repr

namespace Worker

variable {υ : Type}

def isStopped : Worker υ → Bool
  | .stopped => true
  | _ => false

def unit? : Worker υ → Option υ
  | .running u => some u
  | _ => none

end Worker

/-- Where a pool stands. -/
inductive Stage where
  /-- Units can be submitted. -/
  | accepting
  /-- The queue is closed, and the workers are awaited up to a deadline. -/
  | awaiting (deadline : Option Nat)
  /-- The time is up, and the running units are awaited up to a deadline. -/
  | draining (deadline : Nat)
  /-- Nobody waits any more; the pool was complete if every worker stopped in time. -/
  | ended (complete : Bool)
deriving DecidableEq, Repr

/-- A pool of workers over a queue of units. -/
structure Pool (υ : Type) where
  capacity : Nat
  /-- How long running units are awaited when the time is up. -/
  grace : Nat
  queue : List υ
  workers : List (Worker υ)
  cancelled : Bool
  stage : Stage
deriving DecidableEq

namespace Pool

variable {υ σ : Type}

/-- A pool with at least one worker and room for at least one unit. -/
def new (workers capacity grace : Nat) : Pool υ :=
  ⟨max capacity 1, grace, [], List.replicate (max workers 1) .idle, false, .accepting⟩

/-- How long running units are awaited, unless told otherwise. -/
def standardGrace : Nat := 5000

def isAccepting (p : Pool υ) : Bool := p.stage = .accepting && !p.cancelled

/-- Whether every worker has stopped. -/
def isStill (p : Pool υ) : Bool := p.workers.all Worker.isStopped

/-- Hand out no more units. -/
def cancel (p : Pool υ) : Pool υ := { p with cancelled := true }

/-- Queue a unit.  A queue that no worker reads any more is closed. -/
def submit (p : Pool υ) (u : υ) : Except SyncError (Pool υ) :=
  if p.cancelled then .error (.internal "worker pool is no longer accepting work")
  else if p.stage ≠ .accepting ∨ p.isStill then .error (.internal "worker pool queue is closed")
  else if p.capacity ≤ p.queue.length then .error (.internal "worker pool queue is full")
  else .ok { p with queue := p.queue ++ [u] }

/-- Close the queue and await the workers.  A pool that has been awaited before is complete. -/
def await (p : Pool υ) (limit : Option Nat) (now : Nat) : Pool υ :=
  match p.stage with
  | .ended _ => { p with stage := .ended true }
  | _ => { p with stage := .awaiting (limit.map (now + ·)) }

/-- How the last wait ended: whether the pool was complete. -/
def outcome? (p : Pool υ) : Option Bool :=
  match p.stage with
  | .ended complete => some complete
  | _ => none

/-! ## Turns -/

def setWorker (p : Pool υ) (w : Nat) (x : Worker υ) : Pool υ :=
  { p with workers := p.workers.set w x }

/-- The turn of a worker, if it can do anything. -/
def turn? (b : Behaviour υ σ) (now w : Nat) (p : Pool υ) (s : σ) : Option (Pool υ × σ) :=
  match p.workers[w]? with
  | some .idle =>
    if p.cancelled then some (p.setWorker w .stopped, s)
    else
      match p.queue with
      | u :: rest => some ({ p with queue := rest }.setWorker w (.running u), s)
      | [] => if p.stage = .accepting then none else some (p.setWorker w .stopped, s)
  | some (.running u) =>
    match b.step now u s with
    | (.running u, s) => some (p.setWorker w (.running u), s)
    | (.ended cancel, s) =>
      some ((if cancel then p.cancel else p).setWorker w .idle, s)
    | (.crashed, s) => some (p.setWorker w .stopped, s)
  | _ => none

/-- The turn of whoever awaits the pool. -/
def watch? (now : Nat) (p : Pool υ) : Option (Pool υ) :=
  match p.stage with
  | .awaiting deadline =>
    if p.isStill then some { p with stage := .ended true }
    else if isDue deadline now then
      some { p with cancelled := true, stage := .draining (now + p.grace) }
    else none
  | .draining deadline =>
    if p.isStill || deadline ≤ now then some { p with stage := .ended false } else none
  | _ => none

/-- Whether a worker has something to do. -/
def isReady (b : Behaviour υ σ) (now : Nat) (p : Pool υ) : Worker υ → Bool
  | .idle => p.cancelled || !p.queue.isEmpty || p.stage ≠ .accepting
  | .running u => b.wake u ≤ now
  | .stopped => false

/-- The first turn that is possible: that of the one who waits, else that of the first worker
that has something to do. -/
def step? (b : Behaviour υ σ) (now : Nat) (p : Pool υ) (s : σ) : Option (Pool υ × σ) :=
  match p.watch? now with
  | some p => some (p, s)
  | none =>
    match p.workers.findIdx? (p.isReady b now) with
    | some w => p.turn? b now w s
    | none => none

/-- The next deadline, or end of a wait of a unit. -/
def wake? (b : Behaviour υ σ) (p : Pool υ) : Option Nat :=
  let deadline := match p.stage with
    | .awaiting deadline => deadline
    | .draining deadline => some deadline
    | _ => none
  earlier deadline (earliest (p.workers.map fun w => w.unit?.map b.wake))

/-- A bound on the number of turns until nothing can go on. -/
def remaining (b : Behaviour υ σ) (p : Pool υ) : Nat :=
  p.queue.foldr (fun u n => b.remaining u + 1 + n) 0
    + p.workers.foldr (fun w n => ofWorker w + n) 0 + 3
where
  ofWorker : Worker υ → Nat
    | .idle => 1
    | .running u => b.remaining u + 1
    | .stopped => 0

/-! ## Running -/

/-- A pool with the state its units work on, as a process. -/
def process (b : Behaviour υ σ) : Process (Pool υ × σ) where
  step? now s := s.1.step? b now s.2
  wake? s := s.1.wake? b

/-- Enough for all turns, and for the movements of the clock between them. -/
def fuel (b : Behaviour υ σ) (p : Pool υ) : Nat := 2 * p.remaining b + 2

/-- Let time pass. -/
def wait (b : Behaviour υ σ) (duration : Nat) (t : Timed (Pool υ × σ)) : Timed (Pool υ × σ) :=
  (process b).run (fun _ => false) (some (t.time + duration)) (t.state.1.fuel b) t

/-- Await the pool to the end. -/
def join (b : Behaviour υ σ) (limit : Nat) (t : Timed (Pool υ × σ)) : Timed (Pool υ × σ) :=
  let p := t.state.1.await (some limit) t.time
  (process b).run (fun s => s.1.outcome?.isSome) none (p.fuel b) ⟨t.time, p, t.state.2⟩

end Pool

end StoreSync
