import StoreSync.PollingLoop

/-!
# Polling loops side by side

Several loops run over the same stores.  Every turn is the turn of one loop, which finds the
world as the loop before it left it.  A loop polls at most once in a millisecond, so that a
source which always answers with changes keeps neither the clock nor the other loops from
moving.
-/

namespace StoreSync

/-- One of several loops. -/
structure GroupMember (σ : Type) where
  task : Task σ
  loop : PollingLoop σ
  /-- When it polled last. -/
  polled : Option Nat

/-- Loops with the world they share. -/
structure PollingGroup (σ : Type) where
  members : List (GroupMember σ)
  world : World σ

namespace GroupMember

variable {σ : Type}

/-- Whether the loop is about to poll. -/
def isPolling (m : GroupMember σ) : Bool := m.loop.stage = .polling && !m.loop.stopping

/-- A turn of the loop, in the world as it is. -/
def step? (now : Nat) (w : World σ) (m : GroupMember σ) : Option (GroupMember σ × World σ) :=
  let l := { m.loop with engine.world := w }
  if m.isPolling && m.polled = some now then
    (l.engine.step? m.task now).map fun e => ({ m with loop.engine := e }, e.world)
  else
    ((PollingLoop.process m.task).step? now l).map fun l =>
      ({ m with loop := l, polled := if m.isPolling then some now else m.polled }, l.engine.world)

def wake? (m : GroupMember σ) : Option Nat :=
  let next := (PollingLoop.process m.task).wake? m.loop
  if m.isPolling then earlier (m.polled.map (· + 1)) next else next

/-- Whether the loop has been through a cycle. -/
def hasCycled (m : GroupMember σ) : Bool :=
  0 < m.loop.cycles || match m.loop.stage with
    | .pausing _ => true
    | _ => false

end GroupMember

namespace PollingGroup

variable {σ : Type}

/-- Loops that have not begun, one for each task. -/
def new (tasks : List (Task σ)) (stores : σ) (epoch : Instant) : PollingGroup σ :=
  let engine := Engine.new stores epoch
  ⟨tasks.map fun t => ⟨t, .new t.config engine, none⟩, engine.world⟩

/-- The first turn that is possible in one of several loops. -/
def stepAmong? (now : Nat) :
    List (GroupMember σ) → World σ → Option (List (GroupMember σ) × World σ)
  | [], _ => none
  | m :: rest, w =>
    match m.step? now w with
    | some (m, w) => some (m :: rest, w)
    | none => (stepAmong? now rest w).map fun (rest, w) => (m :: rest, w)

/-- The loops as a process. -/
def process : Process (PollingGroup σ) where
  step? now g := (stepAmong? now g.members g.world).map fun (members, w) => ⟨members, w⟩
  wake? g := earliest (g.members.map (·.wake?))

/-- Whether every loop has been through a cycle. -/
def hasCycled (g : PollingGroup σ) : Bool := g.members.all (·.hasCycled)

/-- Change one loop. -/
def modify (i : Nat) (f : PollingLoop σ → PollingLoop σ) (g : PollingGroup σ) : PollingGroup σ :=
  { g with members := g.members.modify i fun m => { m with loop := f m.loop } }

def isRunning (i : Nat) (g : PollingGroup σ) : Bool :=
  (g.members[i]?).any (·.loop.isRunning)

/-- Stop one loop by force while the others go on.  The number bounds the steps. -/
def stop (fuel i : Nat) (g : Timed (PollingGroup σ)) : Timed (PollingGroup σ) :=
  match g.state.members[i]? with
  | none => g
  | some m =>
    let asked := { g with state := g.state.modify i (·.requestStop true) }
    let after := process.run (!·.isRunning i) (some (g.time + m.task.config.stopGrace)) fuel asked
    if after.state.isRunning i then { after with state := after.state.modify i (·.giveUp) }
    else after

end PollingGroup

end StoreSync
