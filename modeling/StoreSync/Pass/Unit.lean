import StoreSync.Counters
import StoreSync.Pool
import StoreSync.Task

/-!
# Units of a pass

A unit handles one pivot.  It asks the source, then the destination, plans a change from their
answers, and applies it.  Between any two of its steps other units may go on; nothing is shared
between them but the two stores and the ledger of their pass.

Every error ends here.  A lost connection is written down as the failure of the pass, and in a step
of its own the unit then cancels the pass; any other error is counted.  What a unit looks at before
it begins, and again when it leaves, is the cancellation and not the failure: a unit that looks in
between still begins.

A clean pass has a deadline, which its units look at before they begin.
-/

namespace StoreSync

/-- The stores that a task works on, and what was observed there. -/
structure World (σ : Type) where
  stores : σ
  /-- The records of changes, oldest first. -/
  audit : List AuditRecord
  /-- The questions to the evaluator, oldest first. -/
  calls : List EvaluatorCall
  /-- The time of day when the clock shows zero. -/
  epoch : Instant

/-- What the units of a pass share. -/
structure Ledger where
  counters : Counters
  /-- The first lost connection, which is what the report tells. -/
  failure : Option String
  /-- Whether the pass is cancelled, so that no unit begins any more. -/
  cancelled : Bool
  /-- From when on no unit begins. -/
  deadline : Option Nat
  /-- Whether a unit has come too late. -/
  late : Bool
deriving DecidableEq

namespace Ledger

def new (deadline : Option Nat) : Ledger := ⟨.zero, none, false, deadline, false⟩

/-- Write down how a unit failed. -/
def record (l : Ledger) (e : SyncError) : Ledger :=
  if e.isConnectionLost then { l with failure := l.failure <|> some e.message }
  else { l with counters := l.counters.recordError }

end Ledger

/-- How far a unit has come. -/
inductive Phase where
  /-- It has not looked whether it may begin. -/
  | waiting
  /-- It may begin, and is not yet counted. -/
  | admitted
  | counted
  | sourceAsked
  /-- The source's answer is known. -/
  | destinationAsked (source : Option Entity)
  | applying (change : Change)
  /-- It has written down a lost connection, and not yet cancelled the pass. -/
  | lost
  | ended
deriving DecidableEq

/-- Where a unit stands with its result. -/
def Phase.after : Except SyncError Unit → Phase
  | .error e => if e.isConnectionLost then .lost else .ended
  | .ok () => .ended

/-- A unit: its pivot, how far it has come, and up to when it waits. -/
structure Job where
  pivot : Pivot
  phase : Phase
  wake : Nat
deriving DecidableEq

namespace Job

def new (p : Pivot) : Job := ⟨p, .waiting, 0⟩

/-- A bound on the steps that are left. -/
def remaining (j : Job) : Nat :=
  match j.phase with
  | .waiting => 8
  | .admitted => 7
  | .counted => 6
  | .sourceAsked => 5
  | .destinationAsked _ => 4
  | .applying _ => 3
  | .lost => 2
  | .ended => 1

end Job

namespace Task

variable {σ : Type} (t : Task σ)

/-- What a step of a unit leads to. -/
abbrev Step (σ : Type) := Progress Job × Ledger × World σ

/-- A unit is through with its pivot. -/
def conclude (j : Job) (result : Except SyncError Unit) (l : Ledger) (w : World σ) :
    Step σ :=
  (.running { j with phase := .after result },
    match result with
    | .ok () => l
    | .error e => l.record e,
    w)

/-- An audit record of this task at a time of day. -/
def auditRecord (j : Job) (c : Change) (reason : Option Suppression) (time : Instant) :
    AuditRecord :=
  ⟨t.config.name, j.pivot.id, c, reason, time⟩

/-- Take up a plan: count it, then hold it back or go on to apply it. -/
def takeUp (now : Nat) (j : Job) (plan : Asked (Option PlannedChange)) (l : Ledger)
    (w : World σ) : Step σ :=
  let w := { w with calls := w.calls ++ plan.calls }
  match plan.result with
  | .error e => conclude j (.error e) l w
  | .ok none => conclude j (.ok ()) l w
  | .ok (some planned) =>
    let l := { l with counters := l.counters.recordAttempted }
    match t.suppression? planned with
    | some reason =>
      let r := t.auditRecord j planned.change (some reason) (w.epoch.addMilliseconds now)
      conclude j (.ok ()) l { w with audit := w.audit ++ [r] }
    | none => (.running { j with phase := .applying planned.change, wake := now }, l, w)

/-- Look whether the unit may begin. -/
def enter (now : Nat) (j : Job) (l : Ledger) (w : World σ) : Step σ :=
  if l.cancelled then (.ended true, l, w)
  else if isDue l.deadline now then
    (.running { j with phase := .ended }, { l with cancelled := true, late := true }, w)
  else (.running { j with phase := .admitted }, l, w)

/-- Ask the source for the record of the pivot. -/
def askSource (now : Nat) (j : Job) (l : Ledger) (w : World σ) : Step σ :=
  let (delay, stores) := t.source.requestFetch j.pivot w.stores
  (.running { j with phase := .sourceAsked, wake := now + delay }, l, { w with stores := stores })

/-- Ask the destination for the counterpart. -/
def askDestination (now : Nat) (j : Job) (known : Option Entity) (l : Ledger) (w : World σ) :
    Step σ :=
  let (delay, stores) := t.destination.requestFetch j.pivot w.stores
  (.running { j with phase := .destinationAsked known, wake := now + delay }, l,
    { w with stores := stores })

/-- The source has answered.  What a clean pass finds in the source stays. -/
def onSource (clean : Bool) (now : Nat) (j : Job) (l : Ledger) (w : World σ) : Step σ :=
  let (answer, stores) := t.source.answerFetch j.pivot w.stores
  let w := { w with stores := stores }
  match answer with
  | .error e => conclude j (.error (t.sourceError e)) l w
  | .ok found =>
    if clean then
      if found.isSome then conclude j (.ok ()) l w
      else if t.reconciler.deleteNeedsDestination then t.askDestination now j none l w
      else t.takeUp now j (t.planClean j.pivot none) l w
    else t.askDestination now j found l w

/-- The destination has answered. -/
def onDestination (clean : Bool) (now : Nat) (j : Job) (known : Option Entity) (l : Ledger)
    (w : World σ) : Step σ :=
  let (answer, stores) := t.destination.answerFetch j.pivot w.stores
  let w := { w with stores := stores }
  match t.checkDestination j.pivot answer with
  | .error e => conclude j (.error e) l w
  | .ok d =>
    t.takeUp now j (if clean then t.planClean j.pivot d else t.planSync j.pivot known d) l w

/-- Apply the change. -/
def carryOut (now : Nat) (j : Job) (c : Change) (l : Ledger) (w : World σ) : Step σ :=
  let time := w.epoch.addMilliseconds now
  let (answer, stores) := t.destination.apply c time w.stores
  let w := { w with stores := stores }
  match t.checkApplied c answer with
  | .error e => conclude j (.error e) l w
  | .ok () =>
    conclude j (.ok ()) { l with counters := l.counters.recordApplied c.modification }
      { w with audit := w.audit ++ [t.auditRecord j c none time] }

/-- One step of a unit.  A unit that leaves when the pass is cancelled has its pool cancelled. -/
def unitStep (clean : Bool) (now : Nat) (j : Job) (l : Ledger) (w : World σ) : Step σ :=
  match j.phase with
  | .waiting => enter now j l w
  | .admitted =>
    (.running { j with phase := .counted }, { l with counters := l.counters.recordSeen }, w)
  | .counted => t.askSource now j l w
  | .sourceAsked => t.onSource clean now j l w
  | .destinationAsked known => t.onDestination clean now j known l w
  | .applying c => t.carryOut now j c l w
  | .lost => (.running { j with phase := .ended }, { l with cancelled := true }, w)
  | .ended => (.ended l.cancelled, l, w)

/-- The units of a pass as a pool sees them. -/
def units (clean : Bool) : Behaviour Job (Ledger × World σ) where
  step now j s := t.unitStep clean now j s.1 s.2
  wake j := j.wake
  remaining j := j.remaining

end Task

end StoreSync
