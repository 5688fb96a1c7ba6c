import StoreSync.Task

/-!
# Incremental polling

A poller asks a source for what changed since the last committed watermark; before the first
commit, and where the source has no change feed, it asks for everything.  The next watermark is
captured before the query, and a commit makes it effective.  A cycle that is not committed is
asked for again from the same point.
-/

namespace StoreSync

/-- A poller between two cycles. -/
structure Poller where
  /-- The attribute that is compared with the watermark. -/
  timestampAttribute : String
  /-- The pause, in milliseconds, after a cycle that brought nothing. -/
  interval : Nat
  /-- The last committed watermark. -/
  watermark : Option Instant
  /-- What a commit would make effective. -/
  pending : Option Instant
deriving DecidableEq

namespace Poller

def new (timestampAttribute : String) (interval : Nat) : Poller :=
  ⟨timestampAttribute, interval, none, none⟩

/-- The poller for a task's source. -/
def ofConfig (c : TaskConfig) : Poller := new c.timestampAttribute c.pollInterval

/-- The next watermark, which never lies before the last one. -/
def next (p : Poller) (now : Instant) : Instant :=
  match p.watermark with
  | some previous => max now previous
  | none => now

def capture (p : Poller) (now : Instant) : Poller := { p with pending := some (p.next now) }

/-- Ask for what changed since the last watermark. -/
def query {σ : Type} (p : Poller) (a : Adapter σ) (s : σ) :
    Except StoreError (List Pivot) × σ :=
  match p.watermark with
  | none => a.list s
  | some since =>
    if a.changeFeed then a.changed (.changedSince p.timestampAttribute since) s else a.list s

/-- The batch that the source answers.  After an error there is nothing to commit. -/
def answer {σ : Type} (p : Poller) (a : Adapter σ) (s : σ) :
    Except SyncError (List Pivot) × Poller × σ :=
  match p.query a s with
  | (.ok pivots, s) => (.ok pivots, p, s)
  | (.error e, s) =>
    (.error (.ofStore a.name e (a.isConnectionLost e)), { p with pending := none }, s)

/-- The next batch of pivots. -/
def nextBatch {σ : Type} (p : Poller) (a : Adapter σ) (now : Instant) (s : σ) :
    Except SyncError (List Pivot) × Poller × σ :=
  (p.capture now).answer a s

/-- Make the captured watermark effective. -/
def commit (p : Poller) : Poller :=
  match p.pending with
  | some time => { p with watermark := some time, pending := none }
  | none => p

end Poller

end StoreSync
