/-!
# Virtual time

Passes, pools and polling loops are state machines that wait: for the answer of a store, for a
deadline, or for one another.  A process says what can go on at a given time, and when something
can go on next.  Running a process takes every step that is possible at the present time before
the clock moves, and moves the clock straight to the next time of interest.

Times are milliseconds.
-/

namespace StoreSync

/-- A state machine in time. -/
structure Process (σ : Type) where
  /-- One step of what can go on at a time. -/
  step? : Nat → σ → Option σ
  /-- The earliest time at which something that waits now can go on. -/
  wake? : σ → Option Nat

/-- A state at a time. -/
structure Timed (σ : Type) where
  time : Nat
  state : σ

/-- The earlier of two times, where a missing one never comes. -/
def earlier : Option Nat → Option Nat → Option Nat
  | some a, some b => some (min a b)
  | none, b => b
  | a, none => a

/-- The earliest of several times. -/
def earliest (times : List (Option Nat)) : Option Nat := times.foldr earlier none

/-- Whether a deadline has come. -/
def isDue (deadline : Option Nat) (time : Nat) : Bool :=
  match deadline with
  | some d => d ≤ time
  | none => false

namespace Process

variable {σ : Type}

/-- Run until the state is as wanted, the deadline has come, or nothing can ever go on.  A
deadline that has come already lets nothing go on.  The first argument bounds the number of steps
and movements of the clock. -/
def run (p : Process σ) (wanted : σ → Bool) (deadline : Option Nat) :
    Nat → Timed σ → Timed σ
  | 0, t => t
  | fuel + 1, t =>
    if wanted t.state || isDue deadline t.time then t
    else
      match p.step? t.time t.state with
      | some s => run p wanted deadline fuel ⟨t.time, s⟩
      | none =>
        match earlier deadline (p.wake? t.state) with
        | some time => run p wanted deadline fuel ⟨max t.time time, t.state⟩
        | none => t

end Process

end StoreSync
