import StoreSync.Pool

/-!
# Units that sleep

The simplest units of a pool sleep for a while and then write down that they are through.
-/

namespace StoreSync

/-- A unit that sleeps. -/
structure Sleeper where
  name : String
  /-- For how many milliseconds it sleeps. -/
  duration : Nat
  /-- Whether it has its pool cancelled at the end. -/
  cancels : Bool
  /-- Whether it is lost when it wakes up. -/
  crashes : Bool
  /-- When it wakes up, once it has begun. -/
  wake : Option Nat
deriving DecidableEq, Repr

namespace Sleeper

/-- The names of the units that are through, with their times. -/
abbrev Done := List (String × Nat)

def behaviour : Behaviour Sleeper Done where
  step now u done :=
    match u.wake with
    | none => (.running { u with wake := some (now + u.duration) }, done)
    | some _ =>
      if u.crashes then (.crashed, done) else (.ended u.cancels, done ++ [(u.name, now)])
  wake u := u.wake.getD 0
  remaining u := if u.wake.isSome then 1 else 2

end Sleeper

end StoreSync
