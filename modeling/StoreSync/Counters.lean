import StoreSync.Change

/-!
# Counters of a pass

Counters only grow.  Those of several passes are merged by adding them up.
-/

namespace StoreSync

/-- What a pass has counted. -/
structure Counters where
  /-- Pivots whose unit has started. -/
  seen : Nat
  /-- Changes computed, applied or not. -/
  attempted : Nat
  applied : Nat
  /-- Units that failed without losing a connection. -/
  errored : Nat
  /-- Applied changes by kind; kinds that never occurred are absent. -/
  appliedBy : TextMap Nat
deriving DecidableEq

namespace Counters

def zero : Counters := ⟨0, 0, 0, 0, ∅⟩

instance : Inhabited Counters := ⟨zero⟩

def recordSeen (c : Counters) : Counters := { c with seen := c.seen + 1 }

def recordAttempted (c : Counters) : Counters := { c with attempted := c.attempted + 1 }

def recordError (c : Counters) : Counters := { c with errored := c.errored + 1 }

/-- Add to the count under a name. -/
def bump (m : TextMap Nat) (name : String) (n : Nat) : TextMap Nat :=
  m.insert name ((m.get? name).getD 0 + n)

def recordApplied (c : Counters) (m : Modification) : Counters :=
  { c with applied := c.applied + 1, appliedBy := bump c.appliedBy m.name 1 }

/-- Applied changes of one kind. -/
def appliedCount (c : Counters) (m : Modification) : Nat := (c.appliedBy.get? m.name).getD 0

/-- Add the counts of another pass. -/
def merge (a b : Counters) : Counters :=
  ⟨a.seen + b.seen, a.attempted + b.attempted, a.applied + b.applied, a.errored + b.errored,
    b.appliedBy.entries.foldl (fun m e => bump m e.1 e.2) a.appliedBy⟩

def toJson (c : Counters) : Json :=
  .object [("seen", .ofNat c.seen), ("attempted", .ofNat c.attempted),
    ("applied", .ofNat c.applied), ("errored", .ofNat c.errored),
    ("applied_by_modification",
      .object (c.appliedBy.entries.map fun e => (e.1, .ofNat e.2)))]

def ofJson? (j : Json) : Option Counters := do
  let r ← Record.open? ["seen", "attempted", "applied", "errored", "applied_by_modification"] j
  return ⟨← r.defaulted "seen" 0 DataTree.natural?,
    ← r.defaulted "attempted" 0 DataTree.natural?,
    ← r.defaulted "applied" 0 DataTree.natural?,
    ← r.defaulted "errored" 0 DataTree.natural?,
    ← r.defaulted "applied_by_modification" ∅ (DataTree.map? DataTree.natural?)⟩

end Counters

end StoreSync
