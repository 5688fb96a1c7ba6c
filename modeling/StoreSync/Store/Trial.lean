import StoreSync.Store.Adapter

/-!
# Stores on trial

To see how the engine deals with a store that fails, a memory store is put behind an adapter
that fails as arranged beforehand and keeps the requests it was sent.  A failing request is kept
like any other.
-/

namespace StoreSync

/-- What a store was asked for. -/
inductive StoreRequest where
  | list
  | changed (filter : String)
  | fetch (pivot : String)
  | apply (modification : Modification) (identifier : String)
deriving DecidableEq, Repr

/-- The request in words. -/
def StoreRequest.words : StoreRequest → List String
  | .list => ["list"]
  | .changed filter => ["changed", filter]
  | .fetch pivot => ["fetch", pivot]
  | .apply m identifier => ["apply", m.name, identifier]

/-- How a store is to fail. -/
structure StoreFaults where
  /-- The answer to every listing. -/
  listing : Option StoreError
  /-- How long a fetch takes, in milliseconds. -/
  fetchDelay : Nat
  /-- The answers to fetches of some pivots. -/
  fetching : List (String × StoreError)
  /-- Pivots without record. -/
  missing : List String
  /-- After how many changes the connection is gone. -/
  loseAfter : Option Nat
  /-- The answers to changes of some records. -/
  applying : List (String × StoreError)
  /-- Records whose changes are refused, in any case. -/
  rejected : List String
  /-- The codes of further errors that mean a lost connection. -/
  lostCodes : List String
deriving DecidableEq, Repr

/-- A store with the requests it was sent. -/
structure TrialStore where
  store : MemoryStore
  /-- The latest request stands first. -/
  requests : List StoreRequest
  /-- How many changes were asked for. -/
  attempts : Nat

namespace TrialStore

/-- A store that has not been asked for anything. -/
def new (store : MemoryStore) : TrialStore := ⟨store, [], 0⟩

def keep (r : StoreRequest) (s : TrialStore) : TrialStore := { s with requests := r :: s.requests }

/-- The answer of the store unless a fault stands in its place. -/
def orFault {α : Type} (fault : Option StoreError) (answer : Except StoreError α) :
    Except StoreError α :=
  match fault with
  | some e => .error e
  | none => answer

def answerFetch (f : StoreFaults) (p : Pivot) (s : TrialStore) :
    Except StoreError (Option Entity) :=
  orFault (f.fetching.lookup p.id) (if f.missing.contains p.id then .ok none else s.store.fetch p)

def apply (f : StoreFaults) (c : Change) (now : Instant) (s : TrialStore) :
    Except StoreError Bool × TrialStore :=
  let before := s.attempts
  let s := { s.keep (.apply c.modification c.identifier) with attempts := before + 1 }
  if f.loseAfter.any (· ≤ before) then (.error (.connectionFailed "server went away"), s)
  else
    match f.applying.lookup c.identifier with
    | some e => (.error e, s)
    | none =>
      if f.rejected.any (Text.sameFolded · c.identifier) then (.ok false, s)
      else
        match s.store.apply c now with
        | .ok store => (.ok true, { s with store := store })
        | .error e => (.error e, s)

def adapter (name : String) (changeFeed : Bool) (f : StoreFaults) : Adapter TrialStore where
  name := name
  isConnectionLost e := e.isConnectionLost || f.lostCodes.contains e.code
  changeFeed := changeFeed
  list s := (orFault f.listing s.store.list, s.keep .list)
  changed filter s := (orFault f.listing (s.store.changed filter), s.keep (.changed filter.text))
  requestFetch p s := (f.fetchDelay, s.keep (.fetch p.id))
  answerFetch p s := (s.answerFetch f p, s)
  apply c now s := s.apply f c now

end TrialStore

/-- A store that lists pivots and holds nothing behind them. -/
def Adapter.ofPivots {σ : Type} (name : String) (pivots : List Pivot) : Adapter σ where
  name := name
  isConnectionLost := StoreError.isConnectionLost
  changeFeed := false
  list s := (.ok pivots, s)
  changed _ s := (.error (.unsupported "list_changed_pivots"), s)
  requestFetch _ s := (0, s)
  answerFetch _ s := (.ok none, s)
  apply _ _ s := (.ok false, s)

end StoreSync
