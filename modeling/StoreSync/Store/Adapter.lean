import StoreSync.Store.Memory

/-!
# Store adapters

The engine sees a store through an adapter: one operation for each request, over a state that
holds at least the store.  Two adapters over one state may stand for different stores, or for the
same one.  A fetch is two steps, the request and the answer, and the request says after how many
milliseconds the answer comes; what other parties do in between may change the answer.
-/

namespace StoreSync

/-- A store as the engine uses it, within a state of type `σ`. -/
structure Adapter (σ : Type) where
  name : String
  /-- Whether an error of this store means that its connection is gone. -/
  isConnectionLost : StoreError → Bool
  /-- Whether changed entries can be listed. -/
  changeFeed : Bool
  list : σ → Except StoreError (List Pivot) × σ
  changed : Filter → σ → Except StoreError (List Pivot) × σ
  /-- Send a fetch request; the number is the delay of the answer. -/
  requestFetch : Pivot → σ → Nat × σ
  answerFetch : Pivot → σ → Except StoreError (Option Entity) × σ
  /-- Apply a change at a time; `false` is a refusal. -/
  apply : Change → Instant → σ → Except StoreError Bool × σ

namespace Adapter

variable {σ τ : Type}

/-- The same store as a part of a larger state. -/
def within (part : τ → σ) (replace : σ → τ → τ) (a : Adapter σ) : Adapter τ where
  name := a.name
  isConnectionLost := a.isConnectionLost
  changeFeed := a.changeFeed
  list s := onPart part replace s a.list
  changed f s := onPart part replace s (a.changed f)
  requestFetch p s := onPart part replace s (a.requestFetch p)
  answerFetch p s := onPart part replace s (a.answerFetch p)
  apply c now s := onPart part replace s (a.apply c now)
where
  /-- Work on the part. -/
  onPart {α : Type} (part : τ → σ) (replace : σ → τ → τ) (s : τ) (f : σ → α × σ) : α × τ :=
    let (x, inner) := f (part s)
    (x, replace inner s)

/-- The first of two stores. -/
def first (a : Adapter σ) : Adapter (σ × τ) := a.within Prod.fst fun s p => (s, p.2)

/-- The second of two stores. -/
def second (a : Adapter σ) : Adapter (τ × σ) := a.within Prod.snd fun s p => (p.1, s)

end Adapter

namespace MemoryStore

/-- A memory store answers at once and from its present entries. -/
def adapter (name : String) (changeFeed : Bool) : Adapter MemoryStore where
  name := name
  isConnectionLost := StoreError.isConnectionLost
  changeFeed := changeFeed
  list s := (s.list, s)
  changed filter s := (s.changed filter, s)
  requestFetch _ s := (0, s)
  answerFetch p s := (s.fetch p, s)
  apply c now s :=
    match s.apply c now with
    | .ok s' => (.ok true, s')
    | .error e => (.error e, s)

end MemoryStore

end StoreSync
