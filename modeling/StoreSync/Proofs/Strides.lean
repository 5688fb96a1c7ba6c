import Mathlib.Data.List.Perm.Basic
import StoreSync.Pass.Basic
import StoreSync.Proofs.Fates
import StoreSync.Proofs.Runs

/-!
# The steps of a unit between two memory stores

Whatever the units of a pass do to its counters and its audit is a list of marks (`Mark`), and the
order of the marks does not matter: `Mark.foldl_count_of_perm` for the counters, and for the audit
a permutation of the marks is one of the records.

`Task.stride` is the inversion of a unit's step.  A unit that finds the stores as far as it depends
on them in their initial state, in whatever state they are otherwise, either goes on, or meets its
fate and is through, or leaves its worker.  Each case says which marks the step adds, so that the
marks of a unit that is through are those of its fate.
-/

namespace StoreSync

/-! ## Marks -/

/-- What is counted or recorded of a unit. -/
inductive Mark where
  | seen
  | attempted
  | errored
  | held (pivot : String) (c : Change) (reason : Suppression)
  | applied (pivot : String) (c : Change)
deriving DecidableEq

namespace Mark

def count (n : Counters) : Mark → Counters
  | .seen => n.recordSeen
  | .attempted => n.recordAttempted
  | .errored => n.recordError
  | .held .. => n
  | .applied _ c => n.recordApplied c.modification

/-- The audit record of a mark, without its time. -/
def record? (task : String) : Mark → Option (String × String × Change × Option Suppression)
  | .held pivot c reason => some (task, pivot, c, some reason)
  | .applied pivot c => some (task, pivot, c, none)
  | _ => none

lemma bump_comm (m : TextMap Nat) (a b : String) (i j : Nat) :
    Counters.bump (Counters.bump m a i) b j = Counters.bump (Counters.bump m b j) a i := by
  refine TextMap.ext_get? fun k => ?_
  simp only [Counters.bump, TextMap.get?_insert]
  by_cases hab : a = b
  · subst hab
    by_cases hk : a = k
    · simp [hk]
      omega
    · simp [hk]
  · by_cases hak : a = k
    · subst hak
      simp [Ne.symm hab]
    · by_cases hbk : b = k
      · subst hbk
        simp [hab]
      · simp [hak, hbk]

instance : RightCommutative count := by
  constructor
  intro n a b
  cases a <;> cases b <;>
    simp [count, Counters.recordSeen, Counters.recordAttempted, Counters.recordError,
      Counters.recordApplied, bump_comm]

/-- Counters do not depend on the order in which things are counted. -/
lemma foldl_count_of_perm {marks marks' : List Mark} (h : marks.Perm marks') (n : Counters) :
    marks.foldl count n = marks'.foldl count n :=
  h.foldl_eq n

end Mark

/-- The marks of a unit that has met its fate. -/
def Fate.marks (pivot : String) : Fate → List Mark
  | .failed _ => [.seen, .errored]
  | .unchanged => [.seen]
  | .held c reason => [.seen, .attempted, .held pivot c reason]
  | .refused _ => [.seen, .attempted, .errored]
  | .applied c => [.seen, .attempted, .applied pivot c]

/-- The marks of a unit that has not yet met its fate. -/
def Job.marks (j : Job) : List Mark :=
  match j.phase with
  | .waiting | .admitted | .lost | .ended => []
  | .counted | .sourceAsked | .destinationAsked _ => [.seen]
  | .applying _ => [.seen, .attempted]

/-- What a fate does to a pair of stores. -/
def Fate.Lands (f : Fate) (s s' : MemoryStore × MemoryStore) : Prop :=
  match f with
  | .applied c =>
    ∃ entries, s' = (s.1, { s.2 with entries := entries, applied := s.2.applied + 1 }) ∧
      c.enact s.2.records = some (entries.map (·.entity))
  | _ => s' = s

namespace Task

variable {σ : Type}

/-- The marks of pivots that have met their fates. -/
def marks (t : Task σ) (src dst : MemoryStore) (ps : List Pivot) : List Mark :=
  ps.flatMap fun p => (t.fate src dst p).marks p.id

@[simp] lemma marks_cons (t : Task σ) (src dst : MemoryStore) (p : Pivot) (ps : List Pivot) :
    t.marks src dst (p :: ps) = (t.fate src dst p).marks p.id ++ t.marks src dst ps := rfl

lemma marks_of_perm (t : Task σ) (src dst : MemoryStore) {ps ps' : List Pivot} (h : ps.Perm ps') :
    (t.marks src dst ps).Perm (t.marks src dst ps') :=
  h.flatMap_right _

/-- A step adds marks to the ledger and the audit, and nothing else changes in the ledger. -/
structure Adds (t : Task σ) (new : List Mark) (l : Ledger) (w : World σ) (l' : Ledger)
    (w' : World σ) : Prop where
  ledger : l' = { l with counters := new.foldl Mark.count l.counters }
  audit : w'.audit.map AuditRecord.untimed =
    w.audit.map AuditRecord.untimed ++ new.filterMap (Mark.record? t.config.name)

lemma Adds.nil {t : Task σ} {l : Ledger} {w w' : World σ} (h : w'.audit = w.audit) :
    t.Adds [] l w l w' :=
  ⟨rfl, by simp [h]⟩

/-- What a unit knows is what the initial stores say, and it has lost no connection. -/
def Informed (t : Task σ) (src dst : MemoryStore) (j : Job) : Prop :=
  match j.phase with
  | .destinationAsked known => known = (src.found? j.pivot).map (·.2)
  | .applying c => t.fate src dst j.pivot = .applied c ∨ t.fate src dst j.pivot = .refused c
  | .lost => False
  | _ => True

/-- The task works from one store in memory to another. -/
structure Joins (t : Task (MemoryStore × MemoryStore)) (src dst : MemoryStore) : Prop where
  source : t.source = (MemoryStore.adapter src.name src.changeFeed).first
  destination : t.destination = (MemoryStore.adapter dst.name dst.changeFeed).second

/-- What a step of a unit is when the stores are, as far as the unit depends on them, the initial
ones. -/
inductive Stride (t : Task (MemoryStore × MemoryStore)) (src dst : MemoryStore) (j : Job)
    (l : Ledger) (w : World (MemoryStore × MemoryStore)) :
    Step (MemoryStore × MemoryStore) → Prop
  | go {j' : Job} {l' : Ledger} {w' : World (MemoryStore × MemoryStore)} (new : List Mark)
      (hpivot : j'.pivot = j.pivot) (hopen : j.phase ≠ .ended) (hopen' : j'.phase ≠ .ended)
      (hless : j'.remaining < j.remaining) (hinformed : t.Informed src dst j')
      (hmarks : j'.marks = j.marks ++ new) (hstores : w'.stores = w.stores)
      (hadds : t.Adds new l w l' w') :
      Stride t src dst j l w (.running j', l', w')
  | settle {j' : Job} {l' : Ledger} {w' : World (MemoryStore × MemoryStore)} (new : List Mark)
      (hopen : j.phase ≠ .ended) (hended : j'.phase = .ended) (hless : j'.remaining < j.remaining)
      (hmarks : (t.fate src dst j.pivot).marks j.pivot.id = j.marks ++ new)
      (hstores : (t.fate src dst j.pivot).Lands w.stores w'.stores)
      (hadds : t.Adds new l w l' w') :
      Stride t src dst j l w (.running j', l', w')
  | leave (hended : j.phase = .ended) : Stride t src dst j l w (.ended false, l, w)

variable {t : Task (MemoryStore × MemoryStore)} {src dst : MemoryStore} {now : Nat} {j : Job}
  {l : Ledger} {w : World (MemoryStore × MemoryStore)}

/-! The stores behind the adapters -/

lemma answerFetch_source (ht : t.Joins src dst) (p : Pivot)
    (s : MemoryStore × MemoryStore) : t.source.answerFetch p s = (s.1.fetch p, s) := by
  rw [ht.source]
  rfl

lemma answerFetch_destination (ht : t.Joins src dst) (p : Pivot)
    (s : MemoryStore × MemoryStore) : t.destination.answerFetch p s = (s.2.fetch p, s) := by
  rw [ht.destination]
  rfl

lemma requestFetch_source (ht : t.Joins src dst) (p : Pivot)
    (s : MemoryStore × MemoryStore) : t.source.requestFetch p s = (0, s) := by
  rw [ht.source]
  rfl

lemma requestFetch_destination (ht : t.Joins src dst) (p : Pivot)
    (s : MemoryStore × MemoryStore) : t.destination.requestFetch p s = (0, s) := by
  rw [ht.destination]
  rfl

lemma apply_destination (ht : t.Joins src dst) (c : Change) (time : Instant)
    (s : MemoryStore × MemoryStore) :
    t.destination.apply c time s = match s.2.apply c time with
      | .ok s' => (.ok true, s.1, s')
      | .error e => (.error e, s) := by
  rw [ht.destination]
  cases happly : s.2.apply c time <;>
    simp [Adapter.second, Adapter.within, Adapter.within.onPart, MemoryStore.adapter, happly]

lemma stride_of_waiting (hphase : j.phase = .waiting) (hopen : l.cancelled = false)
    (hdeadline : l.deadline = none) : t.Stride src dst j l w (t.unitStep false now j l w) := by
  have hearly : isDue l.deadline now = false := by rw [hdeadline]; rfl
  simp only [unitStep, hphase, enter, hopen, hearly, Bool.false_eq_true, if_false]
  refine .go [] rfl (by simp [hphase]) (by simp) (by simp [Job.remaining, hphase]) trivial ?_ rfl
    (.nil rfl)
  simp [Job.marks, hphase]

lemma stride_of_admitted (hphase : j.phase = .admitted) :
    t.Stride src dst j l w (t.unitStep false now j l w) := by
  simp only [unitStep, hphase]
  refine .go [.seen] rfl (by simp [hphase]) (by simp) (by simp [Job.remaining, hphase]) trivial ?_
    rfl ⟨rfl, ?_⟩
  · simp [Job.marks, hphase]
  · simp [Mark.record?]

lemma stride_of_counted (ht : t.Joins src dst) (hphase : j.phase = .counted) :
    t.Stride src dst j l w (t.unitStep false now j l w) := by
  simp only [unitStep, hphase, askSource, ht.source]
  refine .go [] rfl (by simp [hphase]) (by simp) (by simp [Job.remaining, hphase]) trivial ?_ rfl
    (.nil rfl)
  simp [Job.marks, hphase]

lemma stride_of_sourceAsked (ht : t.Joins src dst) (hphase : j.phase = .sourceAsked)
    (hsrc : w.stores.1 = src) (hlost : src.connectionLost = false) :
    t.Stride src dst j l w (t.unitStep false now j l w) := by
  have hanswer : t.source.answerFetch j.pivot w.stores =
      (.ok ((src.found? j.pivot).map (·.2)), w.stores) := by
    rw [answerFetch_source ht, hsrc, MemoryStore.fetch_eq hlost]
  simp only [unitStep, hphase, onSource, hanswer, Bool.false_eq_true, if_false, askDestination,
    ht.destination]
  refine .go [] rfl (by simp [hphase]) (by simp) (by simp [Job.remaining, hphase]) rfl ?_ rfl
    (.nil rfl)
  simp [Job.marks, hphase]

/-- A unit whose plan fails is counted as an error. -/
lemma stride_of_failed {e : SyncError} {w' : World (MemoryStore × MemoryStore)}
    (hopen : j.phase ≠ .ended) (hless : 1 < j.remaining) (hmarks : j.marks = [.seen])
    (herror : t.foreseen src dst j.pivot = .error e) (hkind : e.isConnectionLost = false)
    (hstores : w'.stores = w.stores) (haudit : w'.audit = w.audit) :
    t.Stride src dst j l w (conclude j (.error e) l w') := by
  have hfate : t.fate src dst j.pivot = .failed e := by simp [fate, herror]
  have hended : Phase.after (.error e) = .ended := by simp [Phase.after, hkind]
  have hless' : ({ j with phase := .after (.error e) } : Job).remaining < j.remaining := by
    simp only [hended]
    exact hless
  refine .settle [.errored] hopen hended hless' ?_ ?_ ⟨?_, ?_⟩
  · rw [hfate, hmarks]
    rfl
  · rw [hfate]
    exact hstores
  · simp [Ledger.record, hkind, Mark.count]
  · simp [haudit, Mark.record?]

/-- Once the destination has answered, a unit goes on with a change that will be applied or
refused, or has met its fate. -/
lemma stride_of_destinationAsked {known : Option Entity} (ht : t.Joins src dst)
    (hphase : j.phase = .destinationAsked known) (hinformed : t.Informed src dst j)
    (hlost : w.stores.2.connectionLost = false)
    (hfound : w.stores.2.found? j.pivot = dst.found? j.pivot)
    (hloss : ∀ e, t.foreseen src dst j.pivot = .error e → e.isConnectionLost = false) :
    t.Stride src dst j l w (t.unitStep false now j l w) := by
  have hanswer : t.destination.answerFetch j.pivot w.stores =
      (.ok ((dst.found? j.pivot).map (·.2)), w.stores) := by
    rw [answerFetch_destination ht, MemoryStore.fetch_eq hlost, hfound]
  have hknown : known = (src.found? j.pivot).map (·.2) := by
    simpa [Informed, hphase] using hinformed
  have hopen : j.phase ≠ .ended := by simp [hphase]
  have hless : 1 < j.remaining := by simp [Job.remaining, hphase]
  have hmarks : j.marks = [.seen] := by simp [Job.marks, hphase]
  have hfail : ∀ {e : SyncError} {w' : World (MemoryStore × MemoryStore)},
      t.foreseen src dst j.pivot = .error e → w'.stores = w.stores → w'.audit = w.audit →
      t.Stride src dst j l w (conclude j (.error e) l w') := fun herror =>
    stride_of_failed hopen hless hmarks herror (hloss _ herror)
  simp only [unitStep, hphase, onDestination, hanswer, Bool.false_eq_true, if_false, hknown]
  cases hd : t.checkDestination j.pivot (.ok ((dst.found? j.pivot).map (·.2))) with
  | error e =>
    refine hfail ?_ rfl rfl
    simp [foreseen, hd, bind, Except.bind]
  | ok d =>
    have hforeseen : t.foreseen src dst j.pivot =
        (t.planSync j.pivot ((src.found? j.pivot).map (·.2)) d).result := by
      simp [foreseen, hd, bind, Except.bind]
    simp only [takeUp]
    cases hplan : (t.planSync j.pivot ((src.found? j.pivot).map (·.2)) d).result with
    | error e => exact hfail (hforeseen.trans hplan) rfl rfl
    | ok plan =>
      rw [hplan] at hforeseen
      cases plan with
      | none =>
        have hfate : t.fate src dst j.pivot = .unchanged := by simp [fate, hforeseen]
        refine .settle [] hopen rfl hless ?_ ?_ (.nil rfl)
        · rw [hfate, hmarks]
          rfl
        · rw [hfate]
          rfl
      | some planned =>
        dsimp only
        cases hsuppressed : t.suppression? planned with
        | some reason =>
          have hfate : t.fate src dst j.pivot = .held planned.change reason := by
            simp [fate, hforeseen, hsuppressed]
          refine .settle [.attempted, .held j.pivot.id planned.change reason] hopen rfl hless ?_ ?_
            ⟨rfl, ?_⟩
          · rw [hfate, hmarks]
            rfl
          · rw [hfate]
            rfl
          · simp only [List.map_append]
            rfl
        | none =>
          refine .go [.attempted] rfl hopen (by simp) (by simp [Job.remaining, hphase]) ?_ ?_ rfl
            ⟨rfl, ?_⟩
          · simp only [Informed, fate, hforeseen, hsuppressed]
            split
            · exact Or.inl rfl
            · exact Or.inr rfl
          · rw [hmarks]
            rfl
          · simp [Mark.record?]

/-- A change meets its fate in the destination as it is now. -/
lemma stride_of_applying {c : Change} (ht : t.Joins src dst) (hphase : j.phase = .applying c)
    (hinformed : t.Informed src dst j) (hlost : w.stores.2.connectionLost = false)
    (hagree : ∀ k ∈ c.keys, w.stores.2.records.get? k = dst.records.get? k) :
    t.Stride src dst j l w (t.unitStep false now j l w) := by
  have hopen : j.phase ≠ .ended := by simp [hphase]
  have hless : 1 < j.remaining := by simp [Job.remaining, hphase]
  have hmarks : j.marks = [.seen, .attempted] := by simp [Job.marks, hphase]
  have hfate : t.fate src dst j.pivot = .applied c ∨ t.fate src dst j.pivot = .refused c := by
    simpa [Informed, hphase] using hinformed
  simp only [unitStep, hphase, carryOut]
  rcases hfate with hfate | hfate
  · obtain ⟨m, hm⟩ := enact_of_fate_applied hfate
    obtain ⟨m', hm', -⟩ := Change.exists_enact_of_agree hm hagree
    obtain ⟨entries, happly, hentries⟩ :=
      MemoryStore.apply_of_enact (w.epoch.addMilliseconds now) hlost hm'
    have hanswer : t.destination.apply c (w.epoch.addMilliseconds now) w.stores =
        (.ok true, w.stores.1,
          { w.stores.2 with entries := entries, applied := w.stores.2.applied + 1 }) := by
      rw [apply_destination ht, happly]
    simp only [hanswer, checkApplied]
    refine .settle [.applied j.pivot.id c] hopen rfl hless ?_ ?_ ⟨rfl, ?_⟩
    · rw [hfate, hmarks]
      rfl
    · rw [hfate]
      exact ⟨entries, rfl, hentries ▸ hm'⟩
    · simp [Mark.record?, AuditRecord.untimed, auditRecord]
  · have hnone := Change.enact_eq_none_of_agree (enact_of_fate_refused hfate) hagree
    obtain ⟨e, happly, hkind⟩ :=
      MemoryStore.apply_of_enact_eq_none (w.epoch.addMilliseconds now) hlost hnone
    have hanswer : t.destination.apply c (w.epoch.addMilliseconds now) w.stores =
        (.error e, w.stores) := by
      rw [apply_destination ht, happly]
    have herror : (t.destinationError e).isConnectionLost = false := by
      rw [destinationError, ht.destination]
      show (SyncError.ofStore _ e e.isConnectionLost).isConnectionLost = false
      rw [hkind]
      rfl
    have hended : Phase.after (.error (t.destinationError e)) = .ended := by
      simp [Phase.after, herror]
    simp only [hanswer, checkApplied]
    refine .settle [.errored] hopen hended ?_ ?_ ?_ ⟨?_, ?_⟩
    · simp only [hended]
      exact hless
    · rw [hfate, hmarks]
      rfl
    · rw [hfate]
      rfl
    · simp [Ledger.record, herror, Mark.count]
    · simp [Mark.record?]

/-- What a step of a unit can be, as long as the stores are in their initial state where the unit
depends on them. -/
theorem stride (ht : t.Joins src dst) (hinformed : t.Informed src dst j)
    (hopen : l.cancelled = false) (hdeadline : l.deadline = none) (hsrc : w.stores.1 = src)
    (hlost : src.connectionLost = false) (hlost' : w.stores.2.connectionLost = false)
    (hloss : ∀ e, t.foreseen src dst j.pivot = .error e → e.isConnectionLost = false)
    (hfound : j.phase ≠ .ended → w.stores.2.found? j.pivot = dst.found? j.pivot)
    (hagree : j.phase ≠ .ended → ∀ c, t.change? src dst j.pivot = some c →
      ∀ k ∈ c.keys, w.stores.2.records.get? k = dst.records.get? k) :
    t.Stride src dst j l w (t.unitStep false now j l w) := by
  cases hphase : j.phase with
  | waiting => exact stride_of_waiting hphase hopen hdeadline
  | admitted => exact stride_of_admitted hphase
  | counted => exact stride_of_counted ht hphase
  | sourceAsked => exact stride_of_sourceAsked ht hphase hsrc hlost
  | destinationAsked known =>
    exact stride_of_destinationAsked ht hphase hinformed hlost' (hfound (by simp [hphase])) hloss
  | applying c =>
    have hfate : t.fate src dst j.pivot = .applied c ∨ t.fate src dst j.pivot = .refused c := by
      simpa [Informed, hphase] using hinformed
    exact stride_of_applying ht hphase hinformed hlost'
      (hagree (by simp [hphase]) c (change?_of_fate hfate))
  | lost => simp [Informed, hphase] at hinformed
  | ended =>
    simp only [unitStep, hphase, hopen]
    exact .leave hphase

end Task

end StoreSync
