import StoreSync.Expression.Table
import StoreSync.Proofs.Reports

/-!
# The accounts of a pass

The counters of a report and the audit records of its pass agree with what happened in the pass:
with the number of units that began, of changes computed and of answers of the destination
(`Pass.exact_of_conducted`).  The adapters and the evaluator are arbitrary, and so is the order of
the turns.

The argument has three parts:

* every counter counts events of the log (`Ledger.foldl_note`), since the ledger is what the log
  says;
* the events of one unit are balanced (`Task.Doing.balance`), and so those of a pass are up to its
  units under way (`Pass.Balanced`);
* a pass that has neither lost a connection nor run out of time is not cancelled
  (`Pass.Act.uncancelled`) and has all its pivots in view (`Pass.Intact`), and at its end they have
  all begun.
-/

namespace StoreSync

/-! ## Kinds of events -/

namespace Event

/-- The unit has come after the deadline. -/
@[simp] def isLate : Event → Bool
  | .late _ => true
  | _ => false

@[simp] def isStarted : Event → Bool
  | .started _ => true
  | _ => false

@[simp] def isComputed : Event → Bool
  | .computed _ _ => true
  | _ => false

/-- The destination has applied a change. -/
@[simp] def isApplied : Event → Bool
  | .answered _ _ (.ok true) => true
  | _ => false

/-- The destination has applied a change of a kind. -/
@[simp] def appliesKind (m : Modification) : Event → Bool
  | .answered _ c (.ok true) => c.modification = m
  | _ => false

/-- The destination has answered with a refusal or an error. -/
@[simp] def isRefused : Event → Bool
  | .answered _ _ (.ok true) => false
  | .answered _ _ _ => true
  | _ => false

@[simp] def isEnded : Event → Bool
  | .ended _ _ => true
  | _ => false

/-- A unit has ended with an error other than a lost connection. -/
@[simp] def isFailed : Event → Bool
  | .ended _ (.error e) => !e.isConnectionLost
  | _ => false

/-- A unit has lost its connection. -/
@[simp] def isLost : Event → Bool
  | .ended _ (.error e) => e.isConnectionLost
  | _ => false

/-- A unit that has lost its connection has cancelled the pass. -/
@[simp] def isCancelled : Event → Bool
  | .cancelled _ => true
  | _ => false

end Event

/-- A change that the task holds back has been computed. -/
@[simp] def Task.holdsBack {σ : Type} (t : Task σ) : Event → Bool
  | .computed _ planned => (t.suppression? planned).isSome
  | _ => false

/-! ## The ledger counts events -/

namespace Counters

lemma sum_insertEntry (key : String) (n : Nat) {l : List (String × Nat)}
    (h : l.Pairwise fun a b => a.1 < b.1) :
    ((TextMap.insertEntry key n l).map Prod.snd).sum + (TextMap.lookupEntry key l).getD 0 =
      (l.map Prod.snd).sum + n := by
  induction l with
  | nil => simp [TextMap.insertEntry, TextMap.lookupEntry]
  | cons head tail ih =>
    obtain ⟨k, v⟩ := head
    obtain ⟨hhead, htail⟩ := List.pairwise_cons.1 h
    unfold TextMap.insertEntry
    split
    next hlt =>
      have hnone : TextMap.lookupEntry key ((k, v) :: tail) = none := by
        refine TextMap.lookupEntry_eq_none fun e he => ?_
        rcases List.mem_cons.1 he with rfl | he
        · exact fun heq => String.lt_irrefl key (heq ▸ hlt)
        · intro heq
          have hlt' : key < e.1 := String.lt_trans hlt (hhead e he)
          rw [heq] at hlt'
          exact String.lt_irrefl key hlt'
      simp only [hnone, Option.getD_none, List.map_cons, List.sum_cons]
      omega
    next =>
      split
      next heq =>
        subst heq
        simp only [TextMap.lookupEntry, if_true, Option.getD_some, List.map_cons, List.sum_cons]
        omega
      next hne =>
        have hrest := ih htail
        simp only [TextMap.lookupEntry, if_neg (Ne.symm hne), List.map_cons, List.sum_cons]
        omega

lemma sum_bump (m : TextMap Nat) (name : String) (n : Nat) :
    (bump m name n).values.sum = m.values.sum + n := by
  have h := sum_insertEntry name ((m.get? name).getD 0 + n) m.ascending
  show ((TextMap.insertEntry name _ m.entries).map Prod.snd).sum = (m.entries.map Prod.snd).sum + n
  simp only [TextMap.get?] at h ⊢
  omega

lemma appliedCount_recordApplied (c : Counters) (m m' : Modification) :
    (c.recordApplied m).appliedCount m' = c.appliedCount m' + if m = m' then 1 else 0 := by
  have hname : m.name = m'.name ↔ m = m' := by cases m <;> cases m' <;> decide
  simp only [appliedCount, recordApplied, bump, TextMap.get?_insert, hname]
  split
  next heq => simp [heq]
  next => simp

end Counters

namespace Ledger

/-- A figure that grows by one with each event of a kind counts these events. -/
lemma foldl_note {f : Ledger → Nat} {q : Event → Bool}
    (h : ∀ l e, f (l.note e) = f l + if q e then 1 else 0) (log : List Event) (l : Ledger) :
    f (log.foldl note l) = f l + log.countP q := by
  induction log generalizing l with
  | nil => rfl
  | cons e rest ih =>
    rw [List.foldl_cons, ih, h, List.countP_cons]
    omega

variable {log : List Event} {l : Ledger}

/-- Case analysis of a note, for the figures below. -/
lemma note_figures (l : Ledger) (e : Event) :
    (l.note e).counters.seen = l.counters.seen + (if e.isStarted then 1 else 0) ∧
    (l.note e).counters.attempted = l.counters.attempted + (if e.isComputed then 1 else 0) ∧
    (l.note e).counters.applied = l.counters.applied + (if e.isApplied then 1 else 0) ∧
    (l.note e).counters.errored = l.counters.errored + (if e.isFailed then 1 else 0) ∧
    (l.note e).counters.appliedBy.values.sum =
      l.counters.appliedBy.values.sum + (if e.isApplied then 1 else 0) ∧
    (∀ m, (l.note e).counters.appliedCount m =
      l.counters.appliedCount m + (if e.appliesKind m then 1 else 0)) ∧
    ((l.note e).failure = none ↔ l.failure = none ∧ e.isLost = false) := by
  cases e with
  | late p | cancelled p => simp [note, Counters.appliedCount]
  | started p =>
    simp [note, Counters.recordSeen, Event.isStarted, Event.isComputed, Event.isApplied,
      Event.isFailed, Event.appliesKind, Event.isLost, Counters.appliedCount]
  | computed p planned =>
    simp [note, Counters.recordAttempted, Event.isStarted, Event.isComputed, Event.isApplied,
      Event.isFailed, Event.appliesKind, Event.isLost, Counters.appliedCount]
  | answered p c answer =>
    rcases answer with e | accepted
    · simp [note, Event.isStarted, Event.isComputed, Event.isApplied, Event.isFailed,
        Event.appliesKind, Event.isLost]
    · cases accepted with
      | false =>
        simp [note, Event.isStarted, Event.isComputed, Event.isApplied, Event.isFailed,
          Event.appliesKind, Event.isLost]
      | true =>
        have hsum := Counters.sum_bump l.counters.appliedBy c.modification.name 1
        have hcount := l.counters.appliedCount_recordApplied c.modification
        simpa [note, Event.isStarted, Event.isComputed, Event.isApplied, Event.isFailed,
          Event.appliesKind, Event.isLost, Counters.recordApplied] using ⟨hsum, hcount⟩
  | ended p result =>
    rcases result with e | ⟨⟩
    · cases hlost : e.isConnectionLost with
      | true =>
        simp [note, record, hlost, Event.isStarted, Event.isComputed, Event.isApplied,
          Event.isFailed, Event.appliesKind, Event.isLost]
      | false =>
        simp [note, record, hlost, Counters.recordError, Event.isStarted, Event.isComputed,
          Event.isApplied, Event.isFailed, Event.appliesKind, Event.isLost, Counters.appliedCount]
    · simp [note, Event.isStarted, Event.isComputed, Event.isApplied, Event.isFailed,
        Event.appliesKind, Event.isLost]

lemma deadline_foldl_note (log : List Event) (l : Ledger) :
    (log.foldl note l).deadline = l.deadline := by
  induction log generalizing l with
  | nil => rfl
  | cons e rest ih =>
    rw [List.foldl_cons, ih]
    unfold note
    split <;> simp [record, apply_ite deadline]

lemma late_foldl_note (log : List Event) (l : Ledger) :
    (log.foldl note l).late = false ↔ l.late = false ∧ ∀ e ∈ log, e.isLate = false := by
  induction log generalizing l with
  | nil => simp
  | cons e rest ih =>
    have hone : (l.note e).late = (l.late || e.isLate) := by
      unfold note
      split <;> simp [record, apply_ite late]
    rw [List.foldl_cons, ih, hone]
    simp [and_assoc]

/-- A pass is cancelled by a unit that comes too late, or by one that has lost its connection. -/
lemma cancelled_foldl_note (log : List Event) (l : Ledger) :
    (log.foldl note l).cancelled = true ↔
      l.cancelled = true ∨ ∃ e ∈ log, e.isLate = true ∨ e.isCancelled = true := by
  induction log generalizing l with
  | nil => simp
  | cons e rest ih =>
    have hone : (l.note e).cancelled = (l.cancelled || (e.isLate || e.isCancelled)) := by
      unfold note
      split <;> simp [record, apply_ite cancelled]
    rw [List.foldl_cons, ih, hone]
    simp [or_assoc]

lemma failure_foldl_note (log : List Event) (l : Ledger) :
    (log.foldl note l).failure = none ↔ l.failure = none ∧ ∀ e ∈ log, e.isLost = false := by
  induction log generalizing l with
  | nil => simp
  | cons e rest ih =>
    rw [List.foldl_cons, ih, (note_figures l e).2.2.2.2.2.2]
    simp [and_assoc]

/-- The figures of a ledger that was new before the log. -/
structure Tallies (log : List Event) (l : Ledger) : Prop where
  seen : l.counters.seen = log.countP Event.isStarted
  attempted : l.counters.attempted = log.countP Event.isComputed
  applied : l.counters.applied = log.countP Event.isApplied
  errored : l.counters.errored = log.countP Event.isFailed
  sum : l.counters.appliedBy.values.sum = log.countP Event.isApplied
  appliedCount : ∀ m, l.counters.appliedCount m = log.countP (Event.appliesKind m)
  failure : l.failure = none ↔ ∀ e ∈ log, e.isLost = false

lemma tallies_foldl_note (log : List Event) (deadline : Option Nat) :
    Tallies log (log.foldl note (.new deadline)) := by
  constructor
  · simpa [new, Counters.zero] using
      foldl_note (f := (·.counters.seen)) (fun l e => (note_figures l e).1) log (.new deadline)
  · simpa [new, Counters.zero] using
      foldl_note (f := (·.counters.attempted)) (fun l e => (note_figures l e).2.1) log
        (.new deadline)
  · simpa [new, Counters.zero] using
      foldl_note (f := (·.counters.applied)) (fun l e => (note_figures l e).2.2.1) log
        (.new deadline)
  · simpa [new, Counters.zero] using
      foldl_note (f := (·.counters.errored)) (fun l e => (note_figures l e).2.2.2.1) log
        (.new deadline)
  · exact (foldl_note (f := (·.counters.appliedBy.values.sum))
      (fun l e => (note_figures l e).2.2.2.2.1) log (.new deadline)).trans (Nat.zero_add _)
  · intro m
    exact (foldl_note (f := (·.counters.appliedCount m))
      (fun l e => (note_figures l e).2.2.2.2.2.1 m) log (.new deadline)).trans (Nat.zero_add _)
  · simpa [new] using failure_foldl_note log (.new deadline)

end Ledger

/-! ## The events of a unit are balanced -/

namespace Phase

/-- The unit is not counted yet. -/
@[simp] def isWaiting : Phase → Bool
  | .waiting | .admitted => true
  | _ => false

/-- The unit is counted, and has no result yet. -/
@[simp] def isUnderWay : Phase → Bool
  | .waiting | .admitted | .lost | .ended => false
  | _ => true

/-- The change of the unit is to be applied. -/
@[simp] def isApplying : Phase → Bool
  | .applying _ => true
  | _ => false

end Phase

/-- Whether a worker has a unit in a phase of a kind. -/
def Worker.isIn (q : Phase → Bool) : Worker Job → Bool
  | .running j => q j.phase
  | _ => false

namespace Task

variable {σ : Type} {t : Task σ} {now : Nat}

/-- What a step of a unit adds to the log, against how far the unit has come. -/
structure Balances (t : Task σ) (phase phase' : Phase) (events : List Event) : Prop where
  begun : events.countP Event.isStarted + events.countP Event.isLate + phase'.isWaiting.toNat =
    phase.isWaiting.toNat
  ended : events.countP Event.isEnded + phase'.isUnderWay.toNat =
    events.countP Event.isStarted + phase.isUnderWay.toNat
  settled : events.countP t.holdsBack + events.countP Event.isApplied +
      events.countP Event.isRefused + phase'.isApplying.toNat =
    events.countP Event.isComputed + phase.isApplying.toNat
  outcomes : events.countP Event.isApplied + events.countP Event.isFailed ≤
    events.countP Event.isEnded

/-- Losing a connection is balanced like ending. -/
lemma Balances.after {phase : Phase} {events : List Event} (h : t.Balances phase .ended events)
    (result : Except SyncError Unit) : t.Balances phase (.after result) events := by
  rcases Phase.after_eq result with hafter | hafter
  · rw [hafter]
    exact ⟨h.begun, h.ended, h.settled, h.outcomes⟩
  · rw [hafter]
    exact h

lemma Doing.balance {j j' : Job} {l l' : Ledger} {w w' : World σ} {events : List Event}
    (h : t.Doing now j l w events (.running j', l', w')) :
    t.Balances j.phase j'.phase events := by
  cases h with
  | late hphase _ _ | enter hphase _ _ | start hphase | cancel hphase =>
    constructor <;> simp [hphase]
  | ask hphase _ =>
    rcases hphase with ⟨hphase, rfl⟩ | ⟨hphase, known, rfl⟩ <;> constructor <;> simp [hphase]
  | @settle result _ hphase _ =>
    have hone : [Event.ended j.pivot result].countP Event.isFailed ≤ 1 := List.countP_le_length
    refine Balances.after ?_ result
    rcases hphase with hphase | ⟨known, hphase⟩
    · exact ⟨by simp [hphase], by simp [hphase], by simp [hphase], by simpa using hone⟩
    · exact ⟨by simp [hphase], by simp [hphase], by simp [hphase], by simpa using hone⟩
  | hold hphase hreason _ =>
    refine Balances.after ?_ (.ok ())
    rcases hphase with hphase | ⟨known, hphase⟩ <;>
      constructor <;> simp [hphase, hreason, List.countP_cons]
  | plan hphase hreason _ =>
    rcases hphase with hphase | ⟨known, hphase⟩ <;>
      constructor <;> simp [hphase, hreason, List.countP_cons]
  | apply hphase _ =>
    refine Balances.after ?_ (.ok ())
    constructor <;> simp [hphase, List.countP_cons]
  | @refuse c answer e _ hphase hanswer _ =>
    refine Balances.after ?_ (.error e)
    rcases answer with _ | accepted
    · cases hlost : e.isConnectionLost <;>
        constructor <;> simp [hphase, hlost, List.countP_cons]
    · cases accepted with
      | false =>
        cases hlost : e.isConnectionLost <;>
          constructor <;> simp [hphase, hlost, List.countP_cons]
      | true => exact absurd rfl hanswer

/-- A unit that neither comes too late nor loses a connection leaves the pass as it is. -/
lemma Doing.uncancelled {j j' : Job} {l l' : Ledger} {w w' : World σ} {events : List Event}
    (h : t.Doing now j l w events (.running j', l', w')) (hopen : l.cancelled = false)
    (hphase : j.phase ≠ .lost) (hfailure : l'.failure = none) (hlate : l'.late = false) :
    l'.cancelled = false ∧ j'.phase ≠ .lost := by
  -- A result that is written down as no failure is no lost connection.
  have hresult : ∀ {e : SyncError}, (l.record e).failure = none →
      (l.record e).cancelled = false ∧ Phase.after (.error e) ≠ .lost := by
    intro e hnone
    cases hlost : e.isConnectionLost with
    | true => simp [Ledger.record, hlost] at hnone
    | false => simp [Ledger.record, hlost, Phase.after, hopen]
  cases h with
  | late => simp at hlate
  | enter | start => exact ⟨hopen, Phase.noConfusion⟩
  | ask hasked _ =>
    rcases hasked with ⟨-, rfl⟩ | ⟨-, known, rfl⟩ <;> exact ⟨hopen, Phase.noConfusion⟩
  | @settle result =>
    rcases result with e | ⟨⟩
    · exact hresult hfailure
    · exact ⟨hopen, Phase.noConfusion⟩
  | hold | plan | apply => exact ⟨hopen, Phase.noConfusion⟩
  | refuse => exact hresult hfailure
  | cancel hlost => exact absurd hlost hphase

end Task

namespace Pass

variable {σ : Type} {t : Task σ} {now : Nat} {pivots : List Pivot} {log events : List Event}
  {p : Pass} {w : World σ} {z : Pass × World σ}

/-! ## The events of a pass are balanced -/

/-- How many workers have a unit in a phase of a kind. -/
def inPhase (q : Phase → Bool) (p : Pass) : Nat := p.pool.workers.countP (Worker.isIn q)

/-- The units in the queue have not begun. -/
def IsQueued (p : Pass) : Prop := ∀ j ∈ p.pool.queue, j.phase = .waiting

lemma Act.queued (h : Act t now p w events z) (hp : p.IsQueued) : z.1.IsQueued := by
  cases h with
  | submit _ _ _ =>
    intro j hj
    rcases List.mem_append.1 hj with hj | hj
    · exact hp j hj
    · rw [List.mem_singleton.1 hj]
      rfl
  | drop _ hpool _ => rcases hpool with rfl | ⟨-, rfl⟩ <;> exact hp
  | take _ _ hqueue => exact fun j hj => hp j (hqueue ▸ List.mem_cons_of_mem _ hj)
  | leave _ _ =>
    unfold IsQueued
    split <;> exact hp
  | _ => exact hp

/-- A turn is a step of a unit, or nothing happens in it and the units stay as far as they have
come; only units that have not begun or have ended come and go. -/
lemma Act.quiet_or_doing (h : Act t now p w events z) (hp : p.IsQueued) :
    (events = [] ∧ ∀ q : Phase → Bool, q .waiting = false → q .ended = false →
      inPhase q z.1 = inPhase q p) ∨
    ∃ k j j', p.pool.workers[k]? = some (.running j) ∧
      z.1.pool.workers = p.pool.workers.set k (.running j') ∧
      t.Doing now j p.ledger w events (.running j', z.1.ledger, z.2) := by
  -- A worker exchanges nothing but units that have not begun or have ended.
  have hset : ∀ {k : Nat} {x y : Worker Job} (q : Phase → Bool), p.pool.workers[k]? = some x →
      x.isIn q = false → y.isIn q = false →
      (p.pool.workers.set k y).countP (Worker.isIn q) = inPhase q p := by
    intro k x y q hx hxq hyq
    have h := countP_set hx (Worker.isIn q) y
    rwa [hxq, hyq] at h
  cases h with
  | submit | await | close | expire | giveUp => exact Or.inl ⟨rfl, fun _ _ _ => rfl⟩
  | drop _ hpool _ =>
    refine Or.inl ⟨rfl, fun _ _ _ => ?_⟩
    rcases hpool with rfl | ⟨-, rfl⟩ <;> rfl
  | stop hidle _ => exact Or.inl ⟨rfl, fun q _ _ => hset q hidle rfl rfl⟩
  | take hidle _ hqueue =>
    refine Or.inl ⟨rfl, fun q hwaiting _ => hset q hidle rfl ?_⟩
    show q (Job.phase _) = false
    rw [hp _ (by rw [hqueue]; exact List.mem_cons_self), hwaiting]
  | go hrunning hstep =>
    exact Or.inr ⟨_, _, _, hrunning, rfl, Task.doing_of_step hstep⟩
  | @leave k j hrunning hphase =>
    refine Or.inl ⟨rfl, fun q hwaiting hended => ?_⟩
    have hq : (Worker.running j).isIn q = false := by
      rcases hphase with hphase | ⟨hphase, -⟩ <;> simp [Worker.isIn, hphase, hwaiting, hended]
    have hidle := hset (y := .idle) q hrunning hq rfl
    split <;> exact hidle

/-- Two figures that balance with how far a unit comes in its step balance with how far the units of
the pass come in a turn. -/
lemma Act.inPhase_add {q : Phase → Bool} {a b : Nat} (h : Act t now p w events z)
    (hp : p.IsQueued) (hwaiting : q .waiting = false) (hended : q .ended = false)
    (hnone : events = [] → a = b)
    (hunit : ∀ {j j'}, t.Doing now j p.ledger w events (.running j', z.1.ledger, z.2) →
      a + (q j'.phase).toNat = b + (q j.phase).toNat) :
    a + inPhase q z.1 = b + inPhase q p := by
  rcases h.quiet_or_doing hp with ⟨hevents, hsame⟩ | ⟨k, j, j', hrunning, hworkers, hdoing⟩
  · rw [hsame q hwaiting hended, hnone hevents]
  · have hset := countP_set hrunning (Worker.isIn q) (.running j')
    have hthis := hunit hdoing
    simp only [inPhase, hworkers]
    simp only [Worker.isIn] at hset
    omega

/-- The log is balanced, up to the units that are under way. -/
structure Balanced (t : Task σ) (log : List Event) (p : Pass) : Prop where
  queued : p.IsQueued
  ended : log.countP Event.isEnded + inPhase Phase.isUnderWay p = log.countP Event.isStarted
  settled : log.countP t.holdsBack + log.countP Event.isApplied + log.countP Event.isRefused +
    inPhase Phase.isApplying p = log.countP Event.isComputed
  outcomes : log.countP Event.isApplied + log.countP Event.isFailed ≤ log.countP Event.isEnded

lemma Act.balanced (h : Act t now p w events z) (hp : Balanced t log p) :
    Balanced t (log ++ events) z.1 := by
  obtain ⟨hqueued, hended, hsettled, houtcomes⟩ := hp
  have hway := h.inPhase_add hqueued (q := Phase.isUnderWay) rfl rfl (by rintro rfl; rfl)
    fun hdoing => hdoing.balance.ended
  have happlying := h.inPhase_add hqueued (q := Phase.isApplying) rfl rfl (by rintro rfl; rfl)
    fun hdoing => hdoing.balance.settled
  have hresults : events.countP Event.isApplied + events.countP Event.isFailed ≤
      events.countP Event.isEnded := by
    rcases h.quiet_or_doing hqueued with ⟨rfl, -⟩ | ⟨k, j, j', -, -, hdoing⟩
    · exact Nat.le_refl _
    · exact hdoing.balance.outcomes
  refine ⟨h.queued hqueued, ?_, ?_, ?_⟩ <;> simp only [List.countP_append] <;> omega

/-! ## A pass that is not broken off -/

/-- The pass is not cancelled, and no unit is about to cancel it. -/
structure Uncancelled (p : Pass) : Prop where
  ledger : p.ledger.cancelled = false
  workers : ∀ j, .running j ∈ p.pool.workers → j.phase ≠ .lost

/-- A pass is cancelled only by a unit that comes too late, or that has lost its connection. -/
lemma Act.uncancelled (h : Act t now p w events z) (hp : p.Uncancelled) (hqueued : p.IsQueued)
    (hfailure : z.1.ledger.failure = none) (hlate : z.1.ledger.late = false) :
    z.1.Uncancelled := by
  have hevents := h.ledger
  cases h with
  | go hrunning hstep =>
    have hopen := (Task.doing_of_step hstep).uncancelled hp.ledger
      (hp.workers _ (List.mem_of_getElem? hrunning)) hfailure hlate
    exact ⟨hopen.1, forall_running_set hp.workers fun j hj => by cases hj; exact hopen.2⟩
  | take hidle hgoes hqueue =>
    refine ⟨hp.ledger, forall_running_set hp.workers fun j hj => ?_⟩
    cases hj
    rw [hqueued _ (hqueue ▸ List.mem_cons_self)]
    exact Phase.noConfusion
  | leave hrunning _ =>
    rw [if_neg (by simp [hp.ledger])]
    exact ⟨hp.ledger, forall_running_set hp.workers fun j hj => by cases hj⟩
  | stop hidle _ => exact ⟨hp.ledger, forall_running_set hp.workers fun j hj => by cases hj⟩
  | drop _ hpool _ => rcases hpool with rfl | ⟨-, rfl⟩ <;> exact ⟨hp.ledger, hp.workers⟩
  | _ => exact ⟨hp.ledger, hp.workers⟩

/-- No connection is lost, no unit has come too late, and the time was not up. -/
structure Unbroken (p : Pass) : Prop where
  failure : p.ledger.failure = none
  late : p.ledger.late = false
  goes : ∀ deadline, p.pool.stage ≠ .draining deadline
  complete : p.pool.stage ≠ .ended false

lemma Act.unbroken (h : Act t now p w events z) (hz : z.1.Unbroken) : p.Unbroken := by
  have hfailure : p.ledger.failure = none := by
    have hz := hz.failure
    rw [h.ledger, Ledger.failure_foldl_note] at hz
    exact hz.1
  have hlate : p.ledger.late = false := by
    have hz := hz.late
    rw [h.ledger, Ledger.late_foldl_note] at hz
    exact hz.1
  cases h with
  | drop _ hpool _ =>
    rcases hpool with rfl | ⟨-, rfl⟩ <;> exact ⟨hfailure, hlate, hz.goes, hz.complete⟩
  | await _ hstage => exact ⟨hfailure, hlate, by simp [hstage], by simp [hstage]⟩
  | close hstage _ => exact ⟨hfailure, hlate, by simp [hstage], by simp [hstage]⟩
  | expire _ _ => exact absurd rfl (hz.goes _)
  | giveUp _ => exact absurd rfl hz.complete
  | leave _ _ =>
    obtain ⟨-, -, hgoes, hcomplete⟩ := hz
    split at hgoes <;> exact ⟨hfailure, hlate, hgoes, by split at hcomplete <;> exact hcomplete⟩
  | _ => exact ⟨hfailure, hlate, hz.goes, hz.complete⟩

/-- Every pivot has begun, or its unit is held by a worker, in the queue or still to be submitted;
and the pool takes units until there are none. -/
structure Intact (pivots : List Pivot) (log : List Event) (p : Pass) : Prop extends
    Manned p where
  uncancelled : p.Uncancelled
  view : log.countP Event.isStarted + inPhase Phase.isWaiting p + p.pool.queue.length +
    p.pending.length = pivots.length

/-- As long as pivots are pending the pool takes their units. -/
lemma Intact.accepts (h : Intact pivots log p) (hpending : p.pending ≠ []) :
    ¬(p.ledger.cancelled = true ∨ p.pool.cancelled = true ∨ p.pool.stage ≠ .accepting ∨
      p.pool.isStill = true ∨ p.pool.capacity ≤ p.pool.queue.length) := by
  have hstage := h.pending hpending
  have hlength := List.length_pos_iff.2 hpending
  have hroom := h.room
  rintro (hcancelled | hcancelled | hclosed | hstill | hfull)
  · simp [h.uncancelled.ledger] at hcancelled
  · simp [h.goes] at hcancelled
  · exact hclosed hstage
  · simp [h.toManned.isStill_eq_false hstage] at hstill
  · omega

/-- A worker that has not stopped takes up something else, and the queue does not grow. -/
lemma Intact.setWorker (h : Intact pivots log p) {k : Nat} {x y : Worker Job}
    (hx : p.pool.workers[k]? = some x) (hgoes : x.isStopped = false) (queue : List Job)
    {l : Ledger}
    (hview : events.countP Event.isStarted + (y.isIn Phase.isWaiting).toNat + queue.length =
      (x.isIn Phase.isWaiting).toNat + p.pool.queue.length)
    (hqueue : queue.length ≤ p.pool.queue.length)
    (hy : y = .stopped → queue = [] ∧ p.pool.stage ≠ .accepting)
    (huncancelled : Uncancelled
      { p with pool := { p.pool with queue := queue }.setWorker k y, ledger := l }) :
    Intact pivots (log ++ events)
      { p with pool := { p.pool with queue := queue }.setWorker k y, ledger := l } := by
  have hset := countP_set hx (Worker.isIn Phase.isWaiting) y
  have hbefore := h.view
  refine ⟨h.toManned.setWorker hx hgoes queue l hqueue hy, huncancelled, ?_⟩
  simp only [inPhase] at hbefore ⊢
  simp only [Pool.setWorker, List.countP_append]
  omega

lemma Act.intact (h : Act t now p w events z) (hp : Intact pivots log p) (hqueued : p.IsQueued)
    (hz : z.1.Unbroken) : Intact pivots (log ++ events) z.1 := by
  have huncancelled := h.uncancelled hp.uncancelled hqueued hz.failure hz.late
  have hevents : ∀ e ∈ events, e.isLate = false := by
    have hlate := hz.late
    rw [h.ledger, Ledger.late_foldl_note] at hlate
    exact hlate.2
  cases h with
  | submit hpending _ hstage =>
    have hview := hp.view
    simp only [hpending, List.length_cons] at hview
    rw [List.append_nil]
    refine ⟨hp.toManned.submit hpending hstage, huncancelled, ?_⟩
    simp only [inPhase, List.length_append, List.length_singleton] at hview ⊢
    omega
  | drop hpending _ hwhy => exact absurd hwhy (hp.accepts hpending)
  | await hpending hstage =>
    rw [List.append_nil]
    exact ⟨hp.toManned.await hpending hstage _, huncancelled, hp.view⟩
  | close hstage hstill =>
    rw [List.append_nil]
    exact ⟨hp.toManned.close hstage hstill, huncancelled, hp.view⟩
  | expire _ _ => exact absurd rfl (hz.goes _)
  | giveUp _ => exact absurd rfl hz.complete
  | stop hidle hstop =>
    rcases hstop with hcancelled | hclosed
    · simp [hp.goes] at hcancelled
    · exact hp.setWorker hidle rfl p.pool.queue (by simp [Worker.isIn]) (Nat.le_refl _)
        (fun _ => hclosed) huncancelled
  | @take k j rest hidle _ hqueue =>
    have hwaiting := hqueued j (by rw [hqueue]; exact List.mem_cons_self)
    refine hp.setWorker hidle rfl rest ?_ (by simp [hqueue]) (by simp) huncancelled
    simp [Worker.isIn, hwaiting, hqueue]
    omega
  | @go k j j' l' w' hrunning hstep =>
    have hbegun := (Task.doing_of_step hstep).balance.begun
    have hnone := List.countP_eq_zero.2 fun e he => Bool.eq_false_iff.1 (hevents e he)
    refine hp.setWorker hrunning rfl p.pool.queue ?_ (Nat.le_refl _) (by simp) huncancelled
    simp only [Worker.isIn]
    omega
  | @leave k j hrunning hphase =>
    have hended : j.phase = .ended := by
      rcases hphase with hphase | ⟨-, hcancelled⟩
      · exact hphase
      · simp [hp.uncancelled.ledger] at hcancelled
    simp only [hp.uncancelled.ledger, Bool.false_eq_true, if_false] at huncancelled ⊢
    exact hp.setWorker hrunning rfl p.pool.queue (by simp [Worker.isIn, hended]) (Nat.le_refl _)
      (by simp) huncancelled

/-! ## The report -/

/-- What a history from a new pass on has led to. -/
structure Booked (t : Task σ) (pivots : List Pivot) (log : List Event) (p : Pass) : Prop where
  balanced : Balanced t log p
  intact : p.Unbroken → Intact pivots log p

lemma booked_of_isNew (h : IsNew pivots p) : Booked t pivots [] p := by
  have hnone : ∀ q : Phase → Bool, inPhase q p = 0 := by
    intro q
    refine List.countP_eq_zero.2 fun x hx => ?_
    rw [h.workers x hx]
    exact Bool.false_ne_true
  refine ⟨⟨?_, by simp [hnone], by simp [hnone], Nat.le_refl _⟩, fun _ => ?_⟩
  · intro j hj
    simp [h.queue] at hj
  · refine ⟨⟨h.goes, ?_, h.staffed, fun hstopped => ?_, fun _ => h.stage, by simp [h.stage]⟩,
      ⟨?_, fun j hj => ?_⟩, by simp [hnone, h.queue, h.pending]⟩
    · have hroom := h.room
      simpa [h.queue, h.pending] using hroom
    · simpa using h.workers _ hstopped
    · rw [h.ledger]
      rfl
    · simpa using h.workers _ hj

lemma Act.booked (h : Act t now p w events z) (hp : Booked t pivots log p) :
    Booked t pivots (log ++ events) z.1 := by
  refine ⟨h.balanced hp.balanced, fun hz => ?_⟩
  exact h.intact (hp.intact (h.unbroken hz)) hp.balanced.queued hz

lemma History.booked {p₀ : Pass} {w₀ : World σ} {y : Pass × World σ}
    (h : History t (p₀, w₀) log y) (hnew : IsNew pivots p₀) : Booked t pivots log y.1 := by
  refine h.keeps (I := fun log y => Booked t pivots log y.1) (booked_of_isNew hnew) ?_
  intro log events p w z now hp hact
  exact hact.booked hp

lemma History.tallies {p₀ : Pass} {w₀ : World σ} {y : Pass × World σ}
    (h : History t (p₀, w₀) log y) (hnew : IsNew pivots p₀) : Ledger.Tallies log y.1.ledger := by
  rw [h.ledger, hnew.ledger]
  exact Ledger.tallies_foldl_note log _

/-- Every unit that a worker has begun has its result. -/
def IsQuiet (workers : List (Worker Job)) : Prop :=
  ∀ j, .running j ∈ workers → j.phase.isUnderWay = false

/-- The books of a pass in which every unit that has begun has ended: its log, the audit records
that it left, and its counters. -/
structure Exact (t : Task σ) (log : List Event) (records : List AuditRecord) (c : Counters) :
    Prop where
  applied : c.applied = log.countP Event.isApplied
  recorded : records.countP AuditRecord.applied = c.applied
  summed : c.appliedBy.values.sum = c.applied
  appliedCount : ∀ m, c.appliedCount m = log.countP (Event.appliesKind m)
  recordedKind : ∀ m, records.countP (fun r => r.applied && r.change.modification = m) =
    c.appliedCount m
  computed : c.attempted = log.countP Event.isComputed
  attempted : c.attempted = c.applied + records.countP (!·.applied) + log.countP Event.isRefused
  errored : c.errored = log.countP Event.isFailed
  bounded : c.applied + c.errored ≤ c.seen

/-- Counting among the records of a log is counting in the log. -/
lemma countP_records {records : List AuditRecord}
    (hrecords : records.map AuditRecord.untimed = log.filterMap t.recordOf?)
    (q : String × String × Change × Option Suppression → Bool) {q' : Event → Bool}
    (h : ∀ e, ((t.recordOf? e).map q).getD false = q' e) :
    records.countP (q ·.untimed) = log.countP q' := by
  have hmap : records.countP (q ·.untimed) = (records.map AuditRecord.untimed).countP q :=
    List.countP_map.symm
  rw [hmap, hrecords, List.countP_filterMap]
  exact List.countP_congr fun e _ => by rw [← h e]

lemma record_figures (t : Task σ) (e : Event) :
    ((t.recordOf? e).map fun r => r.2.2.2.isNone).getD false = e.isApplied ∧
    (∀ m, ((t.recordOf? e).map fun r => r.2.2.2.isNone && r.2.2.1.modification = m).getD false =
      e.appliesKind m) ∧
    ((t.recordOf? e).map fun r => !r.2.2.2.isNone).getD false = t.holdsBack e := by
  cases e with
  | late p | started p | cancelled p => simp [Task.recordOf?]
  | computed p planned => cases hreason : t.suppression? planned <;> simp [Task.recordOf?, hreason]
  | answered p c answer =>
    rcases answer with e | accepted
    · simp [Task.recordOf?]
    · cases accepted <;> simp [Task.recordOf?]
  | ended p result => rcases result with e | ⟨⟩ <;> simp [Task.recordOf?]

lemma exact_of_books {records : List AuditRecord} {l : Ledger} (hbalanced : Balanced t log p)
    (htallies : Ledger.Tallies log l) (hquiet : IsQuiet p.pool.workers)
    (hrecords : records.map AuditRecord.untimed = log.filterMap t.recordOf?) :
    Exact t log records l.counters := by
  have hnone : ∀ q : Phase → Bool, (∀ phase, phase.isUnderWay = false → q phase = false) →
      inPhase q p = 0 := by
    intro q hq
    refine List.countP_eq_zero.2 fun x hx => ?_
    cases x with
    | running j => exact Bool.eq_false_iff.1 (hq _ (hquiet j hx))
    | _ => exact Bool.false_ne_true
  have happlying : ∀ phase : Phase, phase.isUnderWay = false → phase.isApplying = false := by
    intro phase hphase
    cases phase <;> simp at hphase ⊢
  have happlied : records.countP AuditRecord.applied = log.countP Event.isApplied :=
    countP_records hrecords (fun r => r.2.2.2.isNone) fun e => (record_figures t e).1
  have hkind : ∀ m, records.countP (fun r => r.applied && r.change.modification = m) =
      log.countP (Event.appliesKind m) := fun m =>
    countP_records hrecords (fun r => r.2.2.2.isNone && r.2.2.1.modification = m)
      fun e => (record_figures t e).2.1 m
  have hheld : records.countP (!·.applied) = log.countP t.holdsBack :=
    countP_records hrecords (fun r => !r.2.2.2.isNone) fun e => (record_figures t e).2.2
  have hended := hbalanced.ended
  have hsettled := hbalanced.settled
  have houtcomes := hbalanced.outcomes
  rw [hnone _ fun _ h => h] at hended
  rw [hnone _ happlying] at hsettled
  refine ⟨htallies.applied, ?_, ?_, htallies.appliedCount, ?_, htallies.attempted, ?_,
    htallies.errored, ?_⟩
  · rw [happlied, htallies.applied]
  · rw [htallies.sum, htallies.applied]
  · intro m
    rw [hkind, htallies.appliedCount]
  · rw [htallies.attempted, htallies.applied, hheld]
    omega
  · rw [htallies.applied, htallies.errored, htallies.seen]
    omega

/-- At the end of a pass that is not broken off nothing is left to do. -/
lemma Intact.finished (h : Intact pivots log p) (hstage : p.pool.stage = .ended true) :
    (∀ x ∈ p.pool.workers, x = .stopped) ∧ p.pool.queue = [] ∧ p.pending = [] := by
  have hstopped : ∀ x ∈ p.pool.workers, x = .stopped := by
    intro x hx
    have hx' := List.all_eq_true.1 (h.still hstage) x hx
    cases x with
    | stopped => rfl
    | idle => simp [Worker.isStopped] at hx'
    | running j => simp [Worker.isStopped] at hx'
  refine ⟨hstopped, ?_, ?_⟩
  · obtain ⟨x, hx⟩ := List.exists_mem_of_ne_nil _ h.staffed
    rw [hstopped x hx] at hx
    exact (h.stopped hx).1
  · by_contra hne
    have haccepting := h.pending hne
    simp [hstage] at haccepting

/-- A pass that has completed has gone over every pivot, and has lost no connection. -/
lemma seen_of_completed {config : TaskConfig} {r : PassReport} (hbooked : Booked t pivots log p)
    (htallies : Ledger.Tallies log p.ledger) (hreport : p.report? config now = some r)
    (hstatus : r.status = .completed) :
    r.counters.seen = pivots.length ∧ ∀ e ∈ log, e.isLost = false := by
  obtain ⟨hfailure, hlate, hstage⟩ := (status_of_report? hreport).1 hstatus
  have hintact := hbooked.intact ⟨hfailure, hlate, by simp [hstage], by simp [hstage]⟩
  obtain ⟨hstopped, hqueue, hpending⟩ := hintact.finished hstage
  have hnone : inPhase Phase.isWaiting p = 0 := by
    refine List.countP_eq_zero.2 fun x hx => ?_
    rw [hstopped x hx]
    exact Bool.false_ne_true
  refine ⟨?_, htallies.failure.1 hfailure⟩
  have hview := hintact.view
  simp only [hnone, hqueue, hpending, List.length_nil] at hview
  rw [counters_of_report? hreport, htallies.seen]
  omega

/-- **The accounts of a pass are exact.**  Take any whole pass, over any adapters and any evaluator
and on any schedule, in which every unit that has begun has its result when the report is taken.
Its counters are the numbers of the events that they are named for, they agree with the audit
records that the pass has left, and a pass that has completed has seen every pivot and lost no
connection. -/
theorem exact_of_conducted {kind : PassKind} {handed : List Pivot} {w w' : World σ}
    {workers : List (Worker Job)} {r : PassReport}
    (h : Conducted t kind handed w pivots log workers w' r) (hquiet : IsQuiet workers) :
    ∃ records, w'.audit = w.audit ++ records ∧ Exact t log records r.counters ∧
      (r.status = .completed →
        r.counters.seen = pivots.length ∧ ∀ e ∈ log, e.isLost = false) := by
  have haudit : ∀ {listed : Except SyncError (List Pivot)} {v : World σ},
      t.scope handed kind w = (listed, v) → v.audit = w.audit := by
    intro listed v hscope
    rw [← t.scope_audit handed kind w, hscope]
  cases h with
  | early hscope =>
    have hnew := isNew_ofKind t.config kind [] 0
    have hidle : IsQuiet (ofKind t.config kind [] 0).pool.workers := by
      intro j hj
      simpa using hnew.workers _ hj
    refine ⟨[], by rw [haudit hscope, List.append_nil], ?_, fun hstatus => ?_⟩
    · exact exact_of_books (booked_of_isNew hnew).balanced (Ledger.tallies_foldl_note [] none)
        hidle rfl
    · simp [Engine.earlyReport] at hstatus
  | whole hscope hhistory hreport =>
    have htallies := hhistory.tallies (isNew_ofKind _ _ _ _)
    have hbooked := hhistory.booked (isNew_ofKind _ _ _ _)
    obtain ⟨records, hrecords, huntimed⟩ := hhistory.audit
    refine ⟨records, by rw [hrecords, haudit hscope], ?_, ?_⟩
    · rw [counters_of_report? hreport]
      exact exact_of_books hbooked.balanced htallies hquiet huntimed
    · exact seen_of_completed hbooked htallies hreport

/-! A pass over four pivots on two workers: the first change is applied, the second is refused, the
third pivot is gone from the source, and the fourth change is held back. -/

/-- A store that answers fetches from a list of entities and applies only some changes. -/
def recital (name : String) (entities : List Entity) (accepted : List String) : Adapter Unit where
  name := name
  isConnectionLost := fun _ => false
  changeFeed := false
  list s := (.ok (["a", "b", "c", "d"].map .ofId), s)
  changed _ s := (.ok [], s)
  requestFetch _ s := (0, s)
  answerFetch p s := (.ok (entities.find? (·.identifier = some p.id)), s)
  apply c _ s := (.ok (accepted.contains c.identifier), s)

def mishaps : Task Unit :=
  ⟨{ TaskConfig.new "mishaps" with workers := 2, dryRun := { DryRun.none with update := true } },
    recital "hr" [.named "a", .named "b",
      Entity.putAll (.named "d") [("room", [.integer 1])]] [],
    recital "directory" [Entity.putAll (.named "d") [("room", [.integer 2])]] ["a"],
    .ofTable []⟩

def mishapsReport : PassReport :=
  ⟨"mishaps", .full, .completed, ⟨4, 3, 1, 2, TextMap.ofList [("create", 1)]⟩, none, 0⟩

theorem exact_of_mishaps :
    ∃ pivots log workers w',
      Conducted mishaps .full [] ⟨(), [], [], ⟨0⟩⟩ pivots log workers w' mishapsReport ∧
      IsQuiet workers ∧
      ∃ records, w'.audit = [] ++ records ∧ Exact mishaps log records mishapsReport.counters ∧
        (mishapsReport.status = .completed →
          mishapsReport.counters.seen = pivots.length ∧ ∀ e ∈ log, e.isLost = false) := by
  set pivots : List Pivot := ["a", "b", "c", "d"].map .ofId with hpivots
  have hstill : (Engine.awaited mishaps (.ofKind mishaps.config .full pivots 0)
      ⟨(), [], [], ⟨0⟩⟩ 0).state.passes.all (·.pool.isStill) = true := by
    decide +kernel
  have hreport : (Engine.awaited mishaps (.ofKind mishaps.config .full pivots 0)
      ⟨(), [], [], ⟨0⟩⟩ 0).state.passes.head?.bind (·.report? mishaps.config 0) =
        some mishapsReport := by
    decide +kernel
  obtain ⟨p, w', log, hstate, hhistory⟩ :=
    Engine.awaited_history mishaps (.ofKind mishaps.config .full pivots 0) ⟨(), [], [], ⟨0⟩⟩ 0
  rw [hstate] at hstill hreport
  have hquiet : IsQuiet p.pool.workers := by
    intro j hj
    have hstopped : p.pool.isStill = true := by simpa using hstill
    have hnone := List.all_eq_true.1 hstopped _ hj
    simp [Worker.isStopped] at hnone
  have hscope : mishaps.scope [] .full ⟨(), [], [], ⟨0⟩⟩ = (.ok pivots, ⟨(), [], [], ⟨0⟩⟩) := rfl
  have hconducted : Conducted mishaps .full [] ⟨(), [], [], ⟨0⟩⟩ pivots log p.pool.workers w'
      mishapsReport :=
    .whole hscope hhistory hreport
  exact ⟨pivots, log, p.pool.workers, w', hconducted, hquiet,
    exact_of_conducted hconducted hquiet⟩

end Pass

end StoreSync
