import StoreSync.Expression.Table
import StoreSync.Proofs.Accounting
import StoreSync.Proofs.Stores
import StoreSync.Store.Trial

/-!
# What a lost connection stops

Three flags stop a pass, and different parties set them at different moments.  A unit that has lost
its connection writes the failure down, which is what the report tells; in a step of its own it then
cancels the pass, which is what every unit looks at before it begins; and the pool is cancelled by
the next unit that leaves, or by the pass when it submits its next unit.  In between, workers still
take units from the queue and the pass may still close it.

From the moment the pass is cancelled no unit is admitted, whatever the schedule.  What goes on are
the units that had been admitted by then, and these are fewer than the workers
(`Pass.halted_of_lost`):

* `Ledger.failure_of_log` — the failure of a ledger is the first lost connection of its log;
* `Pass.History.lost_add` — every lost connection is followed by its cancellation, up to the units
  that are about to make it;
* `Pass.silent_or_atWork` — a turn after the cancellation is one of a unit at work, or a silent one:
  it counts nothing, and neither the stores nor the evaluator have a part in it;
* `Pass.Act.lingers` and `Pass.Act.thinned` — the units at work after the cancellation were so at
  the cancellation, and one worker less than there are has such a unit.
-/

namespace StoreSync

/-! ## The first lost connection -/

namespace Event

/-- The text of a lost connection, when a unit ends with one. -/
def loss? : Event → Option String
  | .ended _ (.error e) => if e.isConnectionLost then some e.message else none
  | _ => none

/-- Whose unit it happens to. -/
@[simp] def pivot : Event → Pivot
  | .late p | .started p | .computed p _ | .answered p _ _ | .ended p _ | .cancelled p => p

end Event

namespace Ledger

@[simp] lemma cancelled_record (l : Ledger) (e : SyncError) :
    (l.record e).cancelled = l.cancelled := by
  unfold record
  split <;> rfl

lemma failure_note (l : Ledger) (e : Event) : (l.note e).failure = l.failure.or e.loss? := by
  cases e with
  | late p | started p | computed p planned | cancelled p => simp [note, Event.loss?]
  | answered p c answer =>
    rcases answer with e | accepted
    · simp [note, Event.loss?]
    · cases accepted <;> simp [note, Event.loss?]
  | ended p result =>
    rcases result with e | ⟨⟩
    · cases hlost : e.isConnectionLost <;> cases hfailure : l.failure <;>
        simp [note, record, Event.loss?, hlost, hfailure]
    · simp [note, Event.loss?]

/-- A failure that is written down stays; without one, the first lost connection is. -/
lemma failure_of_log (log : List Event) (l : Ledger) :
    (log.foldl note l).failure = l.failure.or (log.findSome? Event.loss?) := by
  induction log generalizing l with
  | nil => simp
  | cons e rest ih =>
    rw [List.foldl_cons, ih, failure_note, Option.or_assoc, List.findSome?_cons]
    cases e.loss? <;> rfl

end Ledger

/-! ## Units at work -/

namespace Phase

/-- The unit may begin, and is not yet counted. -/
def isAdmitted : Phase → Bool
  | .admitted => true
  | _ => false

/-- The unit has lost its connection, and not yet cancelled the pass. -/
def isLost : Phase → Bool
  | .lost => true
  | _ => false

/-- The unit may begin or has begun, and has no result yet. -/
def isOpen (phase : Phase) : Bool := phase.isAdmitted || phase.isUnderWay

/-- The unit has something to do beyond looking whether the pass is cancelled. -/
def isAtWork (phase : Phase) : Bool := phase.isOpen || phase.isLost

variable {phase : Phase} (result : Except SyncError Unit)

lemma isAdmitted_eq_false (h : phase.isUnderWay = true) : phase.isAdmitted = false := by
  cases phase <;> first | rfl | simp at h

lemma isAdmitted_after : (Phase.after result).isAdmitted = false := by
  rcases after_eq result with h | h <;> rw [h] <;> rfl

lemma isOpen_after : (Phase.after result).isOpen = false := by
  rcases after_eq result with h | h <;> rw [h] <;> rfl

/-- A result that is a lost connection is still to be followed by the cancellation. -/
lemma toNat_isLost_after (p : Pivot) :
    (Phase.after result).isLost.toNat = [Event.ended p result].countP Event.isLost := by
  rcases result with e | ⟨⟩
  · cases h : e.isConnectionLost <;> simp [Phase.after, h, isLost]
  · rfl

end Phase

namespace Task

variable {σ : Type} {t : Task σ} {now : Nat} {j j' : Job} {l l' : Ledger} {w w' : World σ}
  {events : List Event} {clean : Bool}

/-- Without a deadline no unit comes too late. -/
lemma Doing.timely {s : Step σ} (h : t.Doing now j l w events s) (hnone : l.deadline = none) :
    ∀ e ∈ events, e.isLate = false := by
  cases h with
  | late _ _ hdue => simp [hnone, isDue] at hdue
  | _ => simp

/-- A unit is about to cancel the pass exactly if it has lost its connection. -/
lemma Doing.lost_add (h : t.Doing now j l w events (.running j', l', w')) :
    events.countP Event.isCancelled + j'.phase.isLost.toNat =
      events.countP Event.isLost + j.phase.isLost.toNat := by
  -- A unit that comes to its result had lost no connection before.
  have hbefore : j.phase.isUnderWay = true → j.phase.isLost = false := by
    cases j.phase <;> simp [Phase.isLost]
  cases h with
  | late hphase | enter hphase | start hphase | cancel hphase => simp [hphase, Phase.isLost]
  | ask hphase =>
    rcases hphase with ⟨hphase, rfl⟩ | ⟨hphase, known, rfl⟩ <;> simp [hphase, Phase.isLost]
  | @settle result _ hphase =>
    have hunder : j.phase.isUnderWay = true := by
      rcases hphase with hphase | ⟨known, hphase⟩ <;> simp [hphase]
    rw [Phase.toNat_isLost_after result j.pivot, hbefore hunder]
    simp
  | hold hphase =>
    rcases hphase with hphase | ⟨known, hphase⟩ <;> simp [hphase, Phase.after, Phase.isLost]
  | plan hphase => rcases hphase with hphase | ⟨known, hphase⟩ <;> simp [hphase, Phase.isLost]
  | apply hphase => simp [hphase, Phase.after, Phase.isLost]
  | @refuse c answer e _ hphase =>
    rw [Phase.toNat_isLost_after _ j.pivot, hbefore (by simp [hphase])]
    simp

/-- How a unit goes on in a cancelled pass: it has been admitted before. -/
structure GoesOn (j j' : Job) (events : List Event) : Prop where
  atWork : j.phase.isAtWork = true
  pivot : j'.pivot = j.pivot
  theirs : ∀ e ∈ events, e.pivot = j.pivot
  started : events.countP Event.isStarted + j'.phase.isAdmitted.toNat = j.phase.isAdmitted.toNat
  ended : events.countP Event.isEnded + j'.phase.isOpen.toNat = j.phase.isOpen.toNat

/-- A unit that comes to its result was under way. -/
lemma goesOn_after (result : Except SyncError Unit) (hphase : j.phase.isUnderWay = true)
    (hpivot : j'.pivot = j.pivot) (hafter : j'.phase = .after result)
    (htheirs : ∀ e ∈ events, e.pivot = j.pivot) (hstarted : events.countP Event.isStarted = 0)
    (hended : events.countP Event.isEnded = 1) : GoesOn j j' events := by
  refine ⟨by rw [Phase.isAtWork, Phase.isOpen, hphase, Bool.or_true, Bool.true_or], hpivot, htheirs,
    ?_, ?_⟩
  · rw [hstarted, hafter, Phase.isAdmitted_after, Phase.isAdmitted_eq_false hphase]
    rfl
  · rw [hended, hafter, Phase.isOpen_after, Phase.isOpen, Phase.isAdmitted_eq_false hphase, hphase]
    rfl

lemma Doing.goesOn (h : t.Doing now j l w events (.running j', l', w'))
    (hcancelled : l.cancelled = true) : GoesOn j j' events := by
  cases h with
  | late _ hopen | enter _ hopen => simp [hcancelled] at hopen
  | start hphase | cancel hphase =>
    constructor <;> simp [hphase, Phase.isAtWork, Phase.isOpen, Phase.isAdmitted, Phase.isLost]
  | ask hphase =>
    rcases hphase with ⟨hphase, rfl⟩ | ⟨hphase, known, rfl⟩ <;>
      constructor <;> simp [hphase, Phase.isAtWork, Phase.isOpen, Phase.isAdmitted]
  | plan hphase =>
    rcases hphase with hphase | ⟨known, hphase⟩ <;>
      constructor <;> simp [hphase, Phase.isAtWork, Phase.isOpen, Phase.isAdmitted]
  | @settle result _ hphase =>
    refine goesOn_after result ?_ rfl rfl (by simp) (by simp) (by simp)
    rcases hphase with hphase | ⟨known, hphase⟩ <;> simp [hphase]
  | hold hphase =>
    refine goesOn_after (.ok ()) ?_ rfl rfl (by simp) (by simp) (by simp)
    rcases hphase with hphase | ⟨known, hphase⟩ <;> simp [hphase]
  | apply hphase =>
    exact goesOn_after (.ok ()) (by simp [hphase]) rfl rfl (by simp) (by simp) (by simp)
  | @refuse c answer e _ hphase =>
    exact goesOn_after (.error e) (by simp [hphase]) rfl rfl (by simp) (by simp) (by simp)

/-- The unit that cancels the pass has nothing left to do. -/
lemma Doing.cancels (h : t.Doing now j l w events (.running j', l', w'))
    (hopen : l.cancelled = false) (hcancelled : l'.cancelled = true) : j'.phase = .ended := by
  cases h with
  | late | cancel => rfl
  | @settle result =>
    rcases result with e | ⟨⟩ <;> simp [hopen] at hcancelled
  | refuse => simp [hopen] at hcancelled
  | _ => simp [hopen] at hcancelled

/-- A unit that is not at work leaves its worker, whatever the stores and the evaluator are. -/
lemma unitStep_of_not_atWork (hcancelled : l.cancelled = true)
    (hphase : j.phase.isAtWork = false) : t.unitStep clean now j l w = (.ended true, l, w) := by
  cases hj : j.phase with
  | waiting => simp [unitStep, enter, hj, hcancelled]
  | ended => simp [unitStep, hj, hcancelled]
  | _ => simp [hj, Phase.isAtWork, Phase.isOpen, Phase.isAdmitted, Phase.isLost] at hphase

end Task

namespace Pass

variable {σ : Type} {t : Task σ} {now n : Nat} {log events earlier later : List Event}
  {p q : Pass} {w v : World σ} {z : Pass × World σ} {p₀ : Pass} {w₀ : World σ}
  {pivots : List Pivot}

lemma History.failure (h : History t (p₀, w₀) log (p, w)) :
    p.ledger.failure = p₀.ledger.failure.or (log.findSome? Event.loss?) := by
  rw [show p.ledger = log.foldl Ledger.note p₀.ledger from h.ledger, Ledger.failure_of_log]

lemma History.timely (h : History t (p₀, w₀) log (p, w)) (hnone : p₀.ledger.deadline = none) :
    ∀ e ∈ log, e.isLate = false := by
  refine (h.keeps (I := fun log y => y.1.ledger.deadline = none ∧ ∀ e ∈ log, e.isLate = false)
    ⟨hnone, by simp⟩ ?_).2
  rintro log events p w z now ⟨hdeadline, hlog⟩ hact
  have hevents : ∀ e ∈ events, e.isLate = false := by
    cases hact with
    | go _ hstep => exact (Task.doing_of_step hstep).timely hdeadline
    | _ => simp
  refine ⟨?_, fun e he => (List.mem_append.1 he).elim (hlog e) (hevents e)⟩
  rw [hact.ledger, Ledger.deadline_foldl_note]
  exact hdeadline

lemma inPhase_of_isNew (hnew : IsNew pivots p₀) (q : Phase → Bool) : inPhase q p₀ = 0 := by
  refine List.countP_eq_zero.2 fun x hx => ?_
  rw [hnew.workers x hx]
  exact Bool.false_ne_true

/-- **Every lost connection is followed by its cancellation**, up to the units that are about to
make it; and nothing else is. -/
lemma History.lost_add (h : History t (p₀, w₀) log (p, w)) (hnew : IsNew pivots p₀) :
    log.countP Event.isCancelled + inPhase Phase.isLost p = log.countP Event.isLost := by
  refine (h.keeps (I := fun log y => y.1.IsQueued ∧
    log.countP Event.isCancelled + inPhase Phase.isLost y.1 = log.countP Event.isLost)
    ⟨by simp [IsQueued, hnew.queue], by simp [inPhase_of_isNew hnew]⟩ ?_).2
  rintro log events p w z now ⟨hqueued, hlost⟩ hact
  simp only at hlost
  have hturn : events.countP Event.isCancelled + inPhase Phase.isLost z.1 =
      events.countP Event.isLost + inPhase Phase.isLost p :=
    hact.inPhase_add hqueued rfl rfl (by rintro rfl; rfl) Task.Doing.lost_add
  refine ⟨hact.queued hqueued, ?_⟩
  simp only [List.countP_append]
  omega

/-! ## Turns after the cancellation -/

/-- A worker has a unit of a pivot that has been admitted, and that has something left to do. -/
def HasAtWork (k : Nat) (pivot : Pivot) (p : Pass) : Prop :=
  ∃ j, p.pool.workers[k]? = some (.running j) ∧ j.phase.isAtWork = true ∧ j.pivot = pivot

/-- A turn in which nothing is counted or recorded and nothing happens to the stores.  Neither
they nor the evaluator are asked anything: with any others in their place it is the same turn. -/
structure Silent (t : Task σ) (now : Nat) (p : Pass) (w : World σ) (z : Pass × World σ) :
    Prop where
  ledger : z.1.ledger = p.ledger
  world : z.2 = w
  indifferent : ∀ t' : Task σ, t'.config = t.config → Turn t' now (p, w) z

lemma silent_of_lead {p' : Pass} (h : p.lead? t.config now = some p') :
    Silent t now p w (p', w) :=
  ⟨(act_of_lead (w := w) h).ledger, rfl, fun _ hconfig => .lead (hconfig ▸ h)⟩

/-- A worker without a unit has the same turn whatever its units would do. -/
lemma silent_of_idle {k : Nat} {p' : Pass} {w' : World σ}
    (hidle : p.pool.workers[k]? = some .idle) (h : p.turn? t now k w = some (p', w')) :
    Silent t now p w (p', w') := by
  have hindifferent : ∀ t' : Task σ, t'.config = t.config → Turn t' now (p, w) (p', w') := by
    intro t' _
    refine .worker k (Eq.trans ?_ h)
    simp only [turn?, Pool.turn?, hidle]
  obtain ⟨⟨pool, ledger, w''⟩, hpool, heq⟩ := Option.map_eq_some_iff.1 h
  simp only [Prod.mk.injEq] at heq
  obtain ⟨rfl, rfl⟩ := heq
  cases Pool.turn?_cases hpool with
  | stop _ _ => exact ⟨rfl, rfl, hindifferent⟩
  | take _ _ _ => exact ⟨rfl, rfl, hindifferent⟩
  | go hrunning _ => simp [hidle] at hrunning
  | finish hrunning _ => simp [hidle] at hrunning
  | crash hrunning _ => simp [hidle] at hrunning

/-- **After the cancellation** a turn is silent, or the turn of a worker whose unit is at work. -/
theorem silent_or_atWork (hcancelled : p.ledger.cancelled = true)
    (hturn : Turn t now (p, w) z) :
    Silent t now p w z ∨ ∃ k pivot, HasAtWork k pivot p ∧ p.turn? t now k w = some z := by
  cases hturn with
  | lead h => exact Or.inl (silent_of_lead h)
  | watch h => exact Or.inl ⟨rfl, rfl, fun _ _ => .watch h⟩
  | @worker _ p' _ w' k h =>
    cases hworker : p.pool.workers[k]? with
    | none => simp [turn?, Pool.turn?, hworker] at h
    | some x =>
      cases x with
      | stopped => simp [turn?, Pool.turn?, hworker] at h
      | idle => exact Or.inl (silent_of_idle hworker h)
      | running j =>
        cases hphase : j.phase.isAtWork with
        | true => exact Or.inr ⟨k, j.pivot, ⟨j, hworker, hphase, rfl⟩, h⟩
        | false =>
          have hsame : ∀ t' : Task σ, p.turn? t' now k w =
              some ({ p with pool := p.pool.cancel.setWorker k .idle }, w) := by
            intro t'
            have hstep : (t'.units p.isClean).step now j (p.ledger, w) =
                (.ended true, p.ledger, w) := Task.unitStep_of_not_atWork hcancelled hphase
            simp [turn?, Pool.turn?, hworker, hstep]
          obtain ⟨rfl, rfl⟩ := Prod.mk.inj (Option.some.inj ((hsame t).symm.trans h))
          exact Or.inl ⟨rfl, rfl, fun t' _ => .worker k (hsame t')⟩

/-! ## The units that go on -/

/-- A worker that takes up something else brings no unit at work with it that it did not have
before. -/
lemma HasAtWork.of_set {p' : Pass} {k k' : Nat} {pivot : Pivot} {y : Worker Job}
    (h : HasAtWork k' pivot p') (hworkers : p'.pool.workers = p.pool.workers.set k y)
    (hy : ∀ j, y = .running j → j.phase.isAtWork = true → HasAtWork k j.pivot p) :
    HasAtWork k' pivot p := by
  obtain ⟨j, hj, hphase, rfl⟩ := h
  rw [hworkers, List.getElem?_set] at hj
  split at hj
  next heq =>
    split at hj
    · rw [← heq]
      exact hy j (Option.some.inj hj) hphase
    · simp at hj
  next => exact ⟨j, hj, hphase, rfl⟩

/-- After the cancellation things happen only to units at work, and those at work after a turn were
so before. -/
lemma Act.after_cancelled (h : Act t now p w events z) (hcancelled : p.ledger.cancelled = true)
    (hqueued : p.IsQueued) :
    (∀ e ∈ events, ∃ k, HasAtWork k e.pivot p) ∧
      ∀ k pivot, HasAtWork k pivot z.1 → HasAtWork k pivot p := by
  cases h with
  | submit | await | close | expire | giveUp => exact ⟨by simp, fun _ _ hk => hk⟩
  | drop _ hpool _ =>
    refine ⟨by simp, fun _ _ hk => ?_⟩
    rcases hpool with rfl | ⟨-, rfl⟩ <;> exact hk
  | stop _ _ => exact ⟨by simp, fun _ _ hk => hk.of_set rfl (by simp)⟩
  | @take k j rest _ _ hqueue =>
    refine ⟨by simp, fun _ _ hk => hk.of_set rfl fun i hi hphase => ?_⟩
    obtain rfl := Worker.running.inj hi
    rw [hqueued j (by rw [hqueue]; exact List.mem_cons_self)] at hphase
    exact absurd hphase Bool.false_ne_true
  | @go k j j' l' w' hrunning hstep =>
    have hgoes := (Task.doing_of_step hstep).goesOn hcancelled
    refine ⟨fun e he => ⟨k, j, hrunning, hgoes.atWork, (hgoes.theirs e he).symm⟩, fun _ _ hk => ?_⟩
    refine hk.of_set rfl fun i hi _ => ?_
    obtain rfl := Worker.running.inj hi
    exact ⟨j, hrunning, hgoes.atWork, hgoes.pivot.symm⟩
  | @leave k j _ _ =>
    refine ⟨by simp, fun _ _ hk => hk.of_set (k := k) (y := .idle) ?_ (by simp)⟩
    split <;> rfl

/-- What is left of a cancelled pass: its units at work were so when it was cancelled, nothing has
happened to others since, and what has begun or come to a result was admitted or under way then. -/
structure Lingers (p : Pass) (later : List Event) (q : Pass) : Prop where
  cancelled : q.ledger.cancelled = true
  queued : q.IsQueued
  theirs : ∀ e ∈ later, ∃ k, HasAtWork k e.pivot p
  running : ∀ k pivot, HasAtWork k pivot q → HasAtWork k pivot p
  started : later.countP Event.isStarted + inPhase Phase.isAdmitted q = inPhase Phase.isAdmitted p
  ended : later.countP Event.isEnded + inPhase Phase.isOpen q = inPhase Phase.isOpen p

lemma Act.lingers (h : Act t now q v events z) (hq : Lingers p later q) :
    Lingers p (later ++ events) z.1 := by
  obtain ⟨htheirs, hrunning⟩ := h.after_cancelled hq.cancelled hq.queued
  have hstarted : events.countP Event.isStarted + inPhase Phase.isAdmitted z.1 =
      0 + inPhase Phase.isAdmitted q := by
    refine h.inPhase_add hq.queued rfl rfl (fun hnone => by simp [hnone]) fun hdoing => ?_
    rw [Nat.zero_add]
    exact (hdoing.goesOn hq.cancelled).started
  have hended : events.countP Event.isEnded + inPhase Phase.isOpen z.1 =
      0 + inPhase Phase.isOpen q := by
    refine h.inPhase_add hq.queued rfl rfl (fun hnone => by simp [hnone]) fun hdoing => ?_
    rw [Nat.zero_add]
    exact (hdoing.goesOn hq.cancelled).ended
  have hbefore := hq.started
  have hbefore' := hq.ended
  have hkeeps : ∀ k pivot, HasAtWork k pivot z.1 → HasAtWork k pivot p :=
    fun k pivot hk => hq.running k pivot (hrunning k pivot hk)
  refine ⟨?_, h.queued hq.queued, fun e he => ?_, hkeeps, ?_, ?_⟩
  · rw [h.ledger, Ledger.cancelled_foldl_note]
    exact Or.inl hq.cancelled
  · rcases List.mem_append.1 he with he | he
    · exact hq.theirs e he
    · obtain ⟨k, hk⟩ := htheirs e he
      exact ⟨k, hq.running k _ hk⟩
  · simp only [List.countP_append]
    omega
  · simp only [List.countP_append]
    omega

lemma History.lingers (h : History t (p, w) later (q, v))
    (hcancelled : p.ledger.cancelled = true) (hqueued : p.IsQueued) : Lingers p later q := by
  refine h.keeps (I := fun later y => Lingers p later y.1)
    ⟨hcancelled, hqueued, by simp, fun _ _ hk => hk, by simp, by simp⟩ ?_
  intro later events q v z now hq hact
  exact hact.lingers hq

/-! ## Fewer units than workers -/

/-- The number of workers does not change, and once the pass is cancelled at least one of them has
no unit at work. -/
structure Thinned (n : Nat) (p : Pass) : Prop where
  staff : p.pool.workers.length = n
  few : p.ledger.cancelled = true → inPhase Phase.isAtWork p < n

lemma Act.length_workers (h : Act t now p w events z) :
    z.1.pool.workers.length = p.pool.workers.length := by
  cases h with
  | drop _ hpool _ => rcases hpool with rfl | ⟨-, rfl⟩ <;> rfl
  | stop | take | go => simp [Pool.setWorker]
  | leave => split <;> simp [Pool.setWorker, Pool.cancel]
  | _ => rfl

/-- A worker whose unit is not at work is one less. -/
lemma inPhase_lt {x : Worker Job} (hx : x ∈ p.pool.workers)
    (hfree : x.isIn Phase.isAtWork = false) :
    inPhase Phase.isAtWork p < p.pool.workers.length := by
  refine Nat.lt_of_le_of_ne List.countP_le_length fun hall => ?_
  have hthis := List.countP_eq_length.1 hall x hx
  exact Bool.false_ne_true (hfree.symm.trans hthis)

lemma Act.thinned (h : Act t now p w events z) (hqueued : p.IsQueued) (hp : Thinned n p) :
    Thinned n z.1 := by
  have hstaff := h.length_workers.trans hp.staff
  refine ⟨hstaff, fun hz => ?_⟩
  rcases h.quiet_or_doing hqueued with ⟨rfl, hsame⟩ | ⟨k, j, j', hrunning, hworkers, hdoing⟩
  · have hledger : z.1.ledger = p.ledger := h.ledger
    rw [hsame _ rfl rfl]
    exact hp.few (hledger ▸ hz)
  · cases hcancelled : p.ledger.cancelled with
    | true =>
      have hfew := hp.few hcancelled
      have hset := countP_set hrunning (Worker.isIn Phase.isAtWork) (.running j')
      have hone := Bool.toNat_le j'.phase.isAtWork
      simp only [Worker.isIn, (hdoing.goesOn hcancelled).atWork, Bool.toNat_true] at hset
      simp only [inPhase, hworkers] at hfew ⊢
      omega
    | false =>
      -- The unit that cancels the pass has ended, and its worker still has it.
      have hfree : (Worker.running j').isIn Phase.isAtWork = false := by
        simp only [Worker.isIn, hdoing.cancels hcancelled hz]
        rfl
      rw [← hstaff]
      exact inPhase_lt (hworkers ▸ mem_set_self hrunning _) hfree

lemma History.thinned (h : History t (p₀, w₀) log (p, w)) (hnew : IsNew pivots p₀) :
    Thinned p₀.pool.workers.length p := by
  have hstart : Thinned p₀.pool.workers.length p₀ := by
    refine ⟨rfl, fun hcancelled => ?_⟩
    rw [hnew.ledger] at hcancelled
    exact absurd hcancelled Bool.false_ne_true
  refine (h.keeps (I := fun _ y => y.1.IsQueued ∧ Thinned p₀.pool.workers.length y.1)
    ⟨by simp [IsQueued, hnew.queue], hstart⟩ ?_).2
  intro log events p w z now hp hact
  exact ⟨hact.queued hp.1, hact.thinned hp.1 hp.2⟩

/-! ## The rest of a pass after the cancellation -/

/-- How a pass goes on after it was cancelled: from `p` on to `q`, with what has happened in
between. -/
structure WindsDown (t : Task σ) (p : Pass) (later : List Event) (q : Pass) (v : World σ) :
    Prop where
  /-- The units that were at work are fewer than the workers, ... -/
  few : inPhase Phase.isAtWork p < max t.config.workers 1
  /-- ... whatever has happened since has happened to them, ... -/
  theirs : ∀ e ∈ later, ∃ k, HasAtWork k e.pivot p
  /-- ... and each of them that had no result has one now, or is still at work. -/
  ended : later.countP Event.isEnded + inPhase Phase.isOpen q = inPhase Phase.isOpen p
  /-- Nobody is counted as seen since but those who were admitted by then, ... -/
  started : later.countP Event.isStarted + inPhase Phase.isAdmitted q = inPhase Phase.isAdmitted p
  /-- ... and they are what the counter has grown by. -/
  seen : q.ledger.counters.seen = p.ledger.counters.seen + later.countP Event.isStarted
  /-- Whatever turn comes next is silent, or a step of a unit that was at work. -/
  silent : ∀ now z, Turn t now (q, v) z → Silent t now q v z ∨
    ∃ k pivot, HasAtWork k pivot p ∧ HasAtWork k pivot q ∧ q.turn? t now k v = some z

lemma windsDown_of_cancelled (hnew : IsNew pivots p₀)
    (hstaff : p₀.pool.workers.length = max t.config.workers 1)
    (hearlier : History t (p₀, w₀) earlier (p, w)) (hlater : History t (p, w) later (q, v))
    (hcancelled : p.ledger.cancelled = true) : WindsDown t p later q v := by
  have hlingers := hlater.lingers hcancelled (hearlier.booked hnew).balanced.queued
  refine ⟨hstaff ▸ (hearlier.thinned hnew).few hcancelled, hlingers.theirs, hlingers.ended,
    hlingers.started, ?_, fun now z hturn => ?_⟩
  · rw [((hearlier.trans hlater).tallies hnew).seen, (hearlier.tallies hnew).seen,
      List.countP_append]
  · rcases silent_or_atWork hlingers.cancelled hturn with hsilent | ⟨k, pivot, hk, hz⟩
    · exact Or.inl hsilent
    · exact Or.inr ⟨k, pivot, hlingers.running k pivot hk, hk, hz⟩

/-! ## The report -/

/-- A report says `failed` exactly if the failure is written down, and then it gives its text. -/
lemma failed_of_report? {config : TaskConfig} {r : PassReport}
    (h : p.report? config now = some r) :
    (r.status = .failed ↔ p.ledger.failure.isSome = true) ∧
      ∀ text, p.ledger.failure = some text → r.error = some text := by
  obtain ⟨complete, -, hr⟩ := Option.map_eq_some_iff.1 h
  rw [← hr]
  cases hfailure : p.ledger.failure <;> cases hcomplete : complete && !p.ledger.late <;>
    simp

/-- **A lost connection stops the pass.**  Take any run of a pass over any pivots, for any number
of workers, any adapters, any evaluator and any schedule.  Every connection that is lost is followed
by the cancellation of the pass, and nothing else cancels it.  If it is cancelled in the first part
of the run, it only winds down in the second.  Whenever a report can be taken, it says `failed`
exactly if a connection has been lost before, and then its error is the text of the first one; and
the pass can always be taken to its report. -/
theorem halted_of_lost {kind : PassKind} {start : Nat}
    (hearlier : History t (.reconciling t.config kind pivots start, w₀) earlier (p, w))
    (hlater : History t (p, w) later (q, v)) :
    (earlier.countP Event.isCancelled + inPhase Phase.isLost p = earlier.countP Event.isLost ∧
      (p.ledger.cancelled = true ↔ ∃ e ∈ earlier, e.isCancelled = true)) ∧
    ((∃ e ∈ earlier, e.isCancelled = true) → WindsDown t p later q v) ∧
    (∀ time r, q.report? t.config time = some r →
      (r.status = .failed ↔ ∃ e ∈ earlier ++ later, e.isLost = true) ∧
      ∀ text, (earlier ++ later).findSome? Event.loss? = some text → r.error = some text) ∧
    ∃ rest z, History t (q, v) rest z ∧ ∀ time, (z.1.report? t.config time).isSome = true := by
  have hnew := isNew_reconciling t.config kind pivots start
  have hboth := hearlier.trans hlater
  have hcancelled : p.ledger.cancelled = true ↔ ∃ e ∈ earlier, e.isCancelled = true := by
    have htimely := hearlier.timely rfl
    rw [show p.ledger = _ from hearlier.ledger, Ledger.cancelled_foldl_note]
    constructor
    · rintro (hopen | ⟨e, he, hlate | hcancelled⟩)
      · exact absurd hopen Bool.false_ne_true
      · exact absurd ((htimely e he).symm.trans hlate) Bool.false_ne_true
      · exact ⟨e, he, hcancelled⟩
    · exact fun ⟨e, he, hcancelled⟩ => Or.inr ⟨e, he, Or.inr hcancelled⟩
  refine ⟨⟨hearlier.lost_add hnew, hcancelled⟩, fun hevent => ?_, fun time r hreport => ?_, ?_⟩
  · exact windsDown_of_cancelled hnew (by simp [reconciling, Pool.new]) hearlier hlater
      (hcancelled.2 hevent)
  · obtain ⟨hstatus, herror⟩ := failed_of_report? hreport
    refine ⟨hstatus.trans ?_, fun text htext => herror text ?_⟩
    · rw [Option.isSome_iff_ne_none, Ne, (hboth.tallies hnew).failure]
      simp
    · rw [hboth.failure, htext]
      rfl
  · obtain ⟨z, hrun, hended⟩ := exists_report (t := t) (x := (q, v)) (fun _ _ => True)
      (I := fun _ => True) (fun _ _ _ => trivial) (fun _ => ⟨0, trivial⟩) trivial
    obtain ⟨rest, hrest⟩ := hrun.exists_history
    refine ⟨rest, z, hrest, fun time => ?_⟩
    rw [report?, Option.isSome_map, hended]

/-! ### An outage

Three workers have four pivots.  The connection to the source is lost for the first pivot while the
second is about to be applied.  The third pivot is admitted just before the pass is cancelled, and
then the connection to the destination is lost too. -/

/-- The turn of a worker, or else that of the pass or of whoever awaits its pool. -/
def move? (t : Task σ) (now : Nat) (who : Option Nat) (y : Pass × World σ) :
    Option (List Event × Pass × World σ) :=
  match who with
  | some k => (y.1.turn? t now k y.2).map fun z => (y.1.eventsOf t now k y.2, z)
  | none =>
    match y.1.lead? t.config now with
    | some p => some ([], p, y.2)
    | none => (y.1.pool.watch? now).map fun pool => ([], { y.1 with pool := pool }, y.2)

lemma happens_of_move? {who : Option Nat} {y z : Pass × World σ}
    (h : move? t now who y = some (events, z)) : Happens t now y events z := by
  obtain ⟨p, w⟩ := y
  cases who with
  | some k =>
    obtain ⟨⟨p', w'⟩, hturn, heq⟩ := Option.map_eq_some_iff.1 h
    obtain ⟨rfl, rfl⟩ := Prod.mk.inj heq
    exact .worker k hturn
  | none =>
    simp only [move?] at h
    split at h
    next p' hlead =>
      obtain ⟨rfl, rfl⟩ := Prod.mk.inj (Option.some.inj h)
      exact .lead hlead
    next =>
      obtain ⟨pool, hwatch, heq⟩ := Option.map_eq_some_iff.1 h
      obtain ⟨rfl, rfl⟩ := Prod.mk.inj heq
      exact .watch hwatch

/-- The turns of a schedule, all at the same time, with what happens in them. -/
def play (t : Task σ) (now : Nat) :
    List (Option Nat) → Pass × World σ → Option (List Event × Pass × World σ)
  | [], y => some ([], y)
  | who :: rest, y =>
    (move? t now who y).bind fun x => (play t now rest x.2).map fun z => (x.1 ++ z.1, z.2)

lemma history_of_play {schedule : List (Option Nat)} {y z : Pass × World σ}
    (h : play t now schedule y = some (log, z)) : History t y log z := by
  induction schedule generalizing y log with
  | nil =>
    obtain ⟨rfl, rfl⟩ := Prod.mk.inj (Option.some.inj h)
    exact .refl
  | cons who rest ih =>
    obtain ⟨⟨events, x⟩, hmove, hrest⟩ := Option.bind_eq_some_iff.1 h
    obtain ⟨⟨later, z⟩, hplay, heq⟩ := Option.map_eq_some_iff.1 hrest
    obtain ⟨rfl, rfl⟩ := Prod.mk.inj heq
    exact (History.refl.step (happens_of_move? hmove)).trans (ih hplay)

def outagePivots : List Pivot := ["a", "b", "c", "d"].map .ofId

/-- The source loses its connection when it is asked for the first pivot, the destination when it is
to change anything. -/
def outage : Task (TrialStore × TrialStore) :=
  ⟨{ TaskConfig.new "outage" with workers := 3 },
    (TrialStore.adapter "hr" false
      ⟨none, 0, [("a", .connectionFailed "no route")], [], none, [], [], []⟩).first,
    (TrialStore.adapter "directory" false ⟨none, 0, [], [], some 0, [], [], []⟩).second,
    .ofTable []⟩

def beforeOutage : World (TrialStore × TrialStore) :=
  ⟨(.new ((MemoryStore.new "hr" "uid").insertAll
      [(Entity.putAll (.named "b") [("uid", [.string "b"])], ⟨0⟩)]),
    .new (.new "directory" "uid")), [], [], ⟨0⟩⟩

/-- Up to the cancellation: the pivots are submitted, the second worker comes to its change, and the
third takes its unit between the lost connection of the first and the cancellation. -/
def untilOutage : List (Option Nat) :=
  [none, none, none, none, none, some 0, some 1, some 1, some 1, some 1, some 1, some 1, some 0,
    some 0, some 0, some 0, some 2, some 2, some 0]

/-- The third worker has its pivot counted, the second applies its change, and all of them stop. -/
def afterOutage : List (Option Nat) :=
  [some 2, some 1, some 1, some 2, some 2, some 2, some 1, some 1, some 0, some 0, some 2, some 2,
    none]

theorem halted_of_outage :
    ∃ earlier p w later q v r,
      History outage (.reconciling outage.config .full outagePivots 0, beforeOutage) earlier
        (p, w) ∧
      History outage (p, w) later (q, v) ∧
      (∃ e ∈ earlier, e.isCancelled = true) ∧
      ((∃ e ∈ later, e.isStarted = true) ∧ ∃ e ∈ later, e.isLost = true) ∧
      q.report? outage.config 0 = some r ∧ WindsDown outage p later q v ∧ r.status = .failed ∧
      r.error = some "Connection lost to hr: connection failed: no route" := by
  have hplay : (play outage 0 untilOutage
      (.reconciling outage.config .full outagePivots 0, beforeOutage)).any (fun x =>
        x.1.any Event.isCancelled && (play outage 0 afterOutage x.2).any fun y =>
          y.1.any Event.isStarted && y.1.any Event.isLost &&
            (y.2.1.report? outage.config 0).isSome &&
            (x.1 ++ y.1).findSome? Event.loss? =
              some "Connection lost to hr: connection failed: no route") = true := by
    decide +kernel
  obtain ⟨⟨earlier, p, w⟩, hearlier, hthen⟩ := (Option.any_eq_true _ _).1 hplay
  obtain ⟨hcancelled, hthen⟩ := (Bool.and_eq_true _ _).mp hthen
  obtain ⟨⟨later, q, v⟩, hlater, hthen⟩ := (Option.any_eq_true _ _).1 hthen
  obtain ⟨hthen, hfirst⟩ := (Bool.and_eq_true _ _).mp hthen
  obtain ⟨hthen, hreport⟩ := (Bool.and_eq_true _ _).mp hthen
  obtain ⟨hstarted, hagain⟩ := (Bool.and_eq_true _ _).mp hthen
  obtain ⟨r, hr⟩ := Option.isSome_iff_exists.1 hreport
  have hcancelled := List.any_eq_true.1 hcancelled
  have hagain := List.any_eq_true.1 hagain
  obtain ⟨-, hdown, hreported, -⟩ :=
    halted_of_lost (history_of_play hearlier) (history_of_play hlater)
  obtain ⟨hstatus, herror⟩ := hreported 0 r hr
  obtain ⟨e, he, hlost⟩ := hagain
  exact ⟨earlier, p, w, later, q, v, r, history_of_play hearlier, history_of_play hlater,
    hcancelled, ⟨List.any_eq_true.1 hstarted, e, he, hlost⟩, hr, hdown hcancelled,
    hstatus.2 ⟨e, List.mem_append_right _ he, hlost⟩, herror _ (of_decide_eq_true hfirst)⟩

end Pass

end StoreSync
