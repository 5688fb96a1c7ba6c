import StoreSync.Proofs.Runs

/-!
# What happens in a pass

A run says how the state of a pass moves.  What its units did on the way — which of them began,
which changes were computed, what the destination answered when a change was applied, and how each
unit ended — is the log of the run.  `Task.unitEvents` reads off the state what the next step of a
unit adds to the log, and `Pass.History` is a run together with its log.  Nothing is assumed of the
adapters, of the evaluator or of the schedule.

Two inversions carry all that follows:

* `Task.doing_of_unitStep` — what a step of a unit can be, with the events of each case;
* `Pass.act_of_happens` — what a turn of a pass can be, with the events of each case.

`Task.Doing.ledger` and `Task.Doing.audit` are the reason for the log: the ledger and the audit of a
pass are what its log says (`Pass.History.ledger`, `Pass.History.audit`).
-/

namespace StoreSync

/-- What can happen to the unit of a pivot. -/
inductive Event where
  /-- The unit has come after the deadline, and does not begin. -/
  | late (p : Pivot)
  /-- The unit is counted as seen. -/
  | started (p : Pivot)
  /-- A change was computed. -/
  | computed (p : Pivot) (plan : PlannedChange)
  /-- The destination has answered the request to apply a change. -/
  | answered (p : Pivot) (c : Change) (answer : Except StoreError Bool)
  | ended (p : Pivot) (result : Except SyncError Unit)
  /-- The unit has lost a connection, and has now cancelled the pass. -/
  | cancelled (p : Pivot)

/-- Write an event down in the ledger. -/
def Ledger.note (l : Ledger) : Event → Ledger
  | .late _ => { l with cancelled := true, late := true }
  | .started _ => { l with counters := l.counters.recordSeen }
  | .computed _ _ => { l with counters := l.counters.recordAttempted }
  | .answered _ c (.ok true) => { l with counters := l.counters.recordApplied c.modification }
  | .answered _ _ _ => l
  | .ended _ (.error e) => l.record e
  | .ended _ (.ok ()) => l
  | .cancelled _ => { l with cancelled := true }

namespace Phase

/-- The unit has its result, or does not begin. -/
@[simp] def isThrough : Phase → Bool
  | .lost | .ended => true
  | _ => false

variable (result : Except SyncError Unit)

lemma after_eq : Phase.after result = .lost ∨ Phase.after result = .ended := by
  rcases result with e | ⟨⟩
  · cases h : e.isConnectionLost <;> simp [Phase.after, h]
  · exact Or.inr rfl

lemma isThrough_after : (Phase.after result).isThrough = true := by
  rcases after_eq result with h | h <;> rw [h] <;> rfl

@[simp] lemma after_ne_destinationAsked (known : Option Entity) :
    Phase.after result ≠ .destinationAsked known := by
  rcases after_eq result with h | h <;> simp [h]

@[simp] lemma after_ne_applying (c : Change) : Phase.after result ≠ .applying c := by
  rcases after_eq result with h | h <;> simp [h]

end Phase

namespace Task

variable {σ : Type} (t : Task σ)

/-- What happens when a plan is taken up. -/
def planEvents (p : Pivot) (plan : Asked (Option PlannedChange)) : List Event :=
  match plan.result with
  | .error e => [.ended p (.error e)]
  | .ok none => [.ended p (.ok ())]
  | .ok (some planned) =>
    .computed p planned ::
      if (t.suppression? planned).isSome then [.ended p (.ok ())] else []

/-- What happens in the next step of a unit. -/
def unitEvents (clean : Bool) (now : Nat) (j : Job) (l : Ledger) (w : World σ) : List Event :=
  match j.phase with
  | .waiting => if !l.cancelled && isDue l.deadline now then [.late j.pivot] else []
  | .admitted => [.started j.pivot]
  | .counted => []
  | .sourceAsked =>
    match (t.source.answerFetch j.pivot w.stores).1 with
    | .error e => [.ended j.pivot (.error (t.sourceError e))]
    | .ok found =>
      if clean then
        if found.isSome then [.ended j.pivot (.ok ())]
        else if t.reconciler.deleteNeedsDestination then []
        else t.planEvents j.pivot (t.planClean j.pivot none)
      else []
  | .destinationAsked known =>
    match t.checkDestination j.pivot (t.destination.answerFetch j.pivot w.stores).1 with
    | .error e => [.ended j.pivot (.error e)]
    | .ok d =>
      t.planEvents j.pivot
        (if clean then t.planClean j.pivot d else t.planSync j.pivot known d)
  | .applying c =>
    let answer := (t.destination.apply c (w.epoch.addMilliseconds now) w.stores).1
    [.answered j.pivot c answer, .ended j.pivot (t.checkApplied c answer)]
  | .lost => [.cancelled j.pivot]
  | .ended => []

/-- The audit record that an event leaves, without its time. -/
def recordOf? : Event → Option (String × String × Change × Option Suppression)
  | .computed p planned =>
    (t.suppression? planned).map fun reason =>
      (t.config.name, p.id, planned.change, some reason)
  | .answered p c (.ok true) => some (t.config.name, p.id, c, none)
  | _ => none

/-- What a step of a unit can be. -/
inductive Doing (now : Nat) (j : Job) (l : Ledger) (w : World σ) : List Event → Step σ → Prop
  /-- The pass is cancelled, so that the unit does not begin. -/
  | skip (hphase : j.phase = .waiting) (hcancelled : l.cancelled = true) :
      Doing now j l w [] (.ended true, l, w)
  | late (hphase : j.phase = .waiting) (hopen : l.cancelled = false)
      (hdue : isDue l.deadline now = true) :
      Doing now j l w [.late j.pivot]
        (.running { j with phase := .ended }, { l with cancelled := true, late := true }, w)
  | enter (hphase : j.phase = .waiting) (hopen : l.cancelled = false)
      (hearly : isDue l.deadline now = false) :
      Doing now j l w [] (.running { j with phase := .admitted }, l, w)
  | start (hphase : j.phase = .admitted) :
      Doing now j l w [.started j.pivot]
        (.running { j with phase := .counted }, { l with counters := l.counters.recordSeen }, w)
  /-- The unit asks the source, or then the destination. -/
  | ask {phase : Phase} {wake : Nat} {w' : World σ}
      (hphase : j.phase = .counted ∧ phase = .sourceAsked ∨
        j.phase = .sourceAsked ∧ ∃ known, phase = .destinationAsked known)
      (haudit : w'.audit = w.audit)
      (hwake : wake = now + (t.source.requestFetch j.pivot w.stores).1 ∨
        ∃ stores, wake = now + (t.destination.requestFetch j.pivot stores).1) :
      Doing now j l w [] (.running { j with phase := phase, wake := wake }, l, w')
  /-- Nothing is to be done, or an error has come up before a change was computed. -/
  | settle {result : Except SyncError Unit} {w' : World σ}
      (hphase : j.phase = .sourceAsked ∨ ∃ known, j.phase = .destinationAsked known)
      (haudit : w'.audit = w.audit) :
      Doing now j l w [.ended j.pivot result] (conclude j result l w')
  | hold {planned : PlannedChange} {reason : Suppression} {w' : World σ}
      (hphase : j.phase = .sourceAsked ∨ ∃ known, j.phase = .destinationAsked known)
      (hreason : t.suppression? planned = some reason)
      (haudit : w'.audit = w.audit ++
        [t.auditRecord j planned.change (some reason) (w.epoch.addMilliseconds now)]) :
      Doing now j l w [.computed j.pivot planned, .ended j.pivot (.ok ())]
        (conclude j (.ok ()) { l with counters := l.counters.recordAttempted } w')
  | plan {planned : PlannedChange} {w' : World σ}
      (hphase : j.phase = .sourceAsked ∨ ∃ known, j.phase = .destinationAsked known)
      (hreason : t.suppression? planned = none) (haudit : w'.audit = w.audit) :
      Doing now j l w [.computed j.pivot planned]
        (.running { j with phase := .applying planned.change, wake := now },
          { l with counters := l.counters.recordAttempted }, w')
  | apply {c : Change} {w' : World σ} (hphase : j.phase = .applying c)
      (haudit : w'.audit = w.audit ++
        [t.auditRecord j c none (w.epoch.addMilliseconds now)]) :
      Doing now j l w [.answered j.pivot c (.ok true), .ended j.pivot (.ok ())]
        (conclude j (.ok ()) { l with counters := l.counters.recordApplied c.modification } w')
  | refuse {c : Change} {answer : Except StoreError Bool} {e : SyncError} {w' : World σ}
      (hphase : j.phase = .applying c) (hanswer : answer ≠ .ok true)
      (haudit : w'.audit = w.audit) :
      Doing now j l w [.answered j.pivot c answer, .ended j.pivot (.error e)]
        (conclude j (.error e) l w')
  | cancel (hphase : j.phase = .lost) :
      Doing now j l w [.cancelled j.pivot]
        (.running { j with phase := .ended }, { l with cancelled := true }, w)
  | leave (hphase : j.phase = .ended) : Doing now j l w [] (.ended l.cancelled, l, w)

variable {t} {clean : Bool} {now : Nat} {j j' : Job} {l l' : Ledger} {w w' : World σ} {c : Change}

/-- A unit that looks whether it may begin asks nothing. -/
@[simp] lemma world_enter : (enter now j l w).2.2 = w := by
  unfold enter
  split
  · rfl
  · split <;> rfl

lemma doing_of_takeUp {plan : Asked (Option PlannedChange)}
    (hphase : j.phase = .sourceAsked ∨ ∃ known, j.phase = .destinationAsked known)
    (haudit : w'.audit = w.audit) (hepoch : w'.epoch = w.epoch) :
    t.Doing now j l w (t.planEvents j.pivot plan) (t.takeUp now j plan l w') := by
  simp only [planEvents, takeUp]
  cases hplan : plan.result with
  | error e => exact .settle hphase haudit
  | ok plan =>
    cases plan with
    | none => exact .settle hphase haudit
    | some planned =>
      dsimp only
      cases hreason : t.suppression? planned with
      | none => exact .plan hphase hreason haudit
      | some reason =>
        refine .hold hphase hreason ?_
        rw [← haudit, ← hepoch]

/-- A unit that takes up a plan is through, or goes on to apply the planned change. -/
lemma phase_of_takeUp {plan : Asked (Option PlannedChange)}
    (h : t.takeUp now j plan l w = (.running j', l', w')) :
    j'.pivot = j.pivot ∧ w'.stores = w.stores ∧ ((∃ result, j'.phase = .after result) ∨
      ∃ planned, plan.result = .ok (some planned) ∧ j'.phase = .applying planned.change) := by
  unfold takeUp at h
  cases hplan : plan.result with
  | error e =>
    simp only [hplan, conclude, Prod.mk.injEq, Progress.running.injEq] at h
    obtain ⟨rfl, -, rfl⟩ := h
    exact ⟨rfl, rfl, Or.inl ⟨.error e, rfl⟩⟩
  | ok planned =>
    cases planned with
    | none =>
      simp only [hplan, conclude, Prod.mk.injEq, Progress.running.injEq] at h
      obtain ⟨rfl, -, rfl⟩ := h
      exact ⟨rfl, rfl, Or.inl ⟨.ok (), rfl⟩⟩
    | some planned =>
      simp only [hplan] at h
      split at h
      · simp only [conclude, Prod.mk.injEq, Progress.running.injEq] at h
        obtain ⟨rfl, -, rfl⟩ := h
        exact ⟨rfl, rfl, Or.inl ⟨.ok (), rfl⟩⟩
      · simp only [Prod.mk.injEq, Progress.running.injEq] at h
        obtain ⟨rfl, -, rfl⟩ := h
        exact ⟨rfl, rfl, Or.inr ⟨planned, rfl, rfl⟩⟩

lemma stores_carryOut : (t.carryOut now j c l w).2.2.stores =
    (t.destination.apply c (w.epoch.addMilliseconds now) w.stores).2 := by
  simp only [carryOut]
  cases t.checkApplied c (t.destination.apply c (w.epoch.addMilliseconds now) w.stores).1 <;> rfl

lemma progress_carryOut : (t.carryOut now j c l w).1 = .running { j with
    phase := .after (t.checkApplied c
      (t.destination.apply c (w.epoch.addMilliseconds now) w.stores).1) } := by
  simp only [carryOut]
  cases t.checkApplied c (t.destination.apply c (w.epoch.addMilliseconds now) w.stores).1 <;> rfl

/-- A unit that applies its change has then its result, which is the answer of the destination. -/
lemma carried_of_unitStep (hphase : j.phase = .applying c)
    (hstep : t.unitStep clean now j l w = (.running j', l', w')) :
    j' = { j with phase := .after (t.checkApplied c
      (t.destination.apply c (w.epoch.addMilliseconds now) w.stores).1) } ∧
      w'.stores = (t.destination.apply c (w.epoch.addMilliseconds now) w.stores).2 := by
  have hcarried : t.carryOut now j c l w = (.running j', l', w') := by
    rw [← hstep, unitStep, hphase]
  rw [← stores_carryOut (t := t) (j := j) (l := l), hcarried]
  have hprogress : (t.carryOut now j c l w).1 = _ := progress_carryOut
  rw [hcarried] at hprogress
  exact ⟨Progress.running.inj hprogress, rfl⟩

/-- What a step of a unit is, for any adapters and any evaluator. -/
theorem doing_of_unitStep :
    t.Doing now j l w (t.unitEvents clean now j l w) (t.unitStep clean now j l w) := by
  cases hphase : j.phase with
  | waiting =>
    simp only [unitEvents, unitStep, hphase, enter]
    cases hcancelled : l.cancelled with
    | true => exact .skip hphase hcancelled
    | false =>
      cases hdue : isDue l.deadline now with
      | true => exact .late hphase hcancelled hdue
      | false => exact .enter hphase hcancelled hdue
  | admitted =>
    simp only [unitEvents, unitStep, hphase]
    exact .start hphase
  | counted =>
    simp only [unitEvents, unitStep, hphase, askSource]
    exact .ask (Or.inl ⟨hphase, rfl⟩) rfl (Or.inl rfl)
  | sourceAsked =>
    simp only [unitEvents, unitStep, hphase, onSource]
    cases hanswer : (t.source.answerFetch j.pivot w.stores).1 with
    | error e => exact .settle (Or.inl hphase) rfl
    | ok found =>
      dsimp only
      by_cases hclean : clean = true
      · rw [if_pos hclean, if_pos hclean]
        by_cases hfound : found.isSome = true
        · rw [if_pos hfound, if_pos hfound]
          exact .settle (Or.inl hphase) rfl
        · rw [if_neg hfound, if_neg hfound]
          by_cases hneeds : t.reconciler.deleteNeedsDestination = true
          · rw [if_pos hneeds, if_pos hneeds]
            exact .ask (Or.inr ⟨hphase, _, rfl⟩) rfl (Or.inr ⟨_, rfl⟩)
          · rw [if_neg hneeds, if_neg hneeds]
            exact doing_of_takeUp (Or.inl hphase) rfl rfl
      · rw [if_neg hclean, if_neg hclean]
        exact .ask (Or.inr ⟨hphase, _, rfl⟩) rfl (Or.inr ⟨_, rfl⟩)
  | destinationAsked known =>
    simp only [unitEvents, unitStep, hphase, onDestination]
    cases t.checkDestination j.pivot (t.destination.answerFetch j.pivot w.stores).1 with
    | error e => exact .settle (Or.inr ⟨known, hphase⟩) rfl
    | ok d => exact doing_of_takeUp (Or.inr ⟨known, hphase⟩) rfl rfl
  | applying c =>
    simp only [unitEvents, unitStep, hphase, carryOut]
    generalize (t.destination.apply c (w.epoch.addMilliseconds now) w.stores).1 = answer
    rcases answer with e | accepted
    · exact .refuse hphase (by simp) rfl
    · cases accepted with
      | false => exact .refuse hphase (by simp) rfl
      | true => exact .apply hphase rfl
  | lost =>
    simp only [unitEvents, unitStep, hphase]
    exact .cancel hphase
  | ended =>
    simp only [unitEvents, unitStep, hphase]
    exact .leave hphase

lemma doing_of_step {s : Step σ} (h : t.unitStep clean now j l w = s) :
    t.Doing now j l w (t.unitEvents clean now j l w) s :=
  h ▸ doing_of_unitStep

/-- The ledger after a step is the one before it with the events written down. -/
lemma Doing.ledger {events : List Event} {s : Step σ} (h : t.Doing now j l w events s) :
    s.2.1 = events.foldl Ledger.note l := by
  cases h with
  | @settle result => cases result <;> rfl
  | refuse hphase hanswer haudit =>
    rename_i c answer e w'
    cases answer with
    | error e' => rfl
    | ok accepted =>
      cases accepted with
      | false => rfl
      | true => exact absurd rfl hanswer
  | _ => rfl

/-- The audit after a step is the one before it with the records of the events. -/
lemma Doing.audit {events : List Event} {s : Step σ} (h : t.Doing now j l w events s) :
    s.2.2.audit.map AuditRecord.untimed =
      w.audit.map AuditRecord.untimed ++ events.filterMap t.recordOf? := by
  cases h with
  | skip | enter | leave => simp
  | late | start | cancel => simp [recordOf?]
  | ask hphase haudit => simp [haudit]
  | settle hphase haudit => simp [recordOf?, conclude, haudit]
  | hold hphase hreason haudit =>
    simp [recordOf?, conclude, haudit, hreason, AuditRecord.untimed, auditRecord]
  | plan hphase hreason haudit => simp [recordOf?, haudit, hreason]
  | apply hphase haudit =>
    simp [recordOf?, conclude, haudit, AuditRecord.untimed, auditRecord]
  | refuse hphase hanswer haudit =>
    rename_i c answer e w'
    cases answer with
    | error e' => simp [recordOf?, conclude, haudit]
    | ok accepted =>
      cases accepted with
      | false => simp [recordOf?, conclude, haudit]
      | true => exact absurd rfl hanswer

/-- A pass becomes late by a unit that looks whether it may begin after the deadline, and by no
other. -/
lemma Doing.late_cases {events : List Event} (h : t.Doing now j l w events (.running j', l', w')) :
    l'.late = l.late ∨ j.phase = .waiting ∧ isDue l.deadline now = true ∧ j'.phase = .ended ∧
      l' = { l with cancelled := true, late := true } := by
  cases h with
  | late hphase _ hdue => exact Or.inr ⟨hphase, hdue, rfl, rfl⟩
  | @settle result =>
    rcases result with e | ⟨⟩
    · exact Or.inl (by simp only [Ledger.record]; split <;> rfl)
    · exact Or.inl rfl
  | refuse => exact Or.inl (by simp only [Ledger.record]; split <;> rfl)
  | _ => exact Or.inl rfl

/-- Nothing of the audit is ever taken back. -/
lemma Doing.audit_grows {events : List Event} {s : Step σ} (h : t.Doing now j l w events s) :
    w.audit <+: s.2.2.audit := by
  cases h with
  | skip | late | enter | start | cancel | leave => exact List.prefix_refl _
  | ask _ haudit | plan _ _ haudit | refuse _ _ haudit => exact haudit ▸ List.prefix_refl _
  | settle _ haudit => exact haudit ▸ List.prefix_refl _
  | hold _ _ haudit => exact haudit ▸ List.prefix_append _ _
  | apply _ haudit => exact haudit ▸ List.prefix_append _ _

end Task

/-! ## Histories -/

namespace Pass

variable {σ : Type} {t : Task σ} {now : Nat}

/-- What the turn of a worker adds to the log. -/
def eventsOf (t : Task σ) (now k : Nat) (p : Pass) (w : World σ) : List Event :=
  match p.pool.workers[k]? with
  | some (.running j) => t.unitEvents p.isClean now j p.ledger w
  | _ => []

/-- One turn of a pass at a time, with what happens in it. -/
inductive Happens (t : Task σ) (now : Nat) :
    Pass × World σ → List Event → Pass × World σ → Prop
  | lead {p p' : Pass} {w : World σ} (h : p.lead? t.config now = some p') :
      Happens t now (p, w) [] (p', w)
  | worker {p p' : Pass} {w w' : World σ} (k : Nat) (h : p.turn? t now k w = some (p', w')) :
      Happens t now (p, w) (p.eventsOf t now k w) (p', w')
  | watch {p : Pass} {w : World σ} {pool : Pool Job} (h : p.pool.watch? now = some pool) :
      Happens t now (p, w) [] ({ p with pool := pool }, w)

/-- A run with its log, newest event last. -/
inductive History (t : Task σ) (x : Pass × World σ) : List Event → Pass × World σ → Prop
  | refl : History t x [] x
  | step {log events : List Event} {y z : Pass × World σ} {now : Nat} (h : History t x log y)
      (hturn : Happens t now y events z) : History t x (log ++ events) z

lemma Happens.turn {y z : Pass × World σ} {events : List Event} (h : Happens t now y events z) :
    Turn t now y z := by
  cases h with
  | lead h => exact .lead h
  | worker k h => exact .worker k h
  | watch h => exact .watch h

lemma Turn.exists_happens {y z : Pass × World σ} (h : Turn t now y z) :
    ∃ events, Happens t now y events z := by
  cases h with
  | lead h => exact ⟨_, .lead h⟩
  | worker k h => exact ⟨_, .worker k h⟩
  | watch h => exact ⟨_, .watch h⟩

/-- Every run has a log. -/
theorem Run.exists_history {permits : Nat → Pass → Prop} {x y : Pass × World σ}
    (h : Run t permits x y) : ∃ log, History t x log y := by
  induction h with
  | refl => exact ⟨[], .refl⟩
  | step _ _ hturn ih =>
    obtain ⟨log, hlog⟩ := ih
    obtain ⟨events, hevents⟩ := hturn.exists_happens
    exact ⟨_, hlog.step hevents⟩

lemma History.trans {x y z : Pass × World σ} {log log' : List Event} (h : History t x log y)
    (h' : History t y log' z) : History t x (log ++ log') z := by
  induction h' with
  | refl => simpa using h
  | step _ hturn ih =>
    rw [← List.append_assoc]
    exact ih.step hturn

/-! ## What a turn can be -/

/-- The inversion of a turn, for any adapters. -/
inductive Act (t : Task σ) (now : Nat) (p : Pass) (w : World σ) :
    List Event → Pass × World σ → Prop
  | submit {pivot : Pivot} {rest : List Pivot} (hpending : p.pending = pivot :: rest)
      (hopen : p.ledger.cancelled = false) (hstage : p.pool.stage = .accepting) :
      Act t now p w [] ({ p with
        pending := rest,
        pool := { p.pool with queue := p.pool.queue ++ [.new pivot] } }, w)
  /-- The pool takes no more units, so that the pivots that are left are given up. -/
  | drop {pool : Pool Job} (hpending : p.pending ≠ [])
      (hpool : pool = p.pool ∨ p.ledger.cancelled = true ∧ pool = p.pool.cancel)
      (hwhy : p.ledger.cancelled = true ∨ p.pool.cancelled = true ∨
        p.pool.stage ≠ .accepting ∨ p.pool.isStill = true ∨
        p.pool.capacity ≤ p.pool.queue.length) :
      Act t now p w [] ({ p with pending := [], pool := pool }, w)
  | await (hpending : p.pending = []) (hstage : p.pool.stage = .accepting) :
      Act t now p w [] ({ p with
        pool := { p.pool with stage := .awaiting ((p.limit t.config).map (now + ·)) } }, w)
  | close {deadline : Option Nat} (hstage : p.pool.stage = .awaiting deadline)
      (hstill : p.pool.isStill = true) :
      Act t now p w [] ({ p with pool := { p.pool with stage := .ended true } }, w)
  /-- The time is up. -/
  | expire {deadline : Nat} (hstage : p.pool.stage = .awaiting (some deadline))
      (hdue : deadline ≤ now) :
      Act t now p w [] ({ p with
        pool := { p.pool with cancelled := true, stage := .draining (now + p.pool.grace) } }, w)
  | giveUp {deadline : Nat} (hstage : p.pool.stage = .draining deadline) :
      Act t now p w [] ({ p with pool := { p.pool with stage := .ended false } }, w)
  | stop {k : Nat} (hidle : p.pool.workers[k]? = some .idle)
      (hstop : p.pool.cancelled = true ∨ p.pool.queue = [] ∧ p.pool.stage ≠ .accepting) :
      Act t now p w [] ({ p with pool := p.pool.setWorker k .stopped }, w)
  | take {k : Nat} {j : Job} {rest : List Job} (hidle : p.pool.workers[k]? = some .idle)
      (hgoes : p.pool.cancelled = false) (hqueue : p.pool.queue = j :: rest) :
      Act t now p w []
        ({ p with pool := { p.pool with queue := rest }.setWorker k (.running j) }, w)
  | go {k : Nat} {j j' : Job} {l' : Ledger} {w' : World σ}
      (hrunning : p.pool.workers[k]? = some (.running j))
      (hstep : t.unitStep p.isClean now j p.ledger w = (.running j', l', w')) :
      Act t now p w (t.unitEvents p.isClean now j p.ledger w)
        ({ p with pool := p.pool.setWorker k (.running j'), ledger := l' }, w')
  /-- A unit that has ended, or does not begin, leaves its worker. -/
  | leave {k : Nat} {j : Job} (hrunning : p.pool.workers[k]? = some (.running j))
      (hphase : j.phase = .ended ∨ j.phase = .waiting ∧ p.ledger.cancelled = true) :
      Act t now p w [] ({ p with
        pool := (if p.ledger.cancelled then p.pool.cancel else p.pool).setWorker k .idle }, w)

lemma act_of_lead {p p' : Pass} {w : World σ} (h : p.lead? t.config now = some p') :
    Act t now p w [] (p', w) := by
  unfold lead? at h
  split at h
  next pivot rest hpending =>
    have hne : p.pending ≠ [] := by simp [hpending]
    by_cases hcancelled : p.ledger.cancelled = true
    · simp only [if_pos hcancelled, Pool.submit, Pool.cancel, if_true, Option.some.injEq] at h
      subst h
      exact .drop hne (Or.inr ⟨hcancelled, rfl⟩) (Or.inl hcancelled)
    · simp only [if_neg hcancelled] at h
      unfold Pool.submit at h
      split at h
      next queued hsubmitted =>
        split at hsubmitted
        · simp at hsubmitted
        · split at hsubmitted
          · simp at hsubmitted
          next hclosed =>
            split at hsubmitted
            · simp at hsubmitted
            · obtain rfl := Except.ok.inj hsubmitted
              obtain rfl := Option.some.inj h
              have hstage : p.pool.stage = .accepting := by
                by_contra hstage
                exact hclosed (Or.inl hstage)
              exact .submit hpending (Bool.eq_false_iff.2 hcancelled) hstage
      next e hrefused =>
        obtain rfl := Option.some.inj h
        refine .drop hne (Or.inl rfl) (Or.inr ?_)
        split at hrefused
        next hpool => exact Or.inl hpool
        · split at hrefused
          next hclosed => exact Or.inr (hclosed.imp id Or.inl)
          · split at hrefused
            next hfull => exact Or.inr (Or.inr (Or.inr hfull))
            · simp at hrefused
  next hpending =>
    split at h
    next hstage =>
      simp only [Pool.await, hstage, Option.some.injEq] at h
      subst h
      exact .await hpending hstage
    · simp at h

lemma act_of_watch {p : Pass} {w : World σ} {pool : Pool Job} (h : p.pool.watch? now = some pool) :
    Act t now p w [] ({ p with pool := pool }, w) := by
  unfold Pool.watch? at h
  split at h
  next deadline hstage =>
    split at h
    next hstill =>
      obtain rfl := Option.some.inj h
      exact .close hstage hstill
    · split at h
      next hdue =>
        obtain rfl := Option.some.inj h
        cases deadline with
        | none => simp [isDue] at hdue
        | some d => exact .expire hstage (by simpa [isDue] using hdue)
      · simp at h
  next deadline hstage =>
    split at h
    · obtain rfl := Option.some.inj h
      exact .giveUp hstage
    · simp at h
  · simp at h

lemma act_of_worker {p p' : Pass} {w w' : World σ} {k : Nat}
    (h : p.turn? t now k w = some (p', w')) : Act t now p w (p.eventsOf t now k w) (p', w') := by
  obtain ⟨⟨pool, ledger, w''⟩, hpool, heq⟩ := Option.map_eq_some_iff.1 h
  simp only [Prod.mk.injEq] at heq
  obtain ⟨rfl, rfl⟩ := heq
  cases Pool.turn?_cases hpool with
  | stop hidle hstop =>
    simp only [eventsOf, hidle]
    exact .stop hidle hstop
  | take hidle hgoes hqueue =>
    simp only [eventsOf, hidle]
    exact .take hidle hgoes hqueue
  | @go j j' _ hrunning hstep =>
    simp only [eventsOf, hrunning]
    exact .go hrunning hstep
  | @finish j cancel _ hrunning hstep =>
    have hthis := Task.doing_of_step hstep
    simp only [eventsOf, hrunning]
    generalize t.unitEvents p.isClean now j p.ledger w = events at hthis ⊢
    cases hthis with
    | skip hphase hcancelled =>
      have hleave : Act t now p w [] _ := .leave hrunning (Or.inr ⟨hphase, hcancelled⟩)
      rwa [hcancelled] at hleave
    | leave hphase => exact .leave hrunning (Or.inl hphase)
  | @crash j _ hrunning hstep =>
    have hthis := Task.doing_of_step hstep
    generalize t.unitEvents p.isClean now j p.ledger w = events at hthis
    cases hthis

/-- What a turn of a pass can be. -/
theorem act_of_happens {p : Pass} {w : World σ} {events : List Event} {z : Pass × World σ}
    (h : Happens t now (p, w) events z) : Act t now p w events z := by
  cases h with
  | lead h => exact act_of_lead h
  | worker k h => exact act_of_worker h
  | watch h => exact act_of_watch h

lemma Act.isClean {p : Pass} {w : World σ} {events : List Event} {z : Pass × World σ}
    (h : Act t now p w events z) : z.1.isClean = p.isClean := by
  cases h <;> rfl

/-- What holds at the start and is kept by every turn holds throughout. -/
theorem History.keeps {x y : Pass × World σ} {log : List Event}
    {I : List Event → Pass × World σ → Prop} (h : History t x log y) (hstart : I [] x)
    (hact : ∀ {log events p w z now}, I log (p, w) → Act t now p w events z →
      I (log ++ events) z) : I log y := by
  induction h with
  | refl => exact hstart
  | @step _ _ y _ _ _ hturn ih =>
    obtain ⟨p, w⟩ := y
    exact hact ih (act_of_happens hturn)

/-! ## The ledger and the audit of a history -/

lemma Act.ledger {p : Pass} {w : World σ} {events : List Event} {z : Pass × World σ}
    (h : Act t now p w events z) : z.1.ledger = events.foldl Ledger.note p.ledger := by
  cases h with
  | go _ hstep => exact (Task.doing_of_step hstep).ledger
  | _ => rfl

lemma Act.audit {p : Pass} {w : World σ} {events : List Event} {z : Pass × World σ}
    (h : Act t now p w events z) :
    z.2.audit.map AuditRecord.untimed =
      w.audit.map AuditRecord.untimed ++ events.filterMap t.recordOf? := by
  cases h with
  | go _ hstep => exact (Task.doing_of_step hstep).audit
  | _ => simp

lemma Act.audit_grows {p : Pass} {w : World σ} {events : List Event} {z : Pass × World σ}
    (h : Act t now p w events z) : w.audit <+: z.2.audit := by
  cases h with
  | go _ hstep => exact (Task.doing_of_step hstep).audit_grows
  | _ => exact List.prefix_refl _

/-- **The ledger is what the log says.** -/
theorem History.ledger {x y : Pass × World σ} {log : List Event} (h : History t x log y) :
    y.1.ledger = log.foldl Ledger.note x.1.ledger := by
  refine h.keeps (I := fun log y => y.1.ledger = log.foldl Ledger.note x.1.ledger) rfl ?_
  intro log events p w z now ih hact
  rw [hact.ledger, List.foldl_append, show p.ledger = _ from ih]

/-- **The audit is what the log says**, after the records that were there before. -/
theorem History.audit {x y : Pass × World σ} {log : List Event} (h : History t x log y) :
    ∃ records, y.2.audit = x.2.audit ++ records ∧
      records.map AuditRecord.untimed = log.filterMap t.recordOf? := by
  have hprefix : x.2.audit <+: y.2.audit := by
    refine h.keeps (I := fun _ y => x.2.audit <+: y.2.audit) (List.prefix_refl _) ?_
    intro _ _ p w z now ih hact
    exact List.IsPrefix.trans ih hact.audit_grows
  have huntimed : y.2.audit.map AuditRecord.untimed =
      x.2.audit.map AuditRecord.untimed ++ log.filterMap t.recordOf? := by
    refine h.keeps (I := fun log y => y.2.audit.map AuditRecord.untimed =
      x.2.audit.map AuditRecord.untimed ++ log.filterMap t.recordOf?) (by simp) ?_
    intro log events p w z now ih hact
    rw [hact.audit, List.filterMap_append, ← List.append_assoc, ← ih]
  obtain ⟨records, hrecords⟩ := hprefix
  refine ⟨records, hrecords.symm, ?_⟩
  rw [← hrecords, List.map_append] at huntimed
  exact List.append_cancel_left huntimed

end Pass

end StoreSync
