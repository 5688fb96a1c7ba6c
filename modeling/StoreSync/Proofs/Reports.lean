import Mathlib.Algebra.BigOperators.Group.List.Basic
import Mathlib.Algebra.Ring.Nat
import StoreSync.Engine
import StoreSync.Proofs.Histories

/-!
# Every pass reports

Nothing that the adapters or the evaluator answer can keep a pass from its report.  Every turn
lowers a measure (`Pass.turnsLeft`), and as long as the pool is awaited there is a turn at every
time (`Pass.exists_turn`), so every run can be continued to one that reports
(`Pass.exists_report`).

The engine chooses its turns by the clock: it takes what is possible at the present time, and moves
the clock only when nothing is.  `Pass.exists_wake` says that the clock then moves to a time at
which there is a turn, and with that the engine reports within the fuel it is given
(`Engine.runPass_reports`).

`Pass.Conducted` is a whole pass, from the listing of its pivots to its report, on any schedule.
-/

namespace StoreSync

namespace Pass

variable {σ : Type} {t : Task σ} {now : Nat}

/-! ## The measure -/

/-- A bound on the turns that are left. -/
def turnsLeft (p : Pass) : Nat :=
  10 * p.pending.length + (p.pool.queue.map fun j => j.remaining + 1).sum +
    (p.pool.workers.map ofWorker).sum + ofStage p.pool.stage
where
  ofWorker : Worker Job → Nat
    | .idle => 1
    | .running j => j.remaining + 1
    | .stopped => 0
  ofStage : Stage → Nat
    | .accepting => 3
    | .awaiting _ => 2
    | .draining _ => 1
    | .ended _ => 0

lemma sum_ofWorker_set {p : Pass} {k : Nat} {x : Worker Job} (hx : p.pool.workers[k]? = some x)
    (y : Worker Job) :
    ((p.pool.workers.set k y).map turnsLeft.ofWorker).sum + turnsLeft.ofWorker x =
      (p.pool.workers.map turnsLeft.ofWorker).sum + turnsLeft.ofWorker y := by
  obtain ⟨rest, hbefore, hafter⟩ := perm_set hx
  rw [(hbefore.map _).sum_nat, ((hafter y).map _).sum_nat]
  simp only [List.map_cons, List.sum_cons]
  omega

/-- A unit with a result has two steps left at most. -/
lemma remaining_after_le (j : Job) (result : Except SyncError Unit) :
    ({ j with phase := .after result } : Job).remaining ≤ 2 := by
  rcases Phase.after_eq result with hafter | hafter <;> simp [Job.remaining, hafter]

lemma remaining_lt_of_doing {j j' : Job} {l l' : Ledger} {w w' : World σ} {events : List Event}
    (h : t.Doing now j l w events (.running j', l', w')) : j'.remaining < j.remaining := by
  have hasked : ∀ {result}, (j.phase = .sourceAsked ∨ ∃ known, j.phase = .destinationAsked known) →
      ({ j with phase := .after result } : Job).remaining < j.remaining := by
    intro result hphase
    refine Nat.lt_of_le_of_lt (remaining_after_le j result) ?_
    rcases hphase with hphase | ⟨known, hphase⟩ <;> simp [Job.remaining, hphase]
  cases h with
  | late hphase | enter hphase | start hphase | cancel hphase => simp [Job.remaining, hphase]
  | ask hphase _ =>
    rcases hphase with ⟨hphase, rfl⟩ | ⟨hphase, known, rfl⟩ <;> simp [Job.remaining, hphase]
  | settle hphase _ => exact hasked hphase
  | hold hphase _ _ => exact hasked hphase
  | plan hphase _ _ =>
    rcases hphase with hphase | ⟨known, hphase⟩ <;> simp [Job.remaining, hphase]
  | apply hphase _ | refuse hphase _ _ =>
    refine Nat.lt_of_le_of_lt (remaining_after_le j _) ?_
    simp [Job.remaining, hphase]

/-- Every turn lowers the measure. -/
theorem Act.turnsLeft_lt {p : Pass} {w : World σ} {events : List Event} {z : Pass × World σ}
    (h : Act t now p w events z) : z.1.turnsLeft < p.turnsLeft := by
  cases h with
  | submit hpending _ _ =>
    have hnew : ∀ pivot, (Job.new pivot).remaining = 8 := fun _ => rfl
    simp only [turnsLeft, hpending, List.length_cons, List.map_append, List.sum_append,
      List.map_cons, List.map_nil, List.sum_cons, List.sum_nil, hnew]
    omega
  | drop hpending hpool _ =>
    have hlength := List.length_pos_iff.2 hpending
    rcases hpool with rfl | ⟨_, rfl⟩
    · simp only [turnsLeft, List.length_nil]
      omega
    · simp only [turnsLeft, Pool.cancel, List.length_nil]
      omega
  | await _ hstage =>
    simp only [turnsLeft, hstage, turnsLeft.ofStage]
    omega
  | close hstage _ =>
    simp only [turnsLeft, hstage, turnsLeft.ofStage]
    omega
  | expire hstage _ =>
    simp only [turnsLeft, hstage, turnsLeft.ofStage]
    omega
  | giveUp hstage =>
    simp only [turnsLeft, hstage, turnsLeft.ofStage]
    omega
  | stop hidle _ =>
    have hsum := sum_ofWorker_set hidle .stopped
    simp only [turnsLeft.ofWorker] at hsum
    simp only [turnsLeft, Pool.setWorker]
    omega
  | @take k j rest hidle _ hqueue =>
    have hsum := sum_ofWorker_set hidle (.running j)
    simp only [turnsLeft.ofWorker] at hsum
    simp only [turnsLeft, Pool.setWorker, hqueue, List.map_cons, List.sum_cons]
    omega
  | @go k j j' l' w' hrunning hstep =>
    have hless := remaining_lt_of_doing (Task.doing_of_step hstep)
    have hsum := sum_ofWorker_set hrunning (.running j')
    simp only [turnsLeft.ofWorker] at hsum
    simp only [turnsLeft, Pool.setWorker]
    omega
  | @leave k j hrunning hphase =>
    have hone : 1 ≤ j.remaining := by
      rcases hphase with hphase | ⟨hphase, _⟩ <;> simp [Job.remaining, hphase]
    have hsum := sum_ofWorker_set hrunning .idle
    simp only [turnsLeft.ofWorker] at hsum
    split <;> simp only [turnsLeft, Pool.setWorker, Pool.cancel] <;> omega

/-! ## There is always a turn -/

lemma exists_lead {p : Pass} (config : TaskConfig) (now : Nat)
    (h : p.pending ≠ [] ∨ p.pool.stage = .accepting) : ∃ p', p.lead? config now = some p' := by
  cases hpending : p.pending with
  | cons pivot rest =>
    simp only [lead?, hpending]
    split <;> exact ⟨_, rfl⟩
  | nil =>
    have hstage := h.resolve_left (not_not_intro hpending)
    simp [lead?, hpending, hstage]

/-- A worker that has not stopped has a turn once the queue is closed. -/
lemma exists_worker_turn (t : Task σ) (now : Nat) (w : World σ) {p : Pass} {k : Nat}
    {x : Worker Job} (hx : p.pool.workers[k]? = some x) (hgoes : x.isStopped = false)
    (hstage : p.pool.stage ≠ .accepting) : ∃ z, p.turn? t now k w = some z := by
  obtain ⟨y, hy⟩ : ∃ y, p.pool.turn? (t.units p.isClean) now k (p.ledger, w) = some y := by
    cases x with
    | stopped => simp [Worker.isStopped] at hgoes
    | idle =>
      by_cases hcancelled : p.pool.cancelled = true
      · simp [Pool.turn?, hx, hcancelled]
      · cases hqueue : p.pool.queue with
        | nil => simp [Pool.turn?, hx, hcancelled, hqueue, hstage]
        | cons j queue => simp [Pool.turn?, hx, hcancelled, hqueue]
    | running j =>
      cases hstep : (t.units p.isClean).step now j (p.ledger, w) with
      | mk progress s => cases progress <;> simp [Pool.turn?, hx, hstep]
  exact ⟨_, by simp only [turn?, hy, Option.map_some]; rfl⟩

lemma exists_worker {pool : Pool Job} (h : pool.isStill = false) :
    ∃ (k : Nat) (x : Worker Job), pool.workers[k]? = some x ∧ x.isStopped = false := by
  obtain ⟨x, hx, hgoes⟩ : ∃ x ∈ pool.workers, x.isStopped = false := by
    simpa [Pool.isStill] using h
  obtain ⟨k, hk⟩ := List.mem_iff_getElem?.1 hx
  exact ⟨k, x, hk, hgoes⟩

/-- As long as the pool is awaited there is a turn at every time. -/
theorem exists_turn {p : Pass} (h : p.pool.outcome? = none) (now : Nat) (w : World σ) :
    ∃ z, Turn t now (p, w) z := by
  by_cases hlead : p.pending ≠ [] ∨ p.pool.stage = .accepting
  · obtain ⟨p', hp'⟩ := exists_lead t.config now hlead
    exact ⟨_, .lead hp'⟩
  · have hstage : p.pool.stage ≠ .accepting := fun hstage => hlead (Or.inr hstage)
    cases hstill : p.pool.isStill with
    | false =>
      obtain ⟨k, x, hx, hgoes⟩ := exists_worker hstill
      obtain ⟨z, hz⟩ := exists_worker_turn t now w hx hgoes hstage
      exact ⟨z, .worker k hz⟩
    | true =>
      obtain ⟨pool, hpool⟩ : ∃ pool, p.pool.watch? now = some pool := by
        cases hs : p.pool.stage with
        | accepting => exact absurd hs hstage
        | awaiting deadline => simp [Pool.watch?, hs, hstill]
        | draining deadline => simp [Pool.watch?, hs, hstill]
        | ended complete => simp [Pool.outcome?, hs] at h
      exact ⟨_, .watch hpool⟩

/-- The state after a number of turns of the engine, all at the start of the clock. -/
def advance (t : Task σ) : Nat → Pass × World σ → Option (Pass × World σ)
  | 0, x => some x
  | n + 1, x => (x.1.step? t 0 x.2).bind (advance t n)

lemma history_of_advance {n : Nat} {x y : Pass × World σ} (h : advance t n x = some y) :
    ∃ log, History t x log y := by
  induction n generalizing x with
  | zero =>
    obtain rfl := Option.some.inj h
    exact ⟨[], .refl⟩
  | succ n ih =>
    obtain ⟨⟨p, w⟩, hstep, hrest⟩ := Option.bind_eq_some_iff.1 h
    obtain ⟨events, hevents⟩ := (turn_of_step? hstep).exists_happens
    obtain ⟨log, hlog⟩ := ih hrest
    exact ⟨events ++ log, (History.refl.step hevents).trans hlog⟩

lemma run_of_advance {n : Nat} {x y : Pass × World σ} (h : advance t n x = some y) :
    Run t (fun now _ => now = 0) x y := by
  induction n generalizing x with
  | zero =>
    obtain rfl := Option.some.inj h
    exact .refl
  | succ n ih =>
    obtain ⟨⟨p, w⟩, hstep, hrest⟩ := Option.bind_eq_some_iff.1 h
    exact (Run.refl.step rfl (turn_of_step? hstep)).trans (ih hrest)

/-- **Every run reaches its report**, as long as there is always a permitted time.  The invariant
is for conditions on times that only hold along the runs in question. -/
theorem exists_report (permits : Nat → Pass → Prop) {I : Pass × World σ → Prop}
    (hkeeps : ∀ {y z now}, I y → permits now y.1 → Turn t now y z → I z)
    (htime : ∀ {y}, I y → ∃ now, permits now y.1) {x : Pass × World σ} (hstart : I x) :
    ∃ z, Run t permits x z ∧ z.1.pool.outcome?.isSome = true := by
  obtain ⟨p, w⟩ := x
  induction hleft : p.turnsLeft using Nat.strongRecOn generalizing p w with
  | ind n ih =>
    cases houtcome : p.pool.outcome? with
    | some complete => exact ⟨_, .refl, by simp [houtcome]⟩
    | none =>
      obtain ⟨now, hnow⟩ := htime hstart
      obtain ⟨⟨p', w'⟩, hturn⟩ := exists_turn (t := t) houtcome now w
      obtain ⟨events, hevents⟩ := hturn.exists_happens
      have hlt := (act_of_happens hevents).turnsLeft_lt
      obtain ⟨z, hrun, hended⟩ :=
        ih p'.turnsLeft (hleft ▸ hlt) p' w' (hkeeps hstart hnow hturn) rfl
      exact ⟨z, (Run.refl.step hnow hturn).trans hrun, hended⟩

end Pass

/-! ## Processes end -/

section Earliest

variable {a b : Option Nat} {times : List (Option Nat)} {n : Nat}

lemma eq_of_earlier_eq_some (h : earlier a b = some n) : a = some n ∨ b = some n := by
  cases a with
  | none => exact Or.inr (by simpa [earlier] using h)
  | some x =>
    cases b with
    | none => exact Or.inl (by simpa [earlier] using h)
    | some y =>
      simp only [earlier, Option.some.injEq] at h ⊢
      omega

lemma isSome_earlier : (earlier a b).isSome = (a.isSome || b.isSome) := by
  cases a <;> cases b <;> rfl

lemma mem_of_earliest_eq_some (h : earliest times = some n) : some n ∈ times := by
  induction times with
  | nil => simp [earliest] at h
  | cons a rest ih =>
    rcases eq_of_earlier_eq_some (show earlier a (earliest rest) = some n from h) with h | h
    · exact h ▸ List.mem_cons_self
    · exact List.mem_cons_of_mem _ (ih h)

lemma isSome_earliest_of_mem (h : some n ∈ times) : (earliest times).isSome = true := by
  induction times with
  | nil => simp at h
  | cons a rest ih =>
    show (earlier a (earliest rest)).isSome = true
    rw [isSome_earlier]
    rcases List.mem_cons.1 h with rfl | h
    · rfl
    · rw [ih h, Bool.or_true]

end Earliest

namespace Process

variable {σ : Type} {p : Process σ} {wanted : σ → Bool} {deadline : Option Nat}

/-- What holds at the start, is kept by every step and does not depend on the time holds at the
end. -/
lemma run_keeps {I : σ → Prop} (hstep : ∀ {time s s'}, I s → p.step? time s = some s' → I s')
    {fuel : Nat} {x : Timed σ} (h : I x.state) : I (p.run wanted deadline fuel x).state := by
  induction fuel generalizing x with
  | zero => exact h
  | succ fuel ih =>
    unfold run
    split
    · exact h
    · split
      next s hs => exact ih (hstep h hs)
      next =>
        split
        · exact ih h
        · exact h

/-- A process that keeps a record beside the state of another runs in step with it. -/
lemma run_map {τ : Type} {q : Process τ} (f : τ → σ)
    (hstep : ∀ now y, (q.step? now y).map f = p.step? now (f y))
    (hwake : ∀ y, q.wake? y = p.wake? (f y)) {fuel time : Nat} {y : τ} :
    p.run wanted deadline fuel ⟨time, f y⟩ =
      ⟨(q.run (fun y => wanted (f y)) deadline fuel ⟨time, y⟩).time,
        f (q.run (fun y => wanted (f y)) deadline fuel ⟨time, y⟩).state⟩ := by
  induction fuel generalizing time y with
  | zero => rfl
  | succ fuel ih =>
    simp only [run, ← hstep, ← hwake]
    split
    · rfl
    · cases q.step? time y with
      | some y' => exact ih
      | none =>
        cases earlier deadline (q.wake? y) with
        | some wake => exact ih
        | none => rfl

/-- What holds at the start and is kept by every step at the present time holds at the end, as long
as nothing waits for a later time. -/
lemma run_keeps_now {I : σ → Prop} {time : Nat}
    (hstep : ∀ {s s'}, I s → p.step? time s = some s' → I s')
    (hwake : ∀ {s wake}, I s → p.wake? s = some wake → wake ≤ time) {fuel : Nat} {s : σ}
    (h : I s) : I (p.run wanted none fuel ⟨time, s⟩).state := by
  induction fuel generalizing s with
  | zero => exact h
  | succ fuel ih =>
    unfold run
    split
    · exact h
    · split
      next s' hs => exact ih (hstep h hs)
      next =>
        split
        next wake hearlier =>
          have hle : wake ≤ time := hwake h (by simpa [earlier] using hearlier)
          rw [Nat.max_eq_left hle]
          exact ih h
        next => exact h

/-- A process ends as wanted if every step lowers a measure and the clock moves only to times at
which there is a step.  Between two steps there is at most one movement of the clock. -/
theorem run_ends {I : σ → Prop} (wanted : σ → Bool) (measure : σ → Nat)
    (hkeeps : ∀ {time s s'}, I s → p.step? time s = some s' → I s')
    (hless : ∀ {time s s'}, I s → p.step? time s = some s' → measure s' < measure s)
    (hwake : ∀ {time s}, I s → wanted s = false → p.step? time s = none →
      ∃ wake, p.wake? s = some wake ∧ (p.step? (max time wake) s).isSome = true)
    {fuel : Nat} {x : Timed σ} (hstart : I x.state)
    (hfuel : 2 * measure x.state + (if (p.step? x.time x.state).isSome then 1 else 2) ≤ fuel) :
    wanted (p.run wanted none fuel x).state = true := by
  induction fuel generalizing x with
  | zero =>
    split at hfuel <;> omega
  | succ fuel ih =>
    unfold run
    cases hwanted : wanted x.state with
    | true => simpa using hwanted
    | false =>
      simp only [isDue, Bool.or_self, Bool.false_eq_true, if_false]
      cases hs : p.step? x.time x.state with
      | some s =>
        have hlt := hless hstart hs
        simp only [hs, Option.isSome_some, if_true] at hfuel
        refine ih (hkeeps hstart hs) ?_
        show 2 * measure s + _ ≤ fuel
        split <;> omega
      | none =>
        obtain ⟨wake, hw, hsome⟩ := hwake hstart hwanted hs
        simp only [hs, Option.isSome_none, Bool.false_eq_true, if_false] at hfuel
        simp only [earlier, hw]
        refine ih hstart ?_
        rw [if_pos hsome]
        show 2 * measure x.state + 1 ≤ fuel
        omega

end Process

/-! ## The clock of the engine -/

namespace Pass

variable {σ : Type} {t : Task σ} {now : Nat} {p : Pass} {w : World σ}

lemma step?_of_lead (h : ∃ p', p.lead? t.config now = some p') :
    (p.step? t now w).isSome = true := by
  obtain ⟨p', hp'⟩ := h
  simp [step?, hp']

lemma step?_of_watch (hlead : p.lead? t.config now = none)
    (h : ∃ pool, p.pool.watch? now = some pool) : (p.step? t now w).isSome = true := by
  obtain ⟨pool, hpool⟩ := h
  simp [step?, hlead, Pool.step?, hpool]

lemma step?_of_ready (hlead : p.lead? t.config now = none) (hstage : p.pool.stage ≠ .accepting)
    {x : Worker Job} (hx : x ∈ p.pool.workers)
    (hready : p.pool.isReady (t.units p.isClean) now x = true) :
    (p.step? t now w).isSome = true := by
  cases hwatch : p.pool.watch? now with
  | some pool => exact step?_of_watch hlead ⟨pool, hwatch⟩
  | none =>
    obtain ⟨k, hk⟩ : ∃ k, p.pool.workers.findIdx? (p.pool.isReady (t.units p.isClean) now) =
        some k := by
      rw [← Option.isSome_iff_exists, List.findIdx?_isSome]
      exact List.any_eq_true.2 ⟨x, hx, hready⟩
    obtain ⟨hlt, hfound, -⟩ := List.findIdx?_eq_some_iff_getElem.1 hk
    have hgoes : p.pool.workers[k].isStopped = false := by
      cases hworker : p.pool.workers[k] with
      | stopped => simp [hworker, Pool.isReady] at hfound
      | _ => rfl
    obtain ⟨⟨p', w'⟩, hturn⟩ := exists_worker_turn t now w
      (List.getElem?_eq_getElem hlt) hgoes hstage
    obtain ⟨y, hy, -⟩ := Option.map_eq_some_iff.1 hturn
    simp [step?, hlead, Pool.step?, hwatch, hk, hy]

/-- When nothing is possible, something is at the time to which the clock moves. -/
theorem exists_wake (h : p.pool.outcome? = none) (hstuck : p.step? t now w = none) :
    ∃ wake, p.wake? t = some wake ∧ (p.step? t (max now wake) w).isSome = true := by
  have hno : ¬(p.step? t now w).isSome = true := by simp [hstuck]
  have hclosed : ¬(p.pending ≠ [] ∨ p.pool.stage = .accepting) := fun hopen =>
    hno (step?_of_lead (exists_lead _ _ hopen))
  have hlead : ∀ time, p.lead? t.config time = none := by
    intro time
    obtain ⟨hpending, hstage⟩ := not_or.1 hclosed
    simp [lead?, not_not.1 hpending, hstage]
  have hstage : p.pool.stage ≠ .accepting := fun hstage => hclosed (Or.inr hstage)
  have hwatch : p.pool.watch? now = none := by
    cases hwatch : p.pool.watch? now with
    | none => rfl
    | some pool => exact absurd (step?_of_watch (hlead now) ⟨pool, hwatch⟩) hno
  have hgoes : p.pool.isStill = false := by
    rw [← Bool.not_eq_true]
    intro hstill
    cases hs : p.pool.stage with
    | accepting => exact hstage hs
    | awaiting deadline => simp [Pool.watch?, hs, hstill] at hwatch
    | draining deadline => simp [Pool.watch?, hs, hstill] at hwatch
    | ended complete => simp [Pool.outcome?, hs] at h
  obtain ⟨k, x, hx, hopen⟩ := exists_worker hgoes
  have hmem := List.mem_of_getElem? hx
  have hunready : ¬p.pool.isReady (t.units p.isClean) now x = true := fun hready =>
    hno (step?_of_ready (hlead now) hstage hmem hready)
  -- The worker that has not stopped has a unit, which waits.
  obtain ⟨j, rfl⟩ : ∃ j, x = .running j := by
    cases x with
    | stopped => simp [Worker.isStopped] at hopen
    | idle => simp [Pool.isReady, hstage] at hunready
    | running j => exact ⟨j, rfl⟩
  have hawaited : some j.wake ∈
      p.pool.workers.map fun x => x.unit?.map (t.units p.isClean).wake :=
    List.mem_map.2 ⟨_, hmem, rfl⟩
  obtain ⟨wake, hwake⟩ : ∃ wake, p.wake? t = some wake := by
    rw [← Option.isSome_iff_exists, wake?, Pool.wake?, isSome_earlier,
      isSome_earliest_of_mem hawaited, Bool.or_true]
  refine ⟨wake, hwake, ?_⟩
  rcases eq_of_earlier_eq_some hwake with hdeadline | hunit
  · refine step?_of_watch (hlead _) ?_
    cases hs : p.pool.stage with
    | accepting => exact absurd hs hstage
    | awaiting deadline =>
      obtain rfl : deadline = some wake := by simpa [hs] using hdeadline
      simp only [Pool.watch?, hs, isDue, hgoes, Nat.le_max_right, decide_true, Bool.false_eq_true,
        if_false, if_true, Option.some.injEq, exists_eq']
    | draining deadline =>
      obtain rfl : deadline = wake := by simpa [hs] using hdeadline
      simp only [Pool.watch?, hs, Nat.le_max_right, Bool.or_true, decide_true, if_true,
        Option.some.injEq, exists_eq']
    | ended complete => simp [Pool.outcome?, hs] at h
  · obtain ⟨y, hy, hunit⟩ := List.mem_map.1 (mem_of_earliest_eq_some hunit)
    refine step?_of_ready (hlead _) hstage hy ?_
    cases y with
    | running i =>
      obtain rfl : i.wake = wake := by simpa [Worker.unit?, Task.units] using hunit
      simp only [Pool.isReady, Task.units, Nat.le_max_right, decide_true]
    | _ => simp [Worker.unit?] at hunit

lemma turnsLeft_le_remaining (t : Task σ) (p : Pass) : p.turnsLeft ≤ p.remaining t := by
  have hqueue : ∀ queue : List Job, (queue.map fun j => j.remaining + 1).sum =
      queue.foldr (fun j n => (t.units p.isClean).remaining j + 1 + n) 0 := by
    intro queue
    induction queue with
    | nil => rfl
    | cons j rest ih => simp [ih, Task.units]
  have hworkers : ∀ workers : List (Worker Job), (workers.map turnsLeft.ofWorker).sum =
      workers.foldr (fun x n => Pool.remaining.ofWorker (t.units p.isClean) x + n) 0 := by
    intro workers
    induction workers with
    | nil => rfl
    | cons x rest ih =>
      rw [List.map_cons, List.sum_cons, ih, List.foldr_cons]
      cases x <;> rfl
  have hstage : turnsLeft.ofStage p.pool.stage ≤ 3 := by
    cases p.pool.stage <;> simp [turnsLeft.ofStage]
  rw [turnsLeft, remaining, Pool.remaining, hqueue, hworkers]
  omega

end Pass

namespace Engine

variable {σ : Type} {t : Task σ}

/-- The first turn of the only pass. -/
lemma step?_single {p : Pass} {w : World σ} {now : Nat} {e : Engine σ}
    (h : step? t now ⟨[p], w⟩ = some e) :
    ∃ p' w', e = ⟨[p'], w'⟩ ∧ p.step? t now w = some (p', w') := by
  obtain ⟨⟨passes, w'⟩, hamong, rfl⟩ := Option.map_eq_some_iff.1 h
  simp only [stepAmong?] at hamong
  split at hamong
  next p' w'' hp =>
    simp only [Option.some.injEq, Prod.mk.injEq] at hamong
    obtain ⟨rfl, rfl⟩ := hamong
    exact ⟨p', w'', rfl, hp⟩
  next => simp at hamong

lemma step?_single_eq_none {p : Pass} {w : World σ} {now : Nat} :
    step? t now ⟨[p], w⟩ = none ↔ p.step? t now w = none := by
  simp only [step?, stepAmong?]
  cases p.step? t now w <;> simp

/-- An engine with a single pass, once nobody awaits the pass any more. -/
def awaited (t : Task σ) (p : Pass) (w : World σ) (start : Nat) : Timed (Engine σ) :=
  (process t).run (fun e => e.passes.head?.any (·.pool.outcome?.isSome)) none
    (fuel t ⟨[p], w⟩) ⟨start, ⟨[p], w⟩⟩

lemma awaited_history (t : Task σ) (p : Pass) (w : World σ) (start : Nat) :
    ∃ p' w' log, (awaited t p w start).state = ⟨[p'], w'⟩ ∧
      Pass.History t (p, w) log (p', w') := by
  refine Process.run_keeps (I := fun e : Engine σ => ∃ p' w' log, e = ⟨[p'], w'⟩ ∧
    Pass.History t (p, w) log (p', w')) ?_ ⟨p, w, [], rfl, .refl⟩
  rintro time _ e ⟨p', w', log, rfl, hlog⟩ hstep
  obtain ⟨p'', w'', rfl, hp⟩ := step?_single hstep
  obtain ⟨events, hevents⟩ := (Pass.turn_of_step? hp).exists_happens
  exact ⟨p'', w'', _, rfl, hlog.step hevents⟩

lemma awaited_ends (t : Task σ) (p : Pass) (w : World σ) (start : Nat) :
    (awaited t p w start).state.passes.head?.any (·.pool.outcome?.isSome) = true := by
  refine Process.run_ends (I := fun e : Engine σ => ∃ p w, e = ⟨[p], w⟩)
    (x := ⟨start, ⟨[p], w⟩⟩) (fun e => e.passes.head?.any (·.pool.outcome?.isSome))
    (fun e => (e.passes.map Pass.turnsLeft).sum) ?_ ?_ ?_ ⟨p, w, rfl⟩ ?_
  · rintro time _ e ⟨p, w, rfl⟩ hstep
    obtain ⟨p', w', rfl, -⟩ := step?_single hstep
    exact ⟨p', w', rfl⟩
  · rintro time _ e ⟨p, w, rfl⟩ hstep
    obtain ⟨p', w', rfl, hp⟩ := step?_single hstep
    obtain ⟨events, hevents⟩ := (Pass.turn_of_step? hp).exists_happens
    simpa using (Pass.act_of_happens hevents).turnsLeft_lt
  · rintro time _ ⟨p, w, rfl⟩ hwanted hstuck
    have houtcome : p.pool.outcome? = none := by simpa using hwanted
    obtain ⟨wake, hwake, hsome⟩ := Pass.exists_wake houtcome (step?_single_eq_none.1 hstuck)
    refine ⟨wake, ?_, ?_⟩
    · show earlier (p.wake? t) none = some wake
      rw [hwake]
      rfl
    · rw [Option.isSome_iff_ne_none]
      intro hnone
      simp [step?_single_eq_none.1 hnone] at hsome
  · have hle := p.turnsLeft_le_remaining t
    simp only [fuel, List.map_cons, List.map_nil, List.sum_cons, List.sum_nil, List.foldr_cons,
      List.foldr_nil]
    split <;> omega

/-- **The engine takes every pass to its report.**  The report is that of a run of the pass from
the world as it was. -/
theorem runPass_reports (t : Task σ) (p : Pass) (w : World σ) (start : Nat) :
    ∃ log p' time, (awaited t p w start).state.passes = [p'] ∧
      Pass.History t (p, w) log (p', (runPass t p ⟨start, ⟨[], w⟩⟩).2.state.world) ∧
      p'.report? t.config time = some (runPass t p ⟨start, ⟨[], w⟩⟩).1 := by
  obtain ⟨p', w', log, hstate, hlog⟩ := awaited_history t p w start
  have hended := awaited_ends t p w start
  rw [hstate] at hended
  obtain ⟨complete, hcomplete⟩ : ∃ complete, p'.pool.outcome? = some complete := by
    simpa [Option.isSome_iff_exists] using hended
  refine ⟨log, p', (awaited t p w start).time, by rw [hstate], ?_, ?_⟩
  · show Pass.History t (p, w) log (p', (awaited t p w start).state.settle.world)
    rw [hstate]
    exact hlog
  · show p'.report? t.config _ =
      some (((awaited t p w start).state.report? t (awaited t p w start).time).getD _)
    rw [hstate]
    simp [report?, Pass.report?, hcomplete]

end Engine

/-! ## Whole passes -/

namespace Task

variable {σ : Type} (t : Task σ)

/-- The pivots that a pass goes over, or why it ends before it starts any unit.  An incremental
pass is handed its pivots. -/
def scope (handed : List Pivot) (kind : PassKind) (w : World σ) :
    Except SyncError (List Pivot) × World σ :=
  match kind with
  | .incremental => (.ok handed, w)
  | .full =>
    let (listed, stores) := t.source.list w.stores
    (match listed with
      | .error e => .error (t.sourceError e)
      | .ok [] => .error (.emptySource t.source.name)
      | .ok pivots => .ok pivots,
      { w with stores := stores })
  | .clean =>
    let (listed, stores) := t.destination.list w.stores
    (listed.mapError t.destinationError, { w with stores := stores })

@[simp] lemma scope_audit (handed : List Pivot) (kind : PassKind) (w : World σ) :
    (t.scope handed kind w).2.audit = w.audit := by
  cases kind <;> rfl

end Task

namespace Pass

variable {σ : Type} {t : Task σ} {now : Nat}

/-- A pass of a kind that is to go over pivots. -/
def ofKind (config : TaskConfig) (kind : PassKind) (pivots : List Pivot) (now : Nat) : Pass :=
  match kind with
  | .clean => .cleaning config pivots now
  | kind => .reconciling config kind pivots now

/-- A pass that has done nothing yet. -/
structure IsNew (pivots : List Pivot) (p : Pass) : Prop where
  ledger : p.ledger = .new p.ledger.deadline
  pending : p.pending = pivots
  room : pivots.length ≤ p.pool.capacity
  queue : p.pool.queue = []
  workers : ∀ x ∈ p.pool.workers, x = .idle
  staffed : p.pool.workers ≠ []
  goes : p.pool.cancelled = false
  stage : p.pool.stage = .accepting

lemma isNew_reconciling (config : TaskConfig) (kind : PassKind) (pivots : List Pivot) (now : Nat) :
    IsNew pivots (.reconciling config kind pivots now) :=
  ⟨rfl, rfl, Nat.le_max_left _ _, rfl, fun _ hx => List.eq_of_mem_replicate hx, by
    simp [reconciling, Pool.new, List.replicate_eq_nil_iff], rfl, rfl⟩

lemma isNew_ofKind (config : TaskConfig) (kind : PassKind) (pivots : List Pivot) (now : Nat) :
    IsNew pivots (.ofKind config kind pivots now) := by
  cases kind with
  | clean =>
    exact ⟨rfl, rfl, Nat.le_max_left _ _, rfl, fun _ hx => List.eq_of_mem_replicate hx, by
      simp [ofKind, cleaning, Pool.new], rfl, rfl⟩
  | _ => exact isNew_reconciling config _ pivots now

lemma counters_of_report? {p : Pass} {config : TaskConfig} {r : PassReport}
    (h : p.report? config now = some r) : r.counters = p.ledger.counters := by
  obtain ⟨complete, -, hr⟩ := Option.map_eq_some_iff.1 h
  rw [← hr]
  split <;> rfl

/-- Only a pass that has lost no connection, whose units have all come in time and whose workers
have all stopped in time, is complete. -/
lemma status_of_report? {p : Pass} {config : TaskConfig} {r : PassReport}
    (h : p.report? config now = some r) :
    r.status = .completed ↔
      p.ledger.failure = none ∧ p.ledger.late = false ∧ p.pool.stage = .ended true := by
  obtain ⟨complete, houtcome, hr⟩ := Option.map_eq_some_iff.1 h
  have hstage : p.pool.stage = .ended complete := by
    cases hs : p.pool.stage <;> simp_all [Pool.outcome?]
  rw [← hr]
  cases hfailure : p.ledger.failure <;> cases complete <;> cases hlate : p.ledger.late <;>
    simp [hstage]

/-- A pass with a unit that has come too late is incomplete if no connection is lost. -/
lemma incomplete_of_late {p : Pass} {config : TaskConfig} {r : PassReport}
    (h : p.report? config now = some r) (hfailure : p.ledger.failure = none)
    (hlate : p.ledger.late = true) : r.status = .incomplete := by
  obtain ⟨complete, -, hr⟩ := Option.map_eq_some_iff.1 h
  simp only [hfailure, hlate, Bool.not_true, Bool.and_false] at hr
  rw [← hr]

/-- A whole pass from a world on: the pivots it goes over, its log, its workers and the world when
the report is taken, and the report. -/
inductive Conducted (t : Task σ) (kind : PassKind) (handed : List Pivot) (w : World σ) :
    List Pivot → List Event → List (Worker Job) → World σ → PassReport → Prop
  /-- No pivots could be listed, or the source has none. -/
  | early {e : SyncError} {w' : World σ} (hscope : t.scope handed kind w = (.error e, w')) :
      Conducted t kind handed w [] [] [] w' (Engine.earlyReport t kind e)
  | whole {pivots : List Pivot} {log : List Event} {p : Pass} {w' w'' : World σ}
      {start time : Nat} {r : PassReport} (hscope : t.scope handed kind w = (.ok pivots, w'))
      (hhistory : History t (.ofKind t.config kind pivots start, w') log (p, w''))
      (hreport : p.report? t.config time = some r) :
      Conducted t kind handed w pivots log p.pool.workers w'' r

end Pass

namespace Engine

variable {σ : Type} {t : Task σ}

/-- Run a whole pass of a kind. -/
def conduct (t : Task σ) (kind : PassKind) (handed : List Pivot) (e : Timed (Engine σ)) :
    PassReport × Timed (Engine σ) :=
  match t.scope handed kind e.state.world with
  | (.error error, w) => (earlyReport t kind error, { e with state.world := w })
  | (.ok pivots, w) =>
    runPass t (.ofKind t.config kind pivots e.time) { e with state.world := w }

lemma sync_eq_conduct (e : Timed (Engine σ)) : sync t e = conduct t .full [] e := by
  simp only [sync, conduct, Task.scope]
  rcases (t.source.list e.state.world.stores).1 with error | pivots
  · rfl
  · cases pivots <;> rfl

lemma clean_eq_conduct (e : Timed (Engine σ)) : clean t e = conduct t .clean [] e := by
  simp only [clean, conduct, Task.scope]
  rcases (t.destination.list e.state.world.stores).1 with error | pivots <;> rfl

/-- What the engine runs is a whole pass. -/
theorem conducted_of_conduct (t : Task σ) (kind : PassKind) (handed : List Pivot) (w : World σ)
    (start : Nat) :
    ∃ pivots log workers, Pass.Conducted t kind handed w pivots log workers
      (conduct t kind handed ⟨start, ⟨[], w⟩⟩).2.state.world
      (conduct t kind handed ⟨start, ⟨[], w⟩⟩).1 := by
  cases hscope : t.scope handed kind w with
  | mk listed w' =>
    simp only [conduct, hscope]
    cases listed with
    | error e => exact ⟨[], [], [], .early hscope⟩
    | ok pivots =>
      obtain ⟨log, p, time, -, hhistory, hreport⟩ :=
        runPass_reports t (.ofKind t.config kind pivots start) w' start
      exact ⟨pivots, log, p.pool.workers, .whole hscope hhistory hreport⟩

end Engine

end StoreSync
