import StoreSync.Expression.Table
import StoreSync.Proofs.Accounting
import StoreSync.Proofs.Fates

/-!
# Changes that are held back

A change reaches the destination only if the condition for its kind lets it through and the task
does not suppress its kind.  That is a fact about whole courses: passes of every kind follow one
another, the last units of one pass go on beside the next, and the queries of a poller come in
between (`Engine.Course`).

The trail of a course keeps the world before every turn, so that it can be said from which answers
of the stores a change was planned (`Pass.Planned`).  A unit that is about to apply a change is
`Pass.Grounded` in the trail, and every turn keeps its units so (`Pass.Act.sourced`).

* `Reconciler.verdict_of_computeChange` — a plan carries the verdict of the condition on the
  bindings of its two records, for each of the four kinds of change;
* `Engine.Course.lawful` — what a course has computed was planned in this way, and what it has sent
  to the destination was computed before and let through;
* `Engine.Course.spares` — if every kind is suppressed, a memory store behind the destination is
  left as it was.
-/

namespace StoreSync

/-! ## The verdict of a plan -/

namespace Reconciler

variable {r : Reconciler} {s d : Entity} {plan : PlannedChange}

lemma verdict_of_planCreate (h : (r.planCreate s).result = .ok plan) :
    (r.isAllowed plan.change.modification (.pair (some s) none)).result = .ok plan.allowed := by
  unfold planCreate at h
  cases hid : s.identifier with
  | some id =>
    simp only [hid, Asked.result_bind_eq_ok, Asked.result_pure] at h
    obtain ⟨_, -, ops, -, allowed, hallowed, hplan⟩ := h
    obtain rfl := Except.ok.inj hplan
    exact hallowed
  | none =>
    simp only [hid] at h
    obtain ⟨resolved, -, h⟩ := Asked.result_bind_eq_ok.1 h
    cases resolved with
    | none =>
      obtain ⟨_, hfail, -⟩ := Asked.result_bind_eq_ok.1 h
      simp at hfail
    | some id =>
      simp only [Asked.result_bind_eq_ok, Asked.result_pure] at h
      obtain ⟨_, -, ops, -, allowed, hallowed, hplan⟩ := h
      obtain rfl := Except.ok.inj hplan
      exact hallowed

lemma verdict_of_planUpdate (h : (r.planUpdate s d).result = .ok (some plan)) :
    (r.isAllowed plan.change.modification (.pair (some s) (some d))).result =
      .ok plan.allowed := by
  unfold planUpdate at h
  obtain ⟨ops, -, h⟩ := Asked.result_bind_eq_ok.1 h
  split at h
  · simp at h
  · simp only [Asked.result_bind_eq_ok, Asked.result_pure] at h
    obtain ⟨id, -, allowed, hallowed, hplan⟩ := h
    obtain rfl := Option.some.inj (Except.ok.inj hplan)
    exact hallowed

lemma verdict_of_planRename (h : (r.planRename s d).result = .ok plan) :
    (r.isAllowed plan.change.modification (.pair (some s) (some d))).result =
      .ok plan.allowed := by
  unfold planRename at h
  obtain ⟨old, -, h⟩ := Asked.result_bind_eq_ok.1 h
  cases hnew : s.identifier with
  | none => simp [hnew] at h
  | some new =>
    simp only [hnew, Asked.result_bind_eq_ok, Asked.result_pure] at h
    obtain ⟨allowed, hallowed, hplan⟩ := h
    obtain rfl := Except.ok.inj hplan
    exact hallowed

lemma verdict_of_planDelete {id : String} {d : Option Entity}
    (h : (r.planDelete id d).result = .ok plan) :
    (r.isAllowed plan.change.modification (.pair none d)).result = .ok plan.allowed := by
  simp only [planDelete, Asked.result_bind_eq_ok, Asked.result_pure] at h
  obtain ⟨allowed, hallowed, hplan⟩ := h
  obtain rfl := Except.ok.inj hplan
  exact hallowed

/-- A plan carries the verdict of the condition for its kind on the pair of records that it was
made for. -/
lemma verdict_of_computeChange {s d : Option Entity}
    (h : (r.computeChange s d).result = .ok (some plan)) :
    (r.isAllowed plan.change.modification (.pair s d)).result = .ok plan.allowed := by
  unfold computeChange at h
  split at h
  · simp at h
  · obtain ⟨plan', hplan, heq⟩ := Asked.result_bind_eq_ok.1 h
    obtain rfl : plan' = plan := by simpa using heq
    exact verdict_of_planCreate hplan
  · obtain ⟨id, -, h⟩ := Asked.result_bind_eq_ok.1 h
    obtain ⟨plan', hplan, heq⟩ := Asked.result_bind_eq_ok.1 h
    obtain rfl : plan' = plan := by simpa using heq
    exact verdict_of_planDelete hplan
  · split at h
    · obtain ⟨plan', hplan, heq⟩ := Asked.result_bind_eq_ok.1 h
      obtain rfl : plan' = plan := by simpa using heq
      exact verdict_of_planRename hplan
    · exact verdict_of_planUpdate h

end Reconciler

namespace Task

variable {σ : Type} {t : Task σ} {p : Pivot} {planned : PlannedChange}

lemma verdict_of_planClean {d : Option Entity}
    (h : (t.planClean p d).result = .ok (some planned)) :
    (t.reconciler.isAllowed planned.change.modification (.pair none d)).result =
      .ok planned.allowed := by
  unfold planClean at h
  split at h
  · simp at h
  · obtain ⟨plan', hplan, heq⟩ := Asked.result_bind_eq_ok.1 h
    obtain rfl : plan' = planned := by simpa using heq
    exact Reconciler.verdict_of_planDelete hplan

end Task

/-! ## Units and their plans -/

/-- The turns of a course: the world before each of them, and what happened in it. -/
abbrev Trail (σ : Type) := List (World σ × List Event)

namespace Pass

variable {σ : Type} {t : Task σ} {now : Nat} {clean : Bool} {trail more : Trail σ} {p : Pivot}
  {c : Change} {b : Bindings} {planned : PlannedChange} {w : World σ}

/-- A change was planned for a pivot on bindings, in a turn from the world `w` on.  The records are
those that the stores have answered: the destination in this turn, the source in an earlier one. -/
inductive Planned (t : Task σ) (trail : Trail σ) (w : World σ) (p : Pivot) :
    Bindings → PlannedChange → Prop
  /-- The source has the pivot. -/
  | sync {known s : Entity} {d : Option Entity} {planned : PlannedChange}
      (hsource : ∃ x ∈ trail, (t.source.answerFetch p x.1.stores).1 = .ok (some known))
      (hdestination :
        t.checkDestination p (t.destination.answerFetch p w.stores).1 = .ok d)
      (hprepared : (t.reconciler.prepareSource known).result = .ok s)
      (hplan : (t.reconciler.computeChange (some s) d).result = .ok (some planned)) :
      Planned t trail w p (.pair (some s) d) planned
  /-- The pivot is gone from the source, and the destination was asked for its record. -/
  | clean {d : Option Entity} {planned : PlannedChange}
      (hsource : ∃ x ∈ trail, (t.source.answerFetch p x.1.stores).1 = .ok none)
      (hdestination :
        t.checkDestination p (t.destination.answerFetch p w.stores).1 = .ok d)
      (hplan : (t.planClean p d).result = .ok (some planned)) :
      Planned t trail w p (.pair none d) planned
  /-- The pivot is gone from the source, and the condition does not need the record. -/
  | gone {planned : PlannedChange} (hsource : (t.source.answerFetch p w.stores).1 = .ok none)
      (hplan : (t.planClean p none).result = .ok (some planned)) :
      Planned t trail w p (.pair none none) planned

/-- A plan carries the verdict of its own condition on its own bindings. -/
theorem Planned.verdict (h : Planned t trail w p b planned) :
    ((t.config.policy.conditions.of planned.change.modification).evaluate t.evaluator b).result =
      .ok planned.allowed := by
  cases h with
  | sync _ _ _ hplan => exact Reconciler.verdict_of_computeChange hplan
  | clean _ _ hplan => exact Task.verdict_of_planClean hplan
  | gone _ hplan => exact Task.verdict_of_planClean hplan

/-- A change was computed for a pivot in one of the turns, from a plan on bindings. -/
def Computed (t : Task σ) (trail : Trail σ) (p : Pivot) (b : Bindings) (planned : PlannedChange) :
    Prop :=
  ∃ earlier x later, trail = earlier ++ x :: later ∧ .computed p planned ∈ x.2 ∧
    Planned t earlier x.1 p b planned

lemma Computed.verdict (h : Computed t trail p b planned) :
    ((t.config.policy.conditions.of planned.change.modification).evaluate t.evaluator b).result =
      .ok planned.allowed := by
  obtain ⟨_, _, _, _, _, hplanned⟩ := h
  exact hplanned.verdict

lemma Computed.append (h : Computed t trail p b planned) :
    Computed t (trail ++ more) p b planned := by
  obtain ⟨earlier, x, later, rfl, hmem, hplanned⟩ := h
  exact ⟨earlier, x, later ++ more, by simp, hmem, hplanned⟩

/-- What a unit carries with it comes from the turns so far: the source's answer, or a change that
was computed, let through by its condition and not suppressed. -/
def Grounded (t : Task σ) (trail : Trail σ) (clean : Bool) (j : Job) : Prop :=
  match j.phase with
  | .destinationAsked known =>
    (∃ x ∈ trail, (t.source.answerFetch j.pivot x.1.stores).1 = .ok known) ∧
      (clean = true → known = none)
  | .applying c =>
    t.config.dryRun.suppresses c.modification = false ∧ ∃ b, Computed t trail j.pivot b ⟨c, true⟩
  | _ => True

lemma Grounded.append {j : Job} (h : Grounded t trail clean j) :
    Grounded t (trail ++ more) clean j := by
  unfold Grounded at h ⊢
  split at h
  · obtain ⟨⟨x, hx, hanswer⟩, hclean⟩ := h
    exact ⟨⟨x, List.mem_append_left _ hx, hanswer⟩, hclean⟩
  · exact ⟨h.1, h.2.imp fun _ => Computed.append⟩
  · trivial

end Pass

namespace Task

variable {σ : Type} {t : Task σ} {now : Nat} {clean : Bool} {trail : Trail σ} {p : Pivot}
  {c : Change} {planned : PlannedChange} {j j' : Job} {l l' : Ledger} {w w' : World σ}

lemma computed_mem_planEvents {q : Pivot} {plan : Asked (Option PlannedChange)} :
    .computed p planned ∈ t.planEvents q plan ↔ p = q ∧ plan.result = .ok (some planned) := by
  unfold planEvents
  split
  next e he => simp [he]
  next he => simp [he]
  next planned' he =>
    rw [he]
    split <;> simp [eq_comm]

lemma answered_notMem_planEvents {q : Pivot} {plan : Asked (Option PlannedChange)}
    {answer : Except StoreError Bool} : .answered p c answer ∉ t.planEvents q plan := by
  unfold planEvents
  split
  · simp
  · simp
  · split <;> simp

/-- What a unit has computed was planned from the answers of the stores. -/
lemma planned_of_unitEvents (hj : Pass.Grounded t trail clean j)
    (h : .computed p planned ∈ t.unitEvents clean now j l w) :
    p = j.pivot ∧ ∃ b, Pass.Planned t trail w p b planned := by
  unfold Pass.Grounded at hj
  unfold unitEvents at h
  cases hphase : j.phase with
  | waiting =>
    simp only [hphase] at h
    split at h <;> simp at h
  | sourceAsked =>
    simp only [hphase] at h
    split at h
    · simp at h
    next found hanswer =>
      split at h
      · split at h
        · simp at h
        next hnone =>
          split at h
          · simp at h
          · obtain ⟨rfl, hplan⟩ := computed_mem_planEvents.1 h
            obtain rfl := Option.not_isSome_iff_eq_none.1 hnone
            exact ⟨rfl, _, .gone hanswer hplan⟩
      · simp at h
  | destinationAsked known =>
    simp only [hphase] at h hj
    obtain ⟨hsource, hnone⟩ := hj
    split at h
    · simp at h
    next d hdestination =>
      obtain ⟨rfl, hplan⟩ := computed_mem_planEvents.1 h
      split at hplan
      next hclean =>
        obtain rfl := hnone hclean
        exact ⟨rfl, _, .clean hsource hdestination hplan⟩
      · cases known with
        | none => simp [planSync] at hplan
        | some known =>
          obtain ⟨s, hprepared, hplan⟩ := Asked.result_bind_eq_ok.1 hplan
          exact ⟨rfl, _, .sync hsource hdestination hprepared hplan⟩
  | admitted | counted | applying c | lost | ended => simp [hphase] at h

/-- Only a unit that applies a change is answered by the destination. -/
lemma applying_of_answered {answer : Except StoreError Bool}
    (h : .answered p c answer ∈ t.unitEvents clean now j l w) :
    j.phase = .applying c ∧ p = j.pivot := by
  unfold unitEvents at h
  cases hphase : j.phase with
  | waiting =>
    simp only [hphase] at h
    split at h <;> simp at h
  | sourceAsked =>
    simp only [hphase] at h
    split at h
    · simp at h
    · split at h
      · split at h
        · simp at h
        · split at h
          · simp at h
          · exact absurd h answered_notMem_planEvents
      · simp at h
  | destinationAsked known =>
    simp only [hphase] at h
    split at h
    · simp at h
    · exact absurd h answered_notMem_planEvents
  | applying c' =>
    simp only [hphase, List.mem_cons, Event.answered.injEq, reduceCtorEq, List.not_mem_nil,
      or_false] at h
    obtain ⟨rfl, rfl, -⟩ := h
    exact ⟨rfl, rfl⟩
  | admitted | counted | lost | ended => simp [hphase] at h

/-- A change is let through if its condition is true and its kind is not suppressed. -/
lemma suppression?_eq_none_iff : t.suppression? planned = none ↔
    planned.allowed = true ∧ t.config.dryRun.suppresses planned.change.modification = false := by
  unfold suppression?
  cases planned.allowed <;> simp

lemma Doing.sourceAsked {events : List Event} {known : Option Entity}
    (h : t.Doing now j l w events (.running j', l', w'))
    (hphase : j'.phase = .destinationAsked known) : j.phase = .sourceAsked := by
  cases h with
  | ask hasked _ =>
    rcases hasked with ⟨-, rfl⟩ | ⟨hasked, -⟩
    · simp at hphase
    · exact hasked
  | _ => simp at hphase

lemma Doing.computed {events : List Event} (h : t.Doing now j l w events (.running j', l', w'))
    (hphase : j'.phase = .applying c) :
    j'.pivot = j.pivot ∧ ∃ planned, .computed j.pivot planned ∈ events ∧ planned.change = c ∧
      t.suppression? planned = none := by
  cases h with
  | plan _ hreason _ =>
    exact ⟨rfl, _, List.mem_cons_self, Phase.applying.inj hphase, hreason⟩
  | ask hasked _ => rcases hasked with ⟨-, rfl⟩ | ⟨-, known, rfl⟩ <;> simp at hphase
  | _ => simp at hphase

/-- A unit that has asked the destination carries the source's answer. -/
lemma answered_of_unitStep {known : Option Entity}
    (hstep : t.unitStep clean now j l w = (.running j', l', w'))
    (hphase : j'.phase = .destinationAsked known) :
    j'.pivot = j.pivot ∧ (t.source.answerFetch j.pivot w.stores).1 = .ok known ∧
      (clean = true → known = none) := by
  simp only [unitStep, (doing_of_step hstep).sourceAsked hphase, onSource] at hstep
  split at hstep
  · obtain rfl := Progress.running.inj (Prod.mk.inj hstep).1
    simp at hphase
  next found hanswer =>
    split at hstep
    next hclean =>
      split at hstep
      · obtain rfl := Progress.running.inj (Prod.mk.inj hstep).1
        simp at hphase
      next hnone =>
        obtain rfl := Option.not_isSome_iff_eq_none.1 hnone
        split at hstep
        · obtain rfl := Progress.running.inj (Prod.mk.inj hstep).1
          obtain rfl := Phase.destinationAsked.inj hphase
          exact ⟨rfl, hanswer, fun _ => rfl⟩
        · obtain ⟨-, -, ⟨result, hended⟩ | ⟨planned, -, happlying⟩⟩ := phase_of_takeUp hstep
          · exact absurd (hended.symm.trans hphase) (Phase.after_ne_destinationAsked result _)
          · simp [hphase] at happlying
    next hsync =>
      obtain rfl := Progress.running.inj (Prod.mk.inj hstep).1
      obtain rfl := Phase.destinationAsked.inj hphase
      exact ⟨rfl, hanswer, fun hclean => absurd hclean hsync⟩

/-- A step leaves a unit grounded in the trail that it extends. -/
lemma grounded_of_unitStep (hj : Pass.Grounded t trail clean j)
    (hstep : t.unitStep clean now j l w = (.running j', l', w')) :
    Pass.Grounded t (trail ++ [(w, t.unitEvents clean now j l w)]) clean j' := by
  have hdoing := doing_of_step hstep
  unfold Pass.Grounded
  cases hphase : j'.phase with
  | destinationAsked known =>
    obtain ⟨hpivot, hanswer, hnone⟩ := answered_of_unitStep hstep hphase
    exact ⟨⟨_, List.mem_append_right _ List.mem_cons_self, hpivot ▸ hanswer⟩, hnone⟩
  | applying c =>
    obtain ⟨hpivot, ⟨change, allowed⟩, hmem, rfl, hreason⟩ := hdoing.computed hphase
    obtain ⟨rfl, hgoes⟩ := suppression?_eq_none_iff.1 hreason
    obtain ⟨-, b, hplanned⟩ := planned_of_unitEvents hj hmem
    refine ⟨hgoes, b, ?_⟩
    rw [hpivot]
    exact ⟨trail, _, [], rfl, hmem, hplanned⟩
  | _ => trivial

end Task

/-! ## Passes -/

namespace Pass

variable {σ : Type} {t : Task σ} {now : Nat} {trail more : Trail σ} {events : List Event}
  {p : Pass} {w : World σ} {z : Pass × World σ}

/-- The units that wait have not begun, and those that run are grounded. -/
structure Sourced (t : Task σ) (trail : Trail σ) (p : Pass) : Prop where
  queued : p.IsQueued
  running : ∀ j, .running j ∈ p.pool.workers → Grounded t trail p.isClean j

lemma Sourced.append (h : Sourced t trail p) : Sourced t (trail ++ more) p :=
  ⟨h.queued, fun j hj => (h.running j hj).append⟩

lemma sourced_of_isNew {pivots : List Pivot} (h : IsNew pivots p) : Sourced t trail p := by
  refine ⟨by simp [IsQueued, h.queue], fun j hj => ?_⟩
  simpa using h.workers _ hj

/-- A worker takes up something else, which is grounded if it is a unit. -/
lemma Sourced.setWorker (h : Sourced t trail p) {p' : Pass} {k : Nat} {y : Worker Job}
    (hqueued : p'.IsQueued) (hclean : p'.isClean = p.isClean)
    (hworkers : p'.pool.workers = p.pool.workers.set k y)
    (hy : ∀ j, y = .running j → Grounded t (trail ++ more) p.isClean j) :
    Sourced t (trail ++ more) p' := by
  refine ⟨hqueued, ?_⟩
  rw [hworkers, hclean]
  exact forall_running_set (fun j hj => (h.running j hj).append) hy

lemma Act.sourced (h : Act t now p w events z) (hp : Sourced t trail p) :
    Sourced t (trail ++ [(w, events)]) z.1 := by
  have hqueued := h.queued hp.queued
  cases h with
  | submit | await | close | expire | giveUp =>
    exact ⟨hqueued, fun j hj => (hp.running j hj).append⟩
  | drop _ hpool _ =>
    refine ⟨hqueued, fun j hj => ?_⟩
    rcases hpool with rfl | ⟨-, rfl⟩ <;> exact (hp.running j hj).append
  | stop _ _ => exact hp.setWorker hqueued rfl rfl (by simp)
  | @take k j rest _ _ hqueue =>
    refine hp.setWorker hqueued rfl rfl fun i hi => ?_
    obtain rfl := Worker.running.inj hi
    have hwaiting := hp.queued j (by rw [hqueue]; exact List.mem_cons_self)
    simp [Grounded, hwaiting]
  | @go k j j' l' w' hrunning hstep =>
    refine hp.setWorker hqueued rfl rfl fun i hi => ?_
    obtain rfl := Worker.running.inj hi
    exact Task.grounded_of_unitStep (hp.running j (List.mem_of_getElem? hrunning)) hstep
  | @leave k j _ _ =>
    refine hp.setWorker (k := k) (y := .idle) hqueued rfl ?_ (by simp)
    split <;> rfl

/-- What a turn may do after the turns of a trail. -/
structure Lawful (t : Task σ) (trail : Trail σ) (w : World σ) (events : List Event) : Prop where
  computed : ∀ p planned, .computed p planned ∈ events → ∃ b, Planned t trail w p b planned
  applied : ∀ p c answer, .answered p c answer ∈ events →
    t.config.dryRun.suppresses c.modification = false ∧ ∃ b, Computed t trail p b ⟨c, true⟩

lemma Act.lawful (h : Act t now p w events z) (hp : Sourced t trail p) :
    Lawful t trail w events := by
  cases h with
  | @go k j _ _ _ hrunning _ =>
    have hj := hp.running j (List.mem_of_getElem? hrunning)
    refine ⟨fun q planned hq => (Task.planned_of_unitEvents hj hq).2, fun q c answer hq => ?_⟩
    obtain ⟨hphase, rfl⟩ := Task.applying_of_answered hq
    simpa only [Grounded, hphase] using hj
  | _ => exact ⟨by simp, by simp⟩

end Pass

/-! ## Courses -/

namespace Engine

open Pass

variable {σ : Type} {t : Task σ} {now : Nat} {trail more : Trail σ} {w : World σ}
  {x y z : Engine σ}

/-- A course of passes of one task.  Any pass of those that have been started may make a turn at any
time, passes of all kinds may be started, and their pivots may come from the queries of a poller. -/
inductive Course (t : Task σ) (x : Engine σ) : Trail σ → Engine σ → Prop
  | refl : Course t x [] x
  | turn {trail : Trail σ} {passes rest : List Pass} {p p' : Pass} {w w' : World σ}
      {events : List Event} {now : Nat} (h : Course t x trail ⟨passes ++ p :: rest, w⟩)
      (hturn : Happens t now (p, w) events (p', w')) :
      Course t x (trail ++ [(w, events)]) ⟨passes ++ p' :: rest, w'⟩
  | start {trail : Trail σ} {y : Engine σ} {kind : PassKind} {handed pivots : List Pivot}
      {time : Nat} {w' : World σ} (h : Course t x trail y)
      (hscope : t.scope handed kind y.world = (.ok pivots, w')) :
      Course t x trail ⟨.ofKind t.config kind pivots time :: y.passes, w'⟩
  /-- No pivots could be listed, or the source has none. -/
  | early {trail : Trail σ} {y : Engine σ} {kind : PassKind} {handed : List Pivot} {e : SyncError}
      {w' : World σ} (h : Course t x trail y)
      (hscope : t.scope handed kind y.world = (.error e, w')) : Course t x trail ⟨y.passes, w'⟩
  | query {trail : Trail σ} {y : Engine σ} {stores : σ} (h : Course t x trail y)
      (hstores : stores = (t.source.list y.world.stores).2 ∨
        ∃ filter, stores = (t.source.changed filter y.world.stores).2) :
      Course t x trail ⟨y.passes, { y.world with stores := stores }⟩
  /-- Passes are forgotten, and what is left of them with them. -/
  | forget {trail : Trail σ} {y : Engine σ} {passes : List Pass} (h : Course t x trail y)
      (hpasses : passes.Sublist y.passes) : Course t x trail ⟨passes, y.world⟩

lemma Course.trans (h : Course t x trail y) (h' : Course t y more z) :
    Course t x (trail ++ more) z := by
  induction h' with
  | refl => simpa using h
  | turn _ hturn ih =>
    rw [← List.append_assoc]
    exact ih.turn hturn
  | start _ hscope ih => exact ih.start hscope
  | early _ hscope ih => exact ih.early hscope
  | query _ hstores ih => exact ih.query hstores
  | forget _ hpasses ih => exact ih.forget hpasses

lemma Course.sourced (h : Course t x trail y) (hx : x.passes = []) :
    ∀ p ∈ y.passes, Sourced t trail p := by
  induction h with
  | refl => simp [hx]
  | @turn trail passes rest p p' w w' events now _ hturn ih =>
    -- The other passes keep what they know of an earlier trail: a trail only grows.
    have hp : Sourced t trail p := ih p (by simp)
    intro q hq
    simp only [List.mem_append, List.mem_cons] at hq
    rcases hq with hq | rfl | hq
    · exact (ih q (by simp [hq])).append
    · exact (act_of_happens hturn).sourced hp
    · exact (ih q (by simp [hq])).append
  | start _ _ ih =>
    intro q hq
    rcases List.mem_cons.1 hq with rfl | hq
    · exact sourced_of_isNew (isNew_ofKind _ _ _ _)
    · exact ih q hq
  | early _ _ ih => exact ih
  | query _ _ ih => exact ih
  | forget _ hpasses ih => exact fun q hq => ih q (hpasses.subset hq)

/-- Every turn of a course is lawful after those before it. -/
lemma Course.lawful (h : Course t x trail y) (hx : x.passes = []) {earlier later : Trail σ}
    {turn : World σ × List Event} (hturn : trail = earlier ++ turn :: later) :
    Lawful t earlier turn.1 turn.2 := by
  induction h generalizing later with
  | refl => simp at hturn
  | @turn trail passes rest p p' w w' events now hcourse hhappens ih =>
    rcases split_concat hturn.symm with ⟨-, rfl, rfl⟩ | ⟨later, -, hearlier⟩
    · exact (act_of_happens hhappens).lawful (hcourse.sourced hx p (by simp))
    · exact ih hearlier.symm
  | start _ _ ih => exact ih hturn
  | early _ _ ih => exact ih hturn
  | query _ _ ih => exact ih hturn
  | forget _ _ ih => exact ih hturn

/-! ## What the courses of the engine are -/

lemma course_of_stepAmong? (front : List Pass) {before after : List Pass} {w' : World σ}
    (h : stepAmong? t now before w = some (after, w')) :
    ∃ events, Course t ⟨front ++ before, w⟩ [(w, events)] ⟨front ++ after, w'⟩ := by
  induction before generalizing front after with
  | nil => simp [stepAmong?] at h
  | cons p rest ih =>
    simp only [stepAmong?] at h
    split at h
    next p' w'' hstep =>
      obtain ⟨rfl, rfl⟩ := Prod.mk.inj (Option.some.inj h)
      obtain ⟨events, hhappens⟩ := (turn_of_step? hstep).exists_happens
      exact ⟨events, Course.refl.turn hhappens⟩
    next =>
      obtain ⟨⟨rest', w''⟩, hrest, heq⟩ := Option.map_eq_some_iff.1 h
      obtain ⟨rfl, rfl⟩ := Prod.mk.inj heq
      obtain ⟨events, hcourse⟩ := ih (front ++ [p]) hrest
      exact ⟨events, by simpa using hcourse⟩

lemma course_of_step? (h : step? t now x = some y) : ∃ trail, Course t x trail y := by
  obtain ⟨⟨passes, w⟩, hamong, rfl⟩ := Option.map_eq_some_iff.1 h
  obtain ⟨events, hcourse⟩ := course_of_stepAmong? [] hamong
  exact ⟨_, hcourse⟩

lemma course_of_run (t : Task σ) (wanted : Engine σ → Bool) (deadline : Option Nat) (fuel : Nat)
    (s : Timed (Engine σ)) :
    ∃ trail, Course t s.state trail ((process t).run wanted deadline fuel s).state := by
  refine Process.run_keeps (I := fun y => ∃ trail, Course t s.state trail y) ?_ ⟨[], .refl⟩
  rintro time y z ⟨trail, hcourse⟩ hstep
  obtain ⟨more, hmore⟩ := course_of_step? hstep
  exact ⟨_, hcourse.trans hmore⟩

/-- Whole passes of the engine, and the time between them, are courses. -/
theorem course_of_conduct (t : Task σ) (kind : PassKind) (handed : List Pivot)
    (s : Timed (Engine σ)) : ∃ trail, Course t s.state trail (conduct t kind handed s).2.state := by
  cases hscope : t.scope handed kind s.state.world with
  | mk listed w' =>
    simp only [conduct, hscope]
    cases listed with
    | error e => exact ⟨[], Course.refl.early hscope⟩
    | ok pivots =>
      set begun := start (.ofKind t.config kind pivots s.time) ⟨s.state.passes, w'⟩
      obtain ⟨trail, hcourse⟩ := course_of_run t
        (fun e => e.passes.head?.any (·.pool.outcome?.isSome)) none (fuel t begun) ⟨s.time, begun⟩
      exact ⟨_, ((Course.refl.start hscope).trans hcourse).forget List.filter_sublist⟩

/-! ## The audit of a course -/

end Engine

namespace Task

variable {σ : Type} {t : Task σ}

lemma audit_of_scope {handed : List Pivot} {kind : PassKind} {w w' : World σ}
    {listed : Except SyncError (List Pivot)} (h : t.scope handed kind w = (listed, w')) :
    w'.audit = w.audit := by
  rw [← t.scope_audit handed kind w, h]

/-- The audit record of a computed change that is held back, without its time. -/
def heldBack? (t : Task σ) : Event → Option (String × String × Change × Option Suppression)
  | .computed p planned =>
    if planned.allowed = false then some (t.config.name, p.id, planned.change, some .condition)
    else if t.config.dryRun.suppresses planned.change.modification then
      some (t.config.name, p.id, planned.change, some .dryRun)
    else none
  | _ => none

lemma filter_recordOf? (e : Event) :
    (t.recordOf? e).filter (·.2.2.2.isSome) = t.heldBack? e := by
  cases e with
  | computed p planned =>
    simp only [recordOf?, heldBack?, suppression?]
    cases planned.allowed <;>
      cases t.config.dryRun.suppresses planned.change.modification <;> rfl
  | answered p c answer =>
    rcases answer with e | accepted
    · rfl
    · cases accepted <;> rfl
  | _ => rfl

/-- Among the records that a log leaves, those of changes that were not applied belong to the
computed changes that were held back. -/
lemma untimed_heldBack {records : List AuditRecord} {log : List Event}
    (h : records.map AuditRecord.untimed = log.filterMap t.recordOf?) :
    (records.filter (!·.applied)).map AuditRecord.untimed = log.filterMap t.heldBack? := by
  have hcommute : (records.filter (!·.applied)).map AuditRecord.untimed =
      (records.map AuditRecord.untimed).filter (·.2.2.2.isSome) := by
    rw [List.filter_map]
    congr 2
    funext r
    simp [AuditRecord.applied, AuditRecord.untimed]
  rw [hcommute, h, List.filter_filterMap]
  exact congrArg (List.filterMap · log) (funext filter_recordOf?)

end Task

namespace Engine

open Pass

variable {σ : Type} {t : Task σ} {trail : Trail σ} {w : World σ} {x y : Engine σ}

lemma Course.audit (h : Course t x trail y) : ∃ records,
    y.world.audit = x.world.audit ++ records ∧
      records.map AuditRecord.untimed = (trail.flatMap (·.2)).filterMap t.recordOf? := by
  induction h with
  | refl => exact ⟨[], by simp, rfl⟩
  | @turn trail passes rest p p' w w' events now _ hturn ih =>
    obtain ⟨records, hrecords, huntimed⟩ := ih
    obtain ⟨more, hmore, huntimed'⟩ := (History.refl.step hturn).audit
    have hmore : w'.audit = w.audit ++ more := hmore
    have hrecords : w.audit = x.world.audit ++ records := hrecords
    refine ⟨records ++ more, ?_, ?_⟩
    · rw [hmore, hrecords, List.append_assoc]
    · rw [List.map_append, huntimed, huntimed']
      simp
  | start _ hscope ih => simpa only [Task.audit_of_scope hscope] using ih
  | early _ hscope ih => simpa only [Task.audit_of_scope hscope] using ih
  | query _ _ ih => exact ih
  | forget _ _ ih => exact ih

end Engine

/-! ## A destination that is left alone -/

/-- The queries to a store leave a part of the state as it is. -/
structure Adapter.Preserves {σ ρ : Type} (a : Adapter σ) (part : σ → ρ) : Prop where
  list : ∀ s, part (a.list s).2 = part s
  changed : ∀ filter s, part (a.changed filter s).2 = part s
  requestFetch : ∀ p s, part (a.requestFetch p s).2 = part s
  answerFetch : ∀ p s, part (a.answerFetch p s).2 = part s

lemma MemoryStore.preserves_within {σ : Type} {part : σ → MemoryStore} {name : String} {feed : Bool}
    {replace : MemoryStore → σ → σ} (hreplace : ∀ m s, part (replace m s) = m) :
    ((MemoryStore.adapter name feed).within part replace).Preserves part :=
  ⟨fun _ => hreplace _ _, fun _ _ => hreplace _ _, fun _ _ => hreplace _ _, fun _ _ => hreplace _ _⟩

namespace Task

variable {σ : Type} {t : Task σ} {now : Nat} {clean : Bool} {j : Job} {l : Ledger} {w : World σ}
  {part : σ → MemoryStore}

/-- The destination is a memory store, a part of the state that no query of the source touches. -/
structure Backed (t : Task σ) (part : σ → MemoryStore) : Prop where
  destination : ∃ name feed replace, t.destination =
    (MemoryStore.adapter name feed).within part replace ∧ ∀ m s, part (replace m s) = m
  source : t.source.Preserves part

/-- Two stores side by side, the second of them a memory store. -/
lemma backed_second {τ : Type} (config : TaskConfig) (source : Adapter τ) (name : String)
    (feed : Bool) (ev : Evaluator) :
    Backed ⟨config, source.first, (MemoryStore.adapter name feed).second, ev⟩ Prod.snd :=
  ⟨⟨name, feed, _, rfl, fun _ _ => rfl⟩, fun _ => rfl, fun _ _ => rfl, fun _ _ => rfl,
    fun _ _ => rfl⟩

/-- A memory store is not changed by queries. -/
lemma Backed.queries (h : t.Backed part) : t.destination.Preserves part := by
  obtain ⟨name, feed, replace, hdestination, hreplace⟩ := h.destination
  rw [hdestination]
  exact MemoryStore.preserves_within hreplace

lemma Backed.scope (h : t.Backed part) {handed : List Pivot} {kind : PassKind} {w' : World σ}
    {listed : Except SyncError (List Pivot)} (hscope : t.scope handed kind w = (listed, w')) :
    part w'.stores = part w.stores := by
  obtain rfl : (t.scope handed kind w).2 = w' := congrArg Prod.snd hscope
  cases kind with
  | incremental => rfl
  | full => exact h.source.list _
  | clean => exact h.queries.list _

lemma stores_takeUp {plan : Asked (Option PlannedChange)} :
    (t.takeUp now j plan l w).2.2.stores = w.stores := by
  unfold takeUp
  split
  · rfl
  · rfl
  · split <;> rfl

/-- A step of a unit leaves what its queries leave, and the change that it applies. -/
lemma stores_unitStep {ρ : Type} {part : σ → ρ} (hsource : t.source.Preserves part)
    (hdestination : t.destination.Preserves part)
    (happly : ∀ c, j.phase = .applying c →
      part (t.destination.apply c (w.epoch.addMilliseconds now) w.stores).2 = part w.stores) :
    part (t.unitStep clean now j l w).2.2.stores = part w.stores := by
  cases hphase : j.phase with
  | waiting => simp only [Task.unitStep, hphase, world_enter]
  | admitted | lost | ended => simp only [Task.unitStep, hphase]
  | counted =>
    simp only [Task.unitStep, hphase]
    exact hsource.requestFetch _ _
  | sourceAsked =>
    simp only [Task.unitStep, hphase, onSource]
    have hasked := hsource.answerFetch j.pivot w.stores
    split
    · exact hasked
    · split
      · split
        · exact hasked
        · split
          · exact (hdestination.requestFetch _ _).trans hasked
          · rw [stores_takeUp]
            exact hasked
      · exact (hdestination.requestFetch _ _).trans hasked
  | destinationAsked known =>
    simp only [Task.unitStep, hphase, onDestination]
    have hasked := hdestination.answerFetch j.pivot w.stores
    split
    · exact hasked
    · rw [stores_takeUp]
      exact hasked
  | applying c =>
    simp only [Task.unitStep, hphase, carryOut]
    split <;> exact happly c hphase

/-- A unit that does not apply a change leaves the destination as it is. -/
lemma Backed.unitStep (h : t.Backed part) (hj : ∀ c, j.phase ≠ .applying c) :
    part (t.unitStep clean now j l w).2.2.stores = part w.stores :=
  stores_unitStep h.source h.queries fun c hphase => absurd hphase (hj c)

/-- The same task with another answer to changes. -/
def withApply (t : Task σ) (apply : Change → Instant → σ → Except StoreError Bool × σ) : Task σ :=
  { t with destination := { t.destination with apply := apply } }

lemma scope_withApply (t : Task σ) (apply : Change → Instant → σ → Except StoreError Bool × σ)
    (handed : List Pivot) (kind : PassKind) (w : World σ) :
    (t.withApply apply).scope handed kind w = t.scope handed kind w := by
  cases kind <;> rfl

/-- Only a unit that applies a change asks the destination to. -/
lemma unitStep_withApply (t : Task σ) (clean : Bool) (now : Nat) (l : Ledger) (w : World σ)
    (apply : Change → Instant → σ → Except StoreError Bool × σ)
    (hj : ∀ c, j.phase ≠ .applying c) :
    (t.withApply apply).unitStep clean now j l w = t.unitStep clean now j l w ∧
      (t.withApply apply).unitEvents clean now j l w = t.unitEvents clean now j l w := by
  obtain ⟨pivot, phase, wake⟩ := j
  cases phase with
  | applying c => exact absurd rfl (hj c)
  | _ => exact ⟨rfl, rfl⟩

end Task

namespace Pass

variable {σ : Type} {t : Task σ} {now : Nat} {events : List Event} {p : Pass} {w : World σ}
  {z : Pass × World σ} {part : σ → MemoryStore}

/-- The destination has not been asked to apply any change. -/
def IsUnasked (events : List Event) : Prop := ∀ p c answer, .answered p c answer ∉ events

lemma phase_of_isUnasked {clean : Bool} {j : Job} {l : Ledger}
    (h : IsUnasked (t.unitEvents clean now j l w)) (c : Change) : j.phase ≠ .applying c := by
  intro hphase
  refine h j.pivot c (t.destination.apply c (w.epoch.addMilliseconds now) w.stores).1 ?_
  simp only [Task.unitEvents, hphase]
  exact List.mem_cons_self

lemma Act.spares (h : Act t now p w events z) (hbacked : t.Backed part) (hnone : IsUnasked events) :
    part z.2.stores = part w.stores := by
  cases h with
  | @go k j j' l' w' _ hstep =>
    have hspared : part (t.unitStep p.isClean now j p.ledger w).2.2.stores = part w.stores :=
      hbacked.unitStep (phase_of_isUnasked hnone)
    rwa [hstep] at hspared
  | _ => rfl

/-- Only a turn in which the destination answers a change has asked it to apply one: any other turn
is the same whatever the destination does with changes. -/
lemma Happens.withApply (h : Happens t now (p, w) events z) (hnone : IsUnasked events)
    (apply : Change → Instant → σ → Except StoreError Bool × σ) :
    Happens (t.withApply apply) now (p, w) events z := by
  cases h with
  | lead h => exact .lead h
  | watch h => exact .watch h
  | @worker _ p' _ w' k h =>
    cases hworker : p.pool.workers[k]? with
    | none => simp [turn?, Pool.turn?, hworker] at h
    | some x =>
      cases x with
      | stopped => simp [turn?, Pool.turn?, hworker] at h
      | idle =>
        have hevents : p.eventsOf t now k w = p.eventsOf (t.withApply apply) now k w := by
          simp only [eventsOf, hworker]
        rw [hevents]
        refine .worker k (Eq.trans ?_ h)
        simp only [turn?, Pool.turn?, hworker]
      | running j =>
        simp only [eventsOf, hworker] at hnone
        obtain ⟨hstep, hsame⟩ := t.unitStep_withApply p.isClean now p.ledger w apply
          (phase_of_isUnasked hnone)
        have hevents : p.eventsOf t now k w = p.eventsOf (t.withApply apply) now k w := by
          simp only [eventsOf, hworker, hsame]
        rw [hevents]
        refine .worker k (Eq.trans ?_ h)
        simp only [turn?, Pool.turn?, hworker, Task.units, hstep]

end Pass

namespace Engine

open Pass

variable {σ : Type} {t : Task σ} {trail : Trail σ} {w : World σ} {x y : Engine σ}
  {part : σ → MemoryStore}

/-- As long as no change is sent to it, a memory store behind the destination is left as it is. -/
lemma Course.spares (h : Course t x trail y) (hbacked : t.Backed part)
    (hnone : ∀ turn ∈ trail, IsUnasked turn.2) : part y.world.stores = part x.world.stores := by
  induction h with
  | refl => rfl
  | turn _ hturn ih =>
    have hspared := (act_of_happens hturn).spares hbacked
      (hnone _ (List.mem_append_right _ List.mem_cons_self))
    exact hspared.trans (ih fun turn hmem => hnone turn (List.mem_append_left _ hmem))
  | start _ hscope ih => exact (hbacked.scope hscope).trans (ih hnone)
  | early _ hscope ih => exact (hbacked.scope hscope).trans (ih hnone)
  | query _ hstores ih =>
    rcases hstores with rfl | ⟨filter, rfl⟩
    · exact (hbacked.source.list _).trans (ih hnone)
    · exact (hbacked.source.changed _ _).trans (ih hnone)
  | forget _ _ ih => exact ih hnone

/-- A course in which no change is sent to the destination is a course whatever the destination
does with changes. -/
lemma Course.withApply (h : Course t x trail y) (hnone : ∀ turn ∈ trail, IsUnasked turn.2)
    (apply : Change → Instant → σ → Except StoreError Bool × σ) :
    Course (t.withApply apply) x trail y := by
  induction h with
  | refl => exact .refl
  | turn _ hturn ih =>
    have hunasked := hnone _ (List.mem_append_right _ List.mem_cons_self)
    exact (ih fun turn hmem => hnone turn (List.mem_append_left _ hmem)).turn
      (hturn.withApply hunasked apply)
  | start _ hscope ih => exact (ih hnone).start ((t.scope_withApply apply _ _ _).trans hscope)
  | early _ hscope ih => exact (ih hnone).early ((t.scope_withApply apply _ _ _).trans hscope)
  | query _ hstores ih => exact (ih hnone).query hstores
  | forget _ hpasses ih => exact (ih hnone).forget hpasses

/-- What a course of passes has done from one world to another. -/
structure Restrained (t : Task σ) (x : Engine σ) (trail : Trail σ) (y : Engine σ) : Prop where
  /-- Every change was planned from what the stores had answered, with the verdict of the condition
  for its kind on just these records. -/
  computed : ∀ earlier turn later, trail = earlier ++ turn :: later → ∀ p planned,
    .computed p planned ∈ turn.2 → ∃ b, Planned t earlier turn.1 p b planned ∧
      ((t.config.policy.conditions.of planned.change.modification).evaluate t.evaluator b).result =
        .ok planned.allowed
  /-- Every change that was sent to the destination was computed before, the task does not suppress
  its kind, and the condition for its kind is true on the records that it was planned from. -/
  sent : ∀ earlier turn later, trail = earlier ++ turn :: later → ∀ p c answer,
    .answered p c answer ∈ turn.2 → t.config.dryRun.suppresses c.modification = false ∧
      ∃ b, Computed t earlier p b ⟨c, true⟩ ∧
        ((t.config.policy.conditions.of c.modification).evaluate t.evaluator b).result = .ok true
  /-- A course in which nothing was sent does not depend on what the destination would have done. -/
  unsent : (∀ turn ∈ trail, IsUnasked turn.2) → ∀ apply, Course (t.withApply apply) x trail y
  /-- If the task suppresses every kind, a memory store behind the destination is as it was: its
  entries, the times of their last changes and the number of changes. -/
  spared : t.config.dryRun = .all → ∀ part, t.Backed part →
    part y.world.stores = part x.world.stores
  /-- The new audit records of changes that were not applied are those of the computed changes that
  were held back, one for each and in this order: by their condition if it is false, and otherwise
  by the task. -/
  recorded : ∃ records, y.world.audit = x.world.audit ++ records ∧
    (records.filter (!·.applied)).map AuditRecord.untimed =
      (trail.flatMap (·.2)).filterMap t.heldBack?

/-- **Suppressed changes never reach the destination**, in any course of passes of any task, with
any adapters and any evaluator. -/
theorem restrained_of_course (h : Course t x trail y) (hx : x.passes = []) :
    Restrained t x trail y := by
  refine ⟨?_, ?_, h.withApply, ?_, ?_⟩
  · intro earlier turn later hturn p planned hmem
    obtain ⟨b, hplanned⟩ := (h.lawful hx hturn).computed p planned hmem
    exact ⟨b, hplanned, hplanned.verdict⟩
  · intro earlier turn later hturn p c answer hmem
    obtain ⟨hgoes, b, hcomputed⟩ := (h.lawful hx hturn).applied p c answer hmem
    exact ⟨hgoes, b, hcomputed, hcomputed.verdict⟩
  · intro hall part hbacked
    refine h.spares hbacked fun turn hmem p c answer hanswered => ?_
    obtain ⟨earlier, later, hturn⟩ := List.append_of_mem hmem
    have hgoes := ((h.lawful hx hturn).applied p c answer hanswered).1
    rw [hall] at hgoes
    cases hm : c.modification <;> simp [hm, DryRun.all, DryRun.suppresses] at hgoes
  · obtain ⟨records, hrecords, huntimed⟩ := h.audit
    exact ⟨records, hrecords, Task.untimed_heldBack huntimed⟩

/-! A clean pass and an incremental pass of a task that applies nothing and has no entry created. -/

def registry : MemoryStore :=
  (MemoryStore.new "registry" "mail").insertAll
    [(Entity.putAll (.named "uid=1") [("mail", [.string "a@x"])], ⟨0⟩),
      (Entity.putAll (.named "uid=2") [("mail", [.string "b@x"]), ("room", [.integer 7])], ⟨0⟩)]

def mirror : MemoryStore :=
  (MemoryStore.new "mirror" "mail").insertAll
    [(Entity.putAll (.named "uid=2") [("mail", [.string "b@x"])], ⟨0⟩),
      (Entity.putAll (.named "uid=3") [("mail", [.string "c@x"])], ⟨0⟩)]

def guarded : Task (MemoryStore × MemoryStore) :=
  ⟨{ TaskConfig.new "guarded" with
      dryRun := .all,
      policy := { Policy.empty with conditions := { Conditions.always with create := .never } } },
    (MemoryStore.adapter "registry" true).first, (MemoryStore.adapter "mirror" true).second,
    .ofTable []⟩

theorem restrained_of_guarded :
    ∃ trail y, Course guarded ⟨[], ⟨(registry, mirror), [], [], ⟨0⟩⟩⟩ trail y ∧
      y.world.audit.map (fun r => (r.pivot, r.change.modification, r.suppressed)) =
        [("uid=3", .delete, some .dryRun), ("uid=1", .create, some .condition),
          ("uid=2", .update, some .dryRun)] ∧
      Restrained guarded ⟨[], ⟨(registry, mirror), [], [], ⟨0⟩⟩⟩ trail y ∧
      y.world.stores.2 = mirror := by
  set w : World (MemoryStore × MemoryStore) := ⟨(registry, mirror), [], [], ⟨0⟩⟩ with hw
  set pivots := [mirror.pivotFor "uid=2" "b@x", mirror.pivotFor "uid=3" "c@x"] with hpivots
  have hlist : mirror.list = .ok pivots := by
    show Except.ok (mirror.orderedPivots mirror.entities) = _
    rw [MemoryStore.orderedPivots, List.mergeSort_of_pairwise (by decide +kernel)]
    decide +kernel
  have hscope : guarded.scope [] .clean w = (.ok pivots, w) := by
    show (mirror.list.mapError _, w) = _
    rw [hlist]
    rfl
  set begun : Timed (Engine (MemoryStore × MemoryStore)) :=
    ⟨0, start (.ofKind guarded.config .clean pivots 0) ⟨[], w⟩⟩ with hbegun
  set cleaned := (process guarded).run (fun e => e.passes.head?.any (·.pool.outcome?.isSome)) none
    (fuel guarded begun.state) begun with hcleaned
  obtain ⟨first, hfirst⟩ : ∃ trail, Course guarded ⟨[], w⟩ trail cleaned.state := by
    obtain ⟨trail, hcourse⟩ := course_of_run guarded
      (fun e => e.passes.head?.any (·.pool.outcome?.isSome)) none (fuel guarded begun.state) begun
    exact ⟨_, (Course.refl.start hscope).trans hcourse⟩
  obtain ⟨second, hsecond⟩ := course_of_conduct guarded .incremental
    [registry.pivotFor "uid=1" "a@x", registry.pivotFor "uid=2" "b@x"] cleaned
  have hcourse := hfirst.trans hsecond
  have hrestrained := restrained_of_course hcourse rfl
  refine ⟨_, _, hcourse, ?_, hrestrained, ?_⟩
  · rw [hcleaned, hbegun, hpivots, hw]
    decide +kernel
  · exact hrestrained.spared rfl Prod.snd
      (Task.backed_second _ (MemoryStore.adapter "registry" true) _ _ _)

end Engine

end StoreSync
