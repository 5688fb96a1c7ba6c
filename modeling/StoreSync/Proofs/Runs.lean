import Mathlib.Data.List.Perm.Basic
import Mathlib.Tactic.Lemma
import StoreSync.Pass.Basic

/-!
# Runs of a pass

A pass goes on by turns: its own, in which it submits a unit or begins to wait; those of the
workers, each of which takes a unit or makes one step of it; and that of whoever awaits the pool.
`Pass.Turn` is the relation of one turn, with no say about whose turn it is, and `Pass.Run` its
closure.  A run is therefore one way for the submission and the units to interleave, for any number
of workers, and a statement about every run is one about every schedule.

A turn is taken at a time, and the times of a run are arbitrary.  `Pass.Run` has a condition on
them: `Pass.InTime` keeps every turn before the deadline of the wait, so that `Run t Pass.InTime`
are the runs that the time limit does not end.

The schedule that the engine follows is one of these runs (`Pass.turn_of_step?`).
`Pool.turn?_cases` is the inversion of a worker's turn, from which invariants of runs are derived.
`Pass.Manned` is one that every invariant of a pass that is not broken off shares.
-/

namespace StoreSync

/-- An audit record without its time. -/
def AuditRecord.untimed (r : AuditRecord) : String × String × Change × Option Suppression :=
  (r.task, r.pivot, r.change, r.suppressed)

/-! ## Exchanging one element of a list -/

lemma perm_set {α : Type*} {l : List α} {k : Nat} {x : α} (h : l[k]? = some x) :
    ∃ rest, l.Perm (x :: rest) ∧ ∀ y, (l.set k y).Perm (y :: rest) := by
  obtain ⟨hk, rfl⟩ := List.getElem?_eq_some_iff.1 h
  refine ⟨l.take k ++ l.drop (k + 1), ?_, fun y => ?_⟩
  · have hsplit : l.take k ++ l[k] :: l.drop (k + 1) = l := by simp
    have hperm : (l.take k ++ l[k] :: l.drop (k + 1)).Perm
        (l[k] :: (l.take k ++ l.drop (k + 1))) := List.perm_middle
    rwa [hsplit] at hperm
  · rw [List.set_eq_take_append_cons_drop, if_pos hk]
    exact List.perm_middle

lemma countP_set {α : Type*} {l : List α} {k : Nat} {x : α} (h : l[k]? = some x) (q : α → Bool)
    (y : α) : (l.set k y).countP q + (q x).toNat = l.countP q + (q y).toNat := by
  obtain ⟨rest, hbefore, hafter⟩ := perm_set h
  rw [hbefore.countP_eq, (hafter y).countP_eq, List.countP_cons, List.countP_cons]
  cases q x <;> cases q y <;> simp

lemma perm_flatMap_set {α β : Type*} {l : List α} {k : Nat} {x : α} (h : l[k]? = some x)
    (f : α → List β) :
    ∃ rest, (l.flatMap f).Perm (f x ++ rest) ∧
      ∀ y, ((l.set k y).flatMap f).Perm (f y ++ rest) := by
  obtain ⟨rest, hbefore, hafter⟩ := perm_set h
  exact ⟨rest.flatMap f, hbefore.flatMap_right f, fun y => (hafter y).flatMap_right f⟩

lemma mem_set_self {α : Type*} {l : List α} {k : Nat} {x : α} (h : l[k]? = some x) (y : α) :
    y ∈ l.set k y := by
  obtain ⟨rest, -, hafter⟩ := perm_set h
  exact (hafter y).mem_iff.2 List.mem_cons_self

/-- An element of a list is the one that is exchanged, or it stays. -/
lemma eq_or_mem_set {α : Type*} {l : List α} {k : Nat} {x z : α} (h : l[k]? = some x)
    (hz : z ∈ l) (y : α) : z = x ∨ z ∈ l.set k y := by
  obtain ⟨rest, hbefore, hafter⟩ := perm_set h
  rcases List.mem_cons.1 (hbefore.mem_iff.1 hz) with heq | hrest
  · exact Or.inl heq
  · exact Or.inr ((hafter y).mem_iff.2 (List.mem_cons_of_mem _ hrest))

/-- What holds of every unit that is running, when one worker takes up something else. -/
lemma forall_running_set {q : Job → Prop} {workers : List (Worker Job)} {k : Nat} {y : Worker Job}
    (h : ∀ j, .running j ∈ workers → q j) (hy : ∀ j, y = .running j → q j) :
    ∀ j, .running j ∈ workers.set k y → q j := by
  intro j hj
  rcases List.mem_or_eq_of_mem_set hj with hj | heq
  · exact h j hj
  · exact hy j heq.symm

/-! ## Splitting a list at one element -/

/-- An element of a list that ends with `y` is this last one, or stands before it. -/
lemma split_concat {α : Type*} {l l' m : List α} {x y : α} (h : l ++ x :: m = l' ++ [y]) :
    m = [] ∧ x = y ∧ l = l' ∨ ∃ m', m = m' ++ [y] ∧ l ++ x :: m' = l' := by
  rcases List.eq_nil_or_concat' m with rfl | ⟨m', z, rfl⟩
  · obtain ⟨rfl, hlast⟩ := List.append_inj' h rfl
    exact Or.inl ⟨rfl, List.head_eq_of_cons_eq hlast, rfl⟩
  · rw [← List.cons_append, ← List.append_assoc] at h
    obtain ⟨hrest, hlast⟩ := List.append_inj' h rfl
    exact Or.inr ⟨m', by rw [hlast], hrest⟩

/-! ## Turns of a worker -/

namespace Pool

variable {υ σ : Type} {b : Behaviour υ σ} {now k : Nat} {p p' : Pool υ} {s s' : σ}

/-- What the turn of a worker can be. -/
inductive WorkerTurn (b : Behaviour υ σ) (now k : Nat) (p : Pool υ) (s : σ) :
    Pool υ → σ → Prop
  /-- The pool is cancelled, or its queue is closed and empty. -/
  | stop (hidle : p.workers[k]? = some .idle)
      (hstop : p.cancelled = true ∨ p.queue = [] ∧ p.stage ≠ .accepting) :
      WorkerTurn b now k p s (p.setWorker k .stopped) s
  | take {u : υ} {rest : List υ} (hidle : p.workers[k]? = some .idle)
      (hopen : p.cancelled = false) (hqueue : p.queue = u :: rest) :
      WorkerTurn b now k p s ({ p with queue := rest }.setWorker k (.running u)) s
  | go {u u' : υ} {s' : σ} (hrunning : p.workers[k]? = some (.running u))
      (hstep : b.step now u s = (.running u', s')) :
      WorkerTurn b now k p s (p.setWorker k (.running u')) s'
  | finish {u : υ} {cancel : Bool} {s' : σ} (hrunning : p.workers[k]? = some (.running u))
      (hstep : b.step now u s = (.ended cancel, s')) :
      WorkerTurn b now k p s ((if cancel then p.cancel else p).setWorker k .idle) s'
  | crash {u : υ} {s' : σ} (hrunning : p.workers[k]? = some (.running u))
      (hstep : b.step now u s = (.crashed, s')) :
      WorkerTurn b now k p s (p.setWorker k .stopped) s'

theorem turn?_cases (h : p.turn? b now k s = some (p', s')) : WorkerTurn b now k p s p' s' := by
  unfold turn? at h
  split at h
  next hidle =>
    split at h
    next hcancelled =>
      simp only [Option.some.injEq, Prod.mk.injEq] at h
      obtain ⟨rfl, rfl⟩ := h
      exact .stop hidle (Or.inl hcancelled)
    next hcancelled =>
      split at h
      next u rest hqueue =>
        simp only [Option.some.injEq, Prod.mk.injEq] at h
        obtain ⟨rfl, rfl⟩ := h
        exact .take hidle (by simpa using hcancelled) hqueue
      next hqueue =>
        split at h
        · simp at h
        next hstage =>
          simp only [Option.some.injEq, Prod.mk.injEq] at h
          obtain ⟨rfl, rfl⟩ := h
          exact .stop hidle (Or.inr ⟨hqueue, hstage⟩)
  next u hrunning =>
    split at h
    next u' s' hstep =>
      simp only [Option.some.injEq, Prod.mk.injEq] at h
      obtain ⟨rfl, rfl⟩ := h
      exact .go hrunning hstep
    next cancel s' hstep =>
      simp only [Option.some.injEq, Prod.mk.injEq] at h
      obtain ⟨rfl, rfl⟩ := h
      exact .finish hrunning hstep
    next s' hstep =>
      simp only [Option.some.injEq, Prod.mk.injEq] at h
      obtain ⟨rfl, rfl⟩ := h
      exact .crash hrunning hstep
  · simp at h

end Pool

/-! ## Turns of a pass -/

namespace Pass

variable {σ : Type} {t : Task σ} {now : Nat}

/-- One turn of a pass at a time. -/
inductive Turn (t : Task σ) (now : Nat) : Pass × World σ → Pass × World σ → Prop
  | lead {p p' : Pass} {w : World σ} (h : p.lead? t.config now = some p') :
      Turn t now (p, w) (p', w)
  | worker {p p' : Pass} {w w' : World σ} (k : Nat) (h : p.turn? t now k w = some (p', w')) :
      Turn t now (p, w) (p', w')
  | watch {p : Pass} {w : World σ} {pool : Pool Job} (h : p.pool.watch? now = some pool) :
      Turn t now (p, w) ({ p with pool := pool }, w)

/-- The deadline of the wait has not come. -/
def InTime (now : Nat) (p : Pass) : Prop :=
  ∀ deadline, p.pool.stage = .awaiting (some deadline) → now < deadline

/-- Any number of turns, each at a permitted time. -/
inductive Run (t : Task σ) (permits : Nat → Pass → Prop) (x : Pass × World σ) :
    Pass × World σ → Prop
  | refl : Run t permits x x
  | step {y z : Pass × World σ} {now : Nat} (h : Run t permits x y) (hnow : permits now y.1)
      (hturn : Turn t now y z) : Run t permits x z

/-- What holds at the start and is kept by every turn holds throughout. -/
theorem Run.keeps {permits : Nat → Pass → Prop} {x y : Pass × World σ}
    {I : Pass × World σ → Prop} (h : Run t permits x y) (hstart : I x)
    (hturn : ∀ {y z now}, I y → permits now y.1 → Turn t now y z → I z) : I y := by
  induction h with
  | refl => exact hstart
  | step _ hnow hstep ih => exact hturn ih hnow hstep

lemma Run.trans {permits : Nat → Pass → Prop} {x y z : Pass × World σ} (h : Run t permits x y)
    (h' : Run t permits y z) : Run t permits x z := by
  induction h' with
  | refl => exact h
  | step _ hnow hturn ih => exact ih.step hnow hturn

/-- The turn that the engine chooses is a turn. -/
theorem turn_of_step? {p p' : Pass} {w w' : World σ} (h : p.step? t now w = some (p', w')) :
    Turn t now (p, w) (p', w') := by
  unfold step? at h
  split at h
  next p'' hlead =>
    simp only [Option.some.injEq, Prod.mk.injEq] at h
    obtain ⟨rfl, rfl⟩ := h
    exact .lead hlead
  next =>
    obtain ⟨⟨pool, ledger, w''⟩, hpool, heq⟩ := Option.map_eq_some_iff.1 h
    simp only [Prod.mk.injEq] at heq
    obtain ⟨rfl, rfl⟩ := heq
    unfold Pool.step? at hpool
    split at hpool
    next watched hwatch =>
      simp only [Option.some.injEq, Prod.mk.injEq] at hpool
      obtain ⟨rfl, rfl, rfl⟩ := hpool
      exact .watch hwatch
    next =>
      split at hpool
      next k _ => exact .worker k (by simp [turn?, hpool])
      next => simp at hpool

/-! ## Pools that take every unit -/

/-- Where the pool of a pass stands that has not been cancelled: it has room for the units of the
pivots that are pending, it is open as long as there are any, and a worker only stops when it is
closed and its queue is empty. -/
structure Manned (p : Pass) : Prop where
  goes : p.pool.cancelled = false
  room : p.pool.queue.length + p.pending.length ≤ p.pool.capacity
  staffed : p.pool.workers ≠ []
  stopped : .stopped ∈ p.pool.workers → p.pool.queue = [] ∧ p.pool.stage ≠ .accepting
  pending : p.pending ≠ [] → p.pool.stage = .accepting
  still : p.pool.stage = .ended true → p.pool.isStill = true

namespace Manned

variable {p : Pass}

lemma isStill_eq_false (h : p.Manned) (hstage : p.pool.stage = .accepting) :
    p.pool.isStill = false := by
  rw [← Bool.not_eq_true]
  intro hstill
  obtain ⟨x, hx⟩ := List.exists_mem_of_ne_nil _ h.staffed
  have hstopped := List.all_eq_true.1 hstill x hx
  cases x with
  | stopped => exact (h.stopped hx).2 hstage
  | idle => simp [Worker.isStopped] at hstopped
  | running j => simp [Worker.isStopped] at hstopped

lemma submit (h : p.Manned) {pivot : Pivot} {rest : List Pivot}
    (hpending : p.pending = pivot :: rest) (hstage : p.pool.stage = .accepting) :
    Manned { p with
      pending := rest, pool := { p.pool with queue := p.pool.queue ++ [.new pivot] } } := by
  refine ⟨h.goes, ?_, h.staffed, fun hstopped => ?_, fun _ => hstage, h.still⟩
  · have hroom := h.room
    simp only [hpending, List.length_cons] at hroom
    simp only [List.length_append, List.length_singleton]
    omega
  · exact absurd hstage (h.stopped hstopped).2

lemma await (h : p.Manned) (hpending : p.pending = []) (hstage : p.pool.stage = .accepting)
    (deadline : Option Nat) :
    Manned { p with pool := { p.pool with stage := .awaiting deadline } } :=
  ⟨h.goes, h.room, h.staffed, fun hstopped => absurd hstage (h.stopped hstopped).2,
    fun hne => absurd hpending hne, by simp⟩

lemma close (h : p.Manned) {deadline : Option Nat} (hstage : p.pool.stage = .awaiting deadline)
    (hstill : p.pool.isStill = true) :
    Manned { p with pool := { p.pool with stage := .ended true } } := by
  refine ⟨h.goes, h.room, h.staffed, fun hstopped => ⟨(h.stopped hstopped).1, by simp⟩,
    fun hne => ?_, fun _ => hstill⟩
  have haccepting := h.pending hne
  simp [hstage] at haccepting

/-- A worker that has not stopped takes up something else, and the queue does not grow. -/
lemma setWorker (h : p.Manned) {k : Nat} {x y : Worker Job}
    (hx : p.pool.workers[k]? = some x) (hgoes : x.isStopped = false) (queue : List Job)
    (l : Ledger) (hqueue : queue.length ≤ p.pool.queue.length)
    (hy : y = .stopped → queue = [] ∧ p.pool.stage ≠ .accepting) :
    Manned { p with pool := { p.pool with queue := queue }.setWorker k y, ledger := l } := by
  refine ⟨h.goes, ?_, ?_, ?_, h.pending, ?_⟩
  · have hroom := h.room
    show queue.length + p.pending.length ≤ p.pool.capacity
    omega
  · intro hnil
    exact h.staffed ((List.set_eq_nil_iff _ _).1 hnil)
  · intro hstopped
    rcases List.mem_or_eq_of_mem_set hstopped with hmem | heq
    · obtain ⟨hempty, hstage⟩ := h.stopped hmem
      rw [hempty] at hqueue
      exact ⟨List.length_eq_zero_iff.1 (Nat.le_zero.1 hqueue), hstage⟩
    · exact hy heq.symm
  · intro hended
    have hstopped := List.all_eq_true.1 (h.still hended) x (List.mem_of_getElem? hx)
    rw [hgoes] at hstopped
    simp at hstopped

end Manned

end Pass

end StoreSync
