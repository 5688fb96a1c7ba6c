import StoreSync.Proofs.Reports
import StoreSync.Proofs.Strides

/-!
# Interleavings of the units of a pass

The units of a pass over independent pivots do not disturb one another, however their steps and
the submission of further units interleave.  The invariant of a run (`Pass.Sound`) has two parts:

* `Pass.Orderly` — where the pool stands: its queue is open as long as pivots are pending, and no
  worker has stopped before the queue was closed and empty;
* `Pass.Accounted` — the books of the pass: the pivots are split into those that have met their
  fate and those that are still in the pass, the marks are those of the met fates and of the units
  under way, and the destination is the initial one after the changes of the met fates.

`Pass.move_of_turn` is the inversion of a turn under the invariant, and the three facts about runs
follow from it: `Pass.Sound.run`, `Pass.Sound.exists_report` and `Pass.Sound.concluded`, which says
what a pass has done when it reports.
-/

namespace StoreSync

/-! ## What is still under way -/

/-- The pivot of a unit that has not yet met its fate. -/
def Job.unsettled (j : Job) : List Pivot := if j.phase = .ended then [] else [j.pivot]

namespace Worker

def unsettled : Worker Job → List Pivot
  | .running j => j.unsettled
  | _ => []

def marks : Worker Job → List Mark
  | .running j => j.marks
  | _ => []

end Worker

namespace Pass

/-- The pivots that have not yet met their fate. -/
def unsettled (p : Pass) : List Pivot :=
  p.pool.workers.flatMap Worker.unsettled ++ (p.pool.queue.map (·.pivot) ++ p.pending)

/-- Where the pool of a pass stands that nothing has gone wrong in, with a time limit. -/
structure Orderly (limit : Nat) (p : Pass) : Prop extends Manned p where
  reconciles : p.isClean = false
  stage : p.pool.stage = .accepting ∨ (∃ d, p.pool.stage = .awaiting d) ∨ p.pool.stage = .ended true
  late : ∀ d, p.pool.stage = .awaiting (some d) → limit ≤ d

variable {t : Task (MemoryStore × MemoryStore)} {src dst : MemoryStore} {pivots : List Pivot}
  {earlier : List (String × String × Change × Option Suppression)} {now : Nat}

/-- The books of a pass: some pivots have met their fate, and the others are still in the pass. -/
structure Accounted (t : Task (MemoryStore × MemoryStore)) (src dst : MemoryStore)
    (pivots : List Pivot) (earlier : List (String × String × Change × Option Suppression))
    (settled : List Pivot) (marks : List Mark)
    (x : Pass × World (MemoryStore × MemoryStore)) : Prop where
  split : (settled ++ x.1.unsettled).Perm pivots
  marked : marks.Perm (t.marks src dst settled ++
    x.1.pool.workers.flatMap Worker.marks)
  ledger : x.1.ledger = { Ledger.new none with counters := marks.foldl Mark.count .zero }
  audit : x.2.audit.map AuditRecord.untimed =
    earlier ++ marks.filterMap (Mark.record? t.config.name)
  queued : ∀ j ∈ x.1.pool.queue, j = .new j.pivot
  informed : ∀ j, .running j ∈ x.1.pool.workers → t.Informed src dst j
  source : x.2.stores.1 = src
  destination : ∃ entries n, x.2.stores.2 = { dst with entries := entries, applied := n }
  enacted : t.Enacted src dst settled x.2.stores.2.records

/-- The invariant of a run. -/
structure Sound (t : Task (MemoryStore × MemoryStore)) (src dst : MemoryStore)
    (pivots : List Pivot) (earlier : List (String × String × Change × Option Suppression))
    (x : Pass × World (MemoryStore × MemoryStore)) : Prop where
  orderly : x.1.Orderly t.config.timeLimit
  accounted : ∃ settled marks, Accounted t src dst pivots earlier settled marks x

/-- Pivots whose units do not disturb one another, and stores that do not lose their connection. -/
structure Undisturbed (t : Task (MemoryStore × MemoryStore)) (src dst : MemoryStore)
    (pivots : List Pivot) : Prop where
  joins : t.Joins src dst
  keyed : MemoryStore.Keyed dst.records
  source : src.connectionLost = false
  destination : dst.connectionLost = false
  loss : ∀ p ∈ pivots, ∀ e, t.foreseen src dst p = .error e → e.isConnectionLost = false
  independent : pivots.Pairwise fun p q => t.Independent src dst p q ∧ t.Independent src dst q p

/-- A pass that has not begun. -/
lemma sound_of_start {config : TaskConfig} {kind : PassKind}
    {w : World (MemoryStore × MemoryStore)} (hstores : w.stores = (src, dst)) :
    Sound t src dst pivots (w.audit.map AuditRecord.untimed)
      (.reconciling config kind pivots now, w) := by
  have hworkers : ∀ x, x ∈ (Pass.reconciling config kind pivots now).pool.workers → x = .idle := by
    intro x hx
    exact List.eq_of_mem_replicate hx
  constructor
  · refine ⟨⟨rfl, ?_, ?_, fun hstopped => ?_, fun _ => rfl, ?_⟩, rfl, Or.inl rfl, ?_⟩
    · simp [reconciling, Pool.new]
    · simp [reconciling, Pool.new, List.replicate_eq_nil_iff]
    · simpa using hworkers _ hstopped
    · simp [reconciling, Pool.new]
    · simp [reconciling, Pool.new]
  · refine ⟨[], [], ?_, ?_, rfl, ?_, ?_, ?_, ?_, ?_, ?_⟩
    · have hidle : (Pass.reconciling config kind pivots now).pool.workers.flatMap
          Worker.unsettled = [] := by
        refine List.flatMap_eq_nil_iff.2 fun x hx => ?_
        rw [hworkers x hx]
        rfl
      rw [unsettled, hidle]
      exact List.Perm.refl _
    · simp [reconciling, Pool.new, Worker.marks, Task.marks]
    · simp
    · simp [reconciling, Pool.new]
    · intro j hj
      simpa using hworkers _ hj
    · rw [hstores]
    · exact ⟨dst.entries, dst.applied, by rw [hstores]⟩
    · rw [hstores]
      exact Task.Enacted.nil

/-! ## Turns under the invariant -/

/-- The units of an accounted pass meet the stores as they depend on them. -/
lemma Accounted.stride {settled : List Pivot} {marks : List Mark} {p : Pass}
    {w : World (MemoryStore × MemoryStore)} {j : Job} (hsetting : Undisturbed t src dst pivots)
    (h : Accounted t src dst pivots earlier settled marks (p, w))
    (hrunning : .running j ∈ p.pool.workers) :
    t.Stride src dst j p.ledger w (t.unitStep false now j p.ledger w) := by
  obtain ⟨entries, n, hdst⟩ := h.destination
  have henacted := h.enacted
  have hrecords : w.stores.2.records = entries.map (·.entity) := by rw [hdst]; rfl
  rw [hrecords] at henacted
  have hmutual : j.phase ≠ .ended → j.pivot ∈ pivots ∧
      ∀ q ∈ settled, t.Independent src dst j.pivot q ∧ t.Independent src dst q j.pivot := by
    intro hopen
    have hmem : j.pivot ∈ p.unsettled := by
      refine List.mem_append_left _ (List.mem_flatMap.2 ⟨_, hrunning, ?_⟩)
      simp [Worker.unsettled, Job.unsettled, hopen]
    refine ⟨h.split.mem_iff.1 (List.mem_append_right _ hmem), fun q hq => ?_⟩
    have hpairwise : (settled ++ p.unsettled).Pairwise fun p q =>
        t.Independent src dst p q ∧ t.Independent src dst q p :=
      (h.split.pairwise_iff fun h => ⟨h.2, h.1⟩).2 hsetting.independent
    exact ((List.pairwise_append.1 hpairwise).2.2 q hq _ hmem).symm
  by_cases hopen : j.phase = .ended
  · have hstep : t.unitStep false now j p.ledger w = (.ended false, p.ledger, w) := by
      simp [Task.unitStep, hopen, show p.ledger = _ from h.ledger, Ledger.new]
    rw [hstep]
    exact .leave hopen
  · obtain ⟨hpivot, hind⟩ := hmutual hopen
    have hledger : p.ledger = _ := h.ledger
    refine Task.stride hsetting.joins (h.informed j hrunning) (by rw [hledger]; rfl)
      (by rw [hledger]; rfl) h.source hsetting.source ?_ (hsetting.loss _ hpivot) (fun _ => ?_)
      (fun _ c hchange => ?_)
    · rw [hdst]
      exact hsetting.destination
    · rw [hdst]
      exact henacted.find?_eq hsetting.keyed fun q hq => (hind q hq).2
    · rw [hrecords]
      exact henacted.agree hsetting.keyed hind hchange

/-- What a turn can be under the invariant. -/
inductive Move (t : Task (MemoryStore × MemoryStore)) (src dst : MemoryStore) (p : Pass)
    (w : World (MemoryStore × MemoryStore)) : Pass × World (MemoryStore × MemoryStore) → Prop
  | submit {pivot : Pivot} {rest : List Pivot} (hpending : p.pending = pivot :: rest)
      (hstage : p.pool.stage = .accepting) :
      Move t src dst p w ({ p with
        pending := rest,
        pool := { p.pool with queue := p.pool.queue ++ [.new pivot] } }, w)
  | await {deadline : Option Nat} (hpending : p.pending = [])
      (hstage : p.pool.stage = .accepting)
      (hlate : ∀ d, deadline = some d → t.config.timeLimit ≤ d) :
      Move t src dst p w ({ p with pool := { p.pool with stage := .awaiting deadline } }, w)
  | stop {k : Nat} (hidle : p.pool.workers[k]? = some .idle) (hqueue : p.pool.queue = [])
      (hstage : p.pool.stage ≠ .accepting) :
      Move t src dst p w ({ p with pool := p.pool.setWorker k .stopped }, w)
  | take {k : Nat} {j : Job} {rest : List Job} (hidle : p.pool.workers[k]? = some .idle)
      (hqueue : p.pool.queue = j :: rest) :
      Move t src dst p w
        ({ p with pool := { p.pool with queue := rest }.setWorker k (.running j) }, w)
  | unit {k : Nat} {j j' : Job} {l' : Ledger} {w' : World (MemoryStore × MemoryStore)}
      (hrunning : p.pool.workers[k]? = some (.running j))
      (hstride : t.Stride src dst j p.ledger w (.running j', l', w')) :
      Move t src dst p w
        ({ p with pool := p.pool.setWorker k (.running j'), ledger := l' }, w')
  | leave {k : Nat} {j : Job} (hrunning : p.pool.workers[k]? = some (.running j))
      (hended : j.phase = .ended) :
      Move t src dst p w ({ p with pool := p.pool.setWorker k .idle }, w)
  | close {deadline : Option Nat} (hstage : p.pool.stage = .awaiting deadline)
      (hstill : p.pool.isStill = true) :
      Move t src dst p w ({ p with pool := { p.pool with stage := .ended true } }, w)

lemma Orderly.submit {limit : Nat} {p : Pass} (h : p.Orderly limit) {pivot : Pivot}
    {rest : List Pivot} (hpending : p.pending = pivot :: rest) :
    p.pool.submit (.new pivot) = .ok { p.pool with queue := p.pool.queue ++ [.new pivot] } := by
  have hstage := h.pending (by simp [hpending])
  have hstill := h.toManned.isStill_eq_false hstage
  have hroom : ¬p.pool.capacity ≤ p.pool.queue.length := by
    have := h.room
    simp only [hpending, List.length_cons] at this
    omega
  simp [Pool.submit, h.goes, hstage, hstill, hroom]

lemma move_of_lead {p p' : Pass} {w : World (MemoryStore × MemoryStore)}
    (h : p.Orderly t.config.timeLimit) (hopen : p.ledger.cancelled = false)
    (hlead : p.lead? t.config now = some p') : Move t src dst p w (p', w) := by
  unfold lead? at hlead
  split at hlead
  next pivot rest hpending =>
    simp only [hopen, Bool.false_eq_true, if_false, h.submit hpending, Option.some.injEq] at hlead
    subst hlead
    exact .submit hpending (h.pending (by simp [hpending]))
  next hpending =>
    split at hlead
    next hstage =>
      simp only [Pool.await, hstage, Option.some.injEq] at hlead
      subst hlead
      refine .await hpending hstage fun d hd => ?_
      simp only [limit, h.reconciles, Bool.false_eq_true, if_false, Option.map_some,
        Option.some.injEq] at hd
      omega
    · simp at hlead

/-- The pool only closes: before its deadline it aborts nothing. -/
lemma move_of_watch {p : Pass} {pool : Pool Job} {w : World (MemoryStore × MemoryStore)}
    (h : p.Orderly t.config.timeLimit) (hnow : InTime now p)
    (hwatch : p.pool.watch? now = some pool) : Move t src dst p w ({ p with pool := pool }, w) := by
  unfold Pool.watch? at hwatch
  split at hwatch
  next deadline hstage =>
    split at hwatch
    next hstill =>
      obtain rfl := Option.some.inj hwatch
      exact .close hstage hstill
    · split at hwatch
      next hdue =>
        cases deadline with
        | none => simp [isDue] at hdue
        | some d =>
          have hlt := hnow d hstage
          simp only [isDue, decide_eq_true_eq] at hdue
          omega
      · simp at hwatch
  next deadline hstage =>
    rcases h.stage with hs | ⟨d, hs⟩ | hs <;> simp [hs] at hstage
  · simp at hwatch

/-- A unit that ends leaves its worker idle; as the stores answer it, it does not crash. -/
lemma Orderly.move_of_worker {p : Pass} {k : Nat} {pool : Pool Job} {l' : Ledger}
    {w w' : World (MemoryStore × MemoryStore)} (h : p.Orderly t.config.timeLimit)
    (hstride : ∀ j, p.pool.workers[k]? = some (.running j) →
      t.Stride src dst j p.ledger w (t.unitStep false now j p.ledger w))
    (hpool : Pool.turn? (t.units false) now k p.pool (p.ledger, w) = some (pool, l', w')) :
    Move t src dst p w ({ p with pool := pool, ledger := l' }, w') := by
  cases Pool.turn?_cases hpool with
  | stop hidle hstop =>
    rcases hstop with hcancelled | ⟨hqueue, hstage⟩
    · simp [h.goes] at hcancelled
    · exact .stop hidle hqueue hstage
  | take hidle _ hqueue => exact .take hidle hqueue
  | go hrunning hstep =>
    have hthis := hstride _ hrunning
    rw [show t.unitStep false now _ p.ledger w = _ from hstep] at hthis
    exact .unit hrunning hthis
  | finish hrunning hstep =>
    have hthis := hstride _ hrunning
    rw [show t.unitStep false now _ p.ledger w = _ from hstep] at hthis
    cases hthis with
    | leave hended => exact .leave hrunning hended
  | crash hrunning hstep =>
    have hthis := hstride _ hrunning
    rw [show t.unitStep false now _ p.ledger w = _ from hstep] at hthis
    cases hthis

theorem move_of_turn {p : Pass} {w : World (MemoryStore × MemoryStore)}
    {y : Pass × World (MemoryStore × MemoryStore)} (hsetting : Undisturbed t src dst pivots)
    (h : Sound t src dst pivots earlier (p, w)) (hnow : InTime now p)
    (hturn : Turn t now (p, w) y) :
    Move t src dst p w y := by
  obtain ⟨horderly, settled, marks, haccounted⟩ := h
  have horderly : p.Orderly t.config.timeLimit := horderly
  have hopen : p.ledger.cancelled = false := by
    rw [show p.ledger = _ from haccounted.ledger]
    rfl
  cases hturn with
  | lead hlead => exact move_of_lead horderly hopen hlead
  | watch hwatch => exact move_of_watch horderly hnow hwatch
  | worker k hworker =>
    obtain ⟨⟨pool, ledger, w'⟩, hpool, heq⟩ := Option.map_eq_some_iff.1 hworker
    simp only [Prod.mk.injEq] at heq
    obtain ⟨rfl, rfl⟩ := heq
    rw [horderly.reconciles] at hpool
    exact horderly.move_of_worker
      (fun j hj => haccounted.stride hsetting (List.mem_of_getElem? hj)) hpool

/-! ## What a turn keeps -/

lemma Orderly.move {p : Pass} {w : World (MemoryStore × MemoryStore)}
    {y : Pass × World (MemoryStore × MemoryStore)} (h : p.Orderly t.config.timeLimit)
    (hmove : Move t src dst p w y) : y.1.Orderly t.config.timeLimit := by
  have hmanned := h.toManned
  cases hmove with
  | submit hpending hstage =>
    exact ⟨hmanned.submit hpending hstage, h.reconciles, h.stage, h.late⟩
  | @await deadline hpending hstage hlate =>
    exact ⟨hmanned.await hpending hstage deadline, h.reconciles, Or.inr (Or.inl ⟨_, rfl⟩),
      fun d hd => hlate d (by simpa using hd)⟩
  | stop hidle hqueue hstage =>
    exact ⟨hmanned.setWorker hidle rfl p.pool.queue p.ledger le_rfl fun _ => ⟨hqueue, hstage⟩,
      h.reconciles, h.stage, h.late⟩
  | take hidle hqueue =>
    exact ⟨hmanned.setWorker hidle rfl _ p.ledger (by simp [hqueue]) (by simp), h.reconciles,
      h.stage, h.late⟩
  | unit hrunning _ =>
    exact ⟨hmanned.setWorker hrunning rfl p.pool.queue _ le_rfl (by simp), h.reconciles, h.stage,
      h.late⟩
  | leave hrunning _ =>
    exact ⟨hmanned.setWorker hrunning rfl p.pool.queue p.ledger le_rfl (by simp), h.reconciles,
      h.stage, h.late⟩
  | close hstage hstill =>
    exact ⟨hmanned.close hstage hstill, h.reconciles, Or.inr (Or.inr rfl), by simp⟩

/-- Adding the marks of a step to the books. -/
lemma audit_of_adds {new marks : List Mark} {l l' : Ledger}
    {w w' : World (MemoryStore × MemoryStore)} (hadds : t.Adds new l w l' w')
    (haudit : w.audit.map AuditRecord.untimed =
      earlier ++ marks.filterMap (Mark.record? t.config.name)) :
    w'.audit.map AuditRecord.untimed =
      earlier ++ (marks ++ new).filterMap (Mark.record? t.config.name) := by
  rw [hadds.audit, haudit, List.filterMap_append, List.append_assoc]

lemma ledger_of_adds {new marks : List Mark} {l l' : Ledger}
    {w w' : World (MemoryStore × MemoryStore)} (hadds : t.Adds new l w l' w')
    (hledger : l = { Ledger.new none with counters := marks.foldl Mark.count .zero }) :
    l' = { Ledger.new none with counters := (marks ++ new).foldl Mark.count .zero } := by
  rw [hadds.ledger, hledger, List.foldl_append]

variable {settled : List Pivot} {marks : List Mark} {p : Pass} {k : Nat} {x y : Worker Job}
  {w w' : World (MemoryStore × MemoryStore)} {l' : Ledger} {new : List Mark}

/-- A worker takes up something else of the same pivot. -/
lemma Accounted.exchange (h : Accounted t src dst pivots earlier settled marks (p, w))
    (hx : p.pool.workers[k]? = some x) (hunsettled : y.unsettled = x.unsettled)
    (hmarks : y.marks = x.marks ++ new) (hy : ∀ j, y = .running j → t.Informed src dst j)
    (hstores : w'.stores = w.stores) (hadds : t.Adds new p.ledger w l' w') :
    Accounted t src dst pivots earlier settled (marks ++ new)
      ({ p with pool := p.pool.setWorker k y, ledger := l' }, w') := by
  obtain ⟨rest, hbefore, hafter⟩ := perm_flatMap_set hx Worker.unsettled
  obtain ⟨rest', hbefore', hafter'⟩ := perm_flatMap_set hx Worker.marks
  refine ⟨?_, ?_, ledger_of_adds hadds h.ledger, audit_of_adds hadds h.audit, h.queued,
    forall_running_set h.informed hy, ?_, ?_, ?_⟩
  · refine List.Perm.trans ?_ h.split
    have hsame : ((p.pool.workers.set k y).flatMap Worker.unsettled).Perm
        (p.pool.workers.flatMap Worker.unsettled) := by
      refine (hafter y).trans ?_
      rw [hunsettled]
      exact hbefore.symm
    exact (hsame.append_right _).append_left _
  · refine List.perm_iff_count.2 fun m => ?_
    have h₁ := h.marked.count_eq m
    have h₂ := hbefore'.count_eq m
    have h₃ := (hafter' y).count_eq m
    simp only [List.count_append, hmarks, Pool.setWorker] at h₁ h₂ h₃ ⊢
    omega
  · rw [hstores]
    exact h.source
  · rw [hstores]
    exact h.destination
  · rw [hstores]
    exact h.enacted

/-- A worker takes a unit from the queue. -/
lemma Accounted.take {j : Job} {queue : List Job}
    (h : Accounted t src dst pivots earlier settled marks (p, w))
    (hidle : p.pool.workers[k]? = some .idle) (hqueue : p.pool.queue = j :: queue) :
    Accounted t src dst pivots earlier settled marks
      ({ p with pool := { p.pool with queue := queue }.setWorker k (.running j) }, w) := by
  have hnew : j = .new j.pivot := h.queued j (by simp [hqueue])
  obtain ⟨rest, hbefore, hafter⟩ := perm_flatMap_set hidle Worker.unsettled
  obtain ⟨rest', hbefore', hafter'⟩ := perm_flatMap_set hidle Worker.marks
  have hidle' : Worker.idle.unsettled = [] := rfl
  have hmarks : (Worker.running j).marks = Worker.idle.marks := by
    rw [hnew]
    rfl
  have hunsettled : (Worker.running j).unsettled = [j.pivot] := by
    rw [hnew]
    rfl
  refine ⟨?_, ?_, h.ledger, h.audit, ?_, forall_running_set h.informed ?_, h.source,
    h.destination, h.enacted⟩
  · refine List.perm_iff_count.2 fun q => ?_
    have h₁ := h.split.count_eq q
    have h₂ := hbefore.count_eq q
    have h₃ := (hafter (.running j)).count_eq q
    simp only [unsettled, hqueue, List.map_cons, List.count_append, List.count_cons,
      hidle', List.count_nil, hunsettled, Pool.setWorker] at h₁ h₂ h₃ ⊢
    omega
  · have hsame : ((p.pool.workers.set k (.running j)).flatMap Worker.marks).Perm
        (p.pool.workers.flatMap Worker.marks) := by
      refine (hafter' (.running j)).trans ?_
      rw [hmarks]
      exact hbefore'.symm
    exact h.marked.trans (hsame.symm.append_left _)
  · intro i hi
    exact h.queued i (by rw [hqueue]; exact List.mem_cons_of_mem _ hi)
  · intro i hi
    obtain rfl := Worker.running.inj hi
    rw [hnew]
    trivial

/-- What the stores are after a unit has met its fate. -/
lemma stores_of_lands {q : Pivot} {stores stores' : MemoryStore × MemoryStore}
    (hkeyed : MemoryStore.Keyed dst.records)
    (hind : ∀ q' ∈ settled, t.Independent src dst q q' ∧ t.Independent src dst q' q)
    (hdestination : ∃ entries n, stores.2 = { dst with entries := entries, applied := n })
    (henacted : t.Enacted src dst settled stores.2.records)
    (hlands : (t.fate src dst q).Lands stores stores') :
    stores'.1 = stores.1 ∧
      (∃ entries n, stores'.2 = { dst with entries := entries, applied := n }) ∧
      t.Enacted src dst (q :: settled) stores'.2.records := by
  cases hfate : t.fate src dst q with
  | applied c =>
    rw [hfate] at hlands
    obtain ⟨entries, rfl, henact⟩ := hlands
    obtain ⟨entries', n, hdst⟩ := hdestination
    refine ⟨rfl, ⟨entries, n + 1, by rw [hdst]⟩, ?_⟩
    exact henacted.settle hkeyed hind hfate henact
  | _ =>
    rw [hfate] at hlands
    rw [show stores' = stores from hlands]
    exact ⟨rfl, hdestination, henacted.pass (by simp [hfate])⟩

/-- A unit meets its fate. -/
lemma Accounted.settle {j j' : Job} (hsetting : Undisturbed t src dst pivots)
    (h : Accounted t src dst pivots earlier settled marks (p, w))
    (hrunning : p.pool.workers[k]? = some (.running j)) (hopen : j.phase ≠ .ended)
    (hended : j'.phase = .ended)
    (hmarks : (t.fate src dst j.pivot).marks j.pivot.id = j.marks ++ new)
    (hstores : (t.fate src dst j.pivot).Lands w.stores w'.stores)
    (hadds : t.Adds new p.ledger w l' w') :
    Accounted t src dst pivots earlier (j.pivot :: settled) (marks ++ new)
      ({ p with pool := p.pool.setWorker k (.running j'), ledger := l' }, w') := by
  obtain ⟨rest, hbefore, hafter⟩ := perm_flatMap_set hrunning Worker.unsettled
  obtain ⟨rest', hbefore', hafter'⟩ := perm_flatMap_set hrunning Worker.marks
  have hone : (Worker.running j).unsettled = [j.pivot] := by
    simp [Worker.unsettled, Job.unsettled, hopen]
  have hnone : (Worker.running j').unsettled = [] := by
    simp [Worker.unsettled, Job.unsettled, hended]
  have hnone' : (Worker.running j').marks = [] := by
    simp [Worker.marks, Job.marks, hended]
  have hgrown : (Worker.running j).marks = j.marks := rfl
  have hsplit : (j.pivot :: settled ++ Pass.unsettled
      { p with pool := p.pool.setWorker k (.running j'), ledger := l' }).Perm
      (settled ++ p.unsettled) := by
    refine List.perm_iff_count.2 fun q => ?_
    have h₂ := hbefore.count_eq q
    have h₃ := (hafter (.running j')).count_eq q
    simp only [unsettled, List.cons_append, List.count_append, List.count_cons, List.count_nil,
      hone, hnone, Pool.setWorker] at h₂ h₃ ⊢
    omega
  have hind : ∀ q ∈ settled, t.Independent src dst j.pivot q ∧ t.Independent src dst q j.pivot := by
    have hpairwise := ((hsplit.trans h.split).pairwise_iff fun h => ⟨h.2, h.1⟩).2
      hsetting.independent
    exact fun q hq => (List.pairwise_cons.1 hpairwise).1 q (List.mem_append_left _ hq)
  obtain ⟨hsource, hdestination, henacted⟩ :=
    stores_of_lands hsetting.keyed hind h.destination h.enacted hstores
  refine ⟨hsplit.trans h.split, ?_, ledger_of_adds hadds h.ledger, audit_of_adds hadds h.audit,
    h.queued, forall_running_set h.informed ?_, hsource.trans h.source, hdestination, henacted⟩
  · refine List.perm_iff_count.2 fun m => ?_
    have h₁ := h.marked.count_eq m
    have h₂ := hbefore'.count_eq m
    have h₃ := (hafter' (.running j')).count_eq m
    simp only [List.count_append, Task.marks_cons, hmarks, hgrown, hnone', List.count_nil,
      Pool.setWorker] at h₁ h₂ h₃ ⊢
    omega
  · intro i hi
    obtain rfl := Worker.running.inj hi
    simp [Task.Informed, hended]

lemma Accounted.move {z : Pass × World (MemoryStore × MemoryStore)}
    (hsetting : Undisturbed t src dst pivots)
    (h : Accounted t src dst pivots earlier settled marks (p, w))
    (hmove : Move t src dst p w z) :
    ∃ settled' marks', Accounted t src dst pivots earlier settled' marks' z := by
  cases hmove with
  | @submit pivot rest hpending hstage =>
    refine ⟨settled, marks, ?_, h.marked, h.ledger, h.audit, ?_, h.informed, h.source,
      h.destination, h.enacted⟩
    · have hsplit := h.split
      simp only [unsettled, hpending] at hsplit
      simpa [unsettled, Job.new] using hsplit
    · intro j hj
      rcases List.mem_append.1 hj with hj | hj
      · exact h.queued j hj
      · rw [List.mem_singleton.1 hj]
        rfl
  | await hpending hstage _ =>
    exact ⟨settled, marks, h.split, h.marked, h.ledger, h.audit, h.queued, h.informed, h.source,
      h.destination, h.enacted⟩
  | close hstage hstill =>
    exact ⟨settled, marks, h.split, h.marked, h.ledger, h.audit, h.queued, h.informed, h.source,
      h.destination, h.enacted⟩
  | stop hidle hqueue hstage =>
    exact ⟨_, _, h.exchange hidle rfl rfl (by simp) rfl (.nil rfl)⟩
  | leave hrunning hended =>
    refine ⟨_, _, h.exchange (y := .idle) hrunning ?_ ?_ (by simp) rfl (.nil rfl)⟩
    · simp [Worker.unsettled, Job.unsettled, hended]
    · simp [Worker.marks, Job.marks, hended]
  | take hidle hqueue => exact ⟨_, _, h.take hidle hqueue⟩
  | unit hrunning hstride =>
    cases hstride with
    | go new hpivot hopen hopen' _ hinformed hmarks hstores hadds =>
      refine ⟨_, _, h.exchange hrunning ?_ hmarks ?_ hstores hadds⟩
      · simp [Worker.unsettled, Job.unsettled, hopen, hopen', hpivot]
      · intro i hi
        obtain rfl := Worker.running.inj hi
        exact hinformed
    | settle new hopen hended _ hmarks hstores hadds =>
      exact ⟨_, _, h.settle hsetting hrunning hopen hended hmarks hstores hadds⟩

/-- A turn within the time limit keeps the invariant. -/
theorem Sound.turn {y z : Pass × World (MemoryStore × MemoryStore)}
    (hsetting : Undisturbed t src dst pivots) (h : Sound t src dst pivots earlier y)
    (hnow : InTime now y.1) (hturn : Turn t now y z) : Sound t src dst pivots earlier z := by
  have hmove := move_of_turn hsetting h hnow hturn
  obtain ⟨horderly, settled, marks, haccounted⟩ := h
  exact ⟨horderly.move hmove, haccounted.move hsetting hmove⟩

theorem Sound.run {y z : Pass × World (MemoryStore × MemoryStore)}
    (hsetting : Undisturbed t src dst pivots) (h : Sound t src dst pivots earlier y)
    (hrun : Run t InTime y z) : Sound t src dst pivots earlier z :=
  hrun.keeps h fun hy hnow hturn => hy.turn hsetting hnow hturn

/-! ## Runs end -/

/-- **Every run reaches its report**, unless the time limit is zero. -/
theorem Sound.exists_report {y : Pass × World (MemoryStore × MemoryStore)}
    (hsetting : Undisturbed t src dst pivots) (hlimit : 0 < t.config.timeLimit)
    (h : Sound t src dst pivots earlier y) :
    ∃ z, Run t InTime y z ∧ ∀ config now, (z.1.report? config now).isSome := by
  obtain ⟨z, hrun, hended⟩ := Pass.exists_report InTime
    (fun hy hnow hturn => Sound.turn hsetting hy hnow hturn)
    (fun hy => ⟨0, fun d hd => lt_of_lt_of_le hlimit (hy.orderly.late d hd)⟩) h
  refine ⟨z, hrun, fun config now => ?_⟩
  rw [report?, Option.isSome_map, hended]

/-! ## What a pass has done when it reports -/

/-- A pass has settled every pivot: its books are those of the fates, and the changes of the fates
have been carried out in the destination. -/
structure Concluded (t : Task (MemoryStore × MemoryStore)) (src dst : MemoryStore)
    (pivots : List Pivot) (earlier : List (String × String × Change × Option Suppression))
    (w : World (MemoryStore × MemoryStore)) (r : PassReport) : Prop where
  status : r.status = .completed
  counters : r.counters = (t.marks src dst pivots).foldl Mark.count .zero
  audit : (w.audit.map AuditRecord.untimed).Perm
    (earlier ++ (t.marks src dst pivots).filterMap (Mark.record? t.config.name))
  source : w.stores.1 = src
  destination : ∃ entries n, w.stores.2 = { dst with entries := entries, applied := n }
  enacted : t.Enacted src dst pivots w.stores.2.records

theorem Sound.concluded {config : TaskConfig} {r : PassReport}
    (h : Sound t src dst pivots earlier (p, w)) (hreport : p.report? config now = some r) :
    Concluded t src dst pivots earlier w r := by
  obtain ⟨horderly, settled, marks, haccounted⟩ := h
  have horderly : p.Orderly t.config.timeLimit := horderly
  have hledger : p.ledger = _ := haccounted.ledger
  obtain ⟨complete, houtcome, hr⟩ := Option.map_eq_some_iff.1 hreport
  have hended : p.pool.stage = .ended true := by
    rcases horderly.stage with hs | ⟨d, hs⟩ | hs
    · simp [Pool.outcome?, hs] at houtcome
    · simp [Pool.outcome?, hs] at houtcome
    · exact hs
  obtain rfl : true = complete := by simpa [Pool.outcome?, hended] using houtcome
  simp only [hledger, Ledger.new, Bool.not_false, Bool.and_true] at hr
  have hstopped : ∀ x ∈ p.pool.workers, x = .stopped := by
    intro x hx
    have hx' := List.all_eq_true.1 (horderly.still hended) x hx
    cases x with
    | stopped => rfl
    | idle => simp [Worker.isStopped] at hx'
    | running j => simp [Worker.isStopped] at hx'
  have hpending : p.pending = [] := by
    by_contra hne
    have haccepting := horderly.pending hne
    simp [hended] at haccepting
  have hqueue : p.pool.queue = [] := by
    obtain ⟨x, hx⟩ := List.exists_mem_of_ne_nil _ horderly.staffed
    rw [hstopped x hx] at hx
    exact (horderly.stopped hx).1
  have hnone : p.unsettled = [] := by
    have hworkers : p.pool.workers.flatMap Worker.unsettled = [] := by
      refine List.flatMap_eq_nil_iff.2 fun x hx => ?_
      rw [hstopped x hx]
      rfl
    simp [unsettled, hworkers, hqueue, hpending]
  have hnone' : p.pool.workers.flatMap Worker.marks = [] := by
    refine List.flatMap_eq_nil_iff.2 fun x hx => ?_
    rw [hstopped x hx]
    rfl
  have hsplit : settled.Perm pivots := by
    have := haccounted.split
    simpa [hnone] using this
  have hmarked : marks.Perm (t.marks src dst pivots) := by
    have := haccounted.marked
    rw [hnone', List.append_nil] at this
    exact this.trans (t.marks_of_perm src dst hsplit)
  refine ⟨by rw [← hr], ?_, ?_, haccounted.source, haccounted.destination,
    haccounted.enacted.perm hsplit⟩
  · rw [← hr]
    exact Mark.foldl_count_of_perm hmarked _
  · rw [haccounted.audit]
    exact (hmarked.filterMap _).append_left _

end Pass

end StoreSync
