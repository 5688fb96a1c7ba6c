import Mathlib.Tactic.Lemma
import StoreSync.Pool.Sleeper
import StoreSync.Proofs.Reports

/-!
# What a pool does with its units

Units are submitted to a pool and taken from its queue, they end or have the pool cancelled, the
pool is aborted, awaited, and awaited again, and time limits and graces run out: all of that in any
order (`Pool.Move`), with any units.  `Pool.History` is such a sequence of moves with what came of
it, the notices, newest last.

A unit has no name in a pool.  The first start that is noticed is that of the first unit that was
accepted, the second that of the second, and so on, so that a unit is known by its place among the
accepted ones.

* `Pool.act_of_move?` is the inversion of a move, from which all else follows;
* `Pool.Tracks` says what the notices so far tell about the pool, and every move keeps it;
* `Pool.Stands` does so for the pool itself: whether it is cancelled, and who has stopped;
* `Pool.History.exists_act` takes a history apart at one of its notices, so that a law about a
  notice and what came before it is one about a single move;
* `Pool.safe_of_history` collects what is certain of a pool (`Pool.Safe`).

A pool that is awaited again after its time was up has nobody left to await, and is complete at
once (`Pool.Safe.again`).  This is the one case in which a complete pool may have units running
(`Pool.safe_of_overslept`).
-/

namespace StoreSync

/-- What happens to a pool.  A unit is noticed in the state in which it is queued. -/
inductive Notice (υ : Type) where
  | accepted (u : υ)
  | refused (e : SyncError)
  | aborted
  /-- A worker takes a unit and starts it. -/
  | started (worker : Nat) (u : υ)
  /-- The unit of a worker is through; it may have its pool cancelled. -/
  | finished (worker : Nat) (cancel : Bool)
  /-- The unit of a worker is lost, and the worker with it. -/
  | lost (worker : Nat)
  /-- The time limit has come. -/
  | expired
  /-- A wait has ended. -/
  | answered (complete : Bool)
deriving DecidableEq

namespace Notice

variable {υ : Type}

def accepted? : Notice υ → Option υ
  | .accepted u => some u
  | _ => none

def started? : Notice υ → Option υ
  | .started _ u => some u
  | _ => none

/-- The worker whose unit is over. -/
def endOf? : Notice υ → Option Nat
  | .finished k _ | .lost k => some k
  | _ => none

/-- Whether the pool is cancelled by it. -/
def cancels : Notice υ → Bool
  | .aborted | .finished _ true | .expired => true
  | _ => false

end Notice

namespace Worker

variable {υ : Type}

@[simp] lemma unit?_running (u : υ) : (running u).unit? = some u := rfl

@[simp] lemma unit?_idle : (idle : Worker υ).unit? = none := rfl

@[simp] lemma unit?_stopped : (stopped : Worker υ).unit? = none := rfl

end Worker

namespace Pool

variable {υ σ : Type}

/-! ## Moves -/

/-- What can be done next with a pool. -/
inductive Move (υ σ : Type) where
  | submit (u : υ)
  | abort
  | await (limit : Option Nat)
  /-- The turn of whoever awaits the pool. -/
  | watch
  /-- The turn of a worker. -/
  | work (worker : Nat)
  /-- Others change what the units work on. -/
  | meddle (s : σ)

/-- What comes of the turn of a worker. -/
def noticesOf (b : Behaviour υ σ) (now k : Nat) (p : Pool υ) (s : σ) : List (Notice υ) :=
  match p.workers[k]? with
  | some .idle => if p.cancelled then [] else (p.queue.head?.map (.started k)).toList
  | some (.running u) =>
    match (b.step now u s).1 with
    | .running _ => []
    | .ended cancel => [.finished k cancel]
    | .crashed => [.lost k]
  | _ => []

/-- A move at a time, with what comes of it. -/
def move? (b : Behaviour υ σ) (now : Nat) (p : Pool υ) (s : σ) :
    Move υ σ → Option (List (Notice υ) × Pool υ × σ)
  | .submit u =>
    match p.submit u with
    | .ok p' => some ([.accepted u], p', s)
    | .error e => some ([.refused e], p, s)
  | .abort => some ([.aborted], p.cancel, s)
  | .await limit =>
    some (if p.outcome?.isSome then [.answered true] else [], p.await limit now, s)
  | .watch => (p.watch? now).map fun p' => ([(p'.outcome?.map .answered).getD .expired], p', s)
  | .work k => (p.turn? b now k s).map fun x => (p.noticesOf b now k s, x)
  | .meddle s' => some ([], p, s')

/-- Any number of moves, each at any time, with what has come of them. -/
inductive History (b : Behaviour υ σ) (x : Pool υ × σ) : List (Notice υ) → Pool υ × σ → Prop
  | refl : History b x [] x
  | step {log notices : List (Notice υ)} {y z : Pool υ × σ} {now : Nat} {m : Move υ σ}
      (h : History b x log y) (hmove : y.1.move? b now y.2 m = some (notices, z)) :
      History b x (log ++ notices) z

lemma History.trans {b : Behaviour υ σ} {x y z : Pool υ × σ} {log log' : List (Notice υ)}
    (h : History b x log y) (h' : History b y log' z) : History b x (log ++ log') z := by
  induction h' with
  | refl => simpa using h
  | step _ hmove ih =>
    rw [← List.append_assoc]
    exact ih.step hmove

/-- The turn that a pool takes in virtual time is a move. -/
lemma exists_move_of_step? {b : Behaviour υ σ} {now : Nat} {p : Pool υ} {s : σ}
    {z : Pool υ × σ} (h : p.step? b now s = some z) :
    ∃ m notices, p.move? b now s m = some (notices, z) := by
  unfold step? at h
  split at h
  next p' hwatch =>
    obtain rfl := Option.some.inj h
    exact ⟨.watch, _, by simp only [move?, hwatch]; rfl⟩
  next =>
    split at h
    next k _ => exact ⟨.work k, _, by simp only [move?, h]; rfl⟩
    next => simp at h

/-! ## What a move can be -/

/-- The inversion of a move, for any units. -/
inductive Act (p : Pool υ) : List (Notice υ) → Pool υ → Prop
  | accept {u : υ} (hgoes : p.cancelled = false) (hstage : p.stage = .accepting) :
      Act p [.accepted u] { p with queue := p.queue ++ [u] }
  | refuse {u : υ} {e : SyncError} (h : p.submit u = .error e) : Act p [.refused e] p
  | abort : Act p [.aborted] p.cancel
  | await {deadline : Option Nat} (hnew : p.outcome? = none) :
      Act p [] { p with stage := .awaiting deadline }
  /-- A pool that has been awaited to the end is awaited again. -/
  | again (hended : p.outcome?.isSome = true) :
      Act p [.answered true] { p with stage := .ended true }
  | close {deadline : Option Nat} (hstage : p.stage = .awaiting deadline)
      (hstill : p.isStill = true) : Act p [.answered true] { p with stage := .ended true }
  | expire {deadline : Option Nat} {until' : Nat} (hstage : p.stage = .awaiting deadline) :
      Act p [.expired] { p with cancelled := true, stage := .draining until' }
  | giveUp {deadline : Nat} (hstage : p.stage = .draining deadline) :
      Act p [.answered false] { p with stage := .ended false }
  | stop {k : Nat} (hidle : p.workers[k]? = some .idle)
      (hstop : p.cancelled = true ∨ p.queue = [] ∧ p.stage ≠ .accepting) :
      Act p [] (p.setWorker k .stopped)
  | take {k : Nat} {u : υ} {rest : List υ} (hidle : p.workers[k]? = some .idle)
      (hgoes : p.cancelled = false) (hqueue : p.queue = u :: rest) :
      Act p [.started k u] ({ p with queue := rest }.setWorker k (.running u))
  | go {k : Nat} {u u' : υ} (hrunning : p.workers[k]? = some (.running u)) :
      Act p [] (p.setWorker k (.running u'))
  | finish {k : Nat} {u : υ} {cancel : Bool} (hrunning : p.workers[k]? = some (.running u)) :
      Act p [.finished k cancel] ((if cancel then p.cancel else p).setWorker k .idle)
  | crash {k : Nat} {u : υ} (hrunning : p.workers[k]? = some (.running u)) :
      Act p [.lost k] (p.setWorker k .stopped)
  | meddle : Act p [] p

variable {b : Behaviour υ σ} {now : Nat} {p p' : Pool υ} {s s' : σ} {notices : List (Notice υ)}

lemma act_of_watch? (h : p.watch? now = some p') :
    Act p [(p'.outcome?.map .answered).getD .expired] p' := by
  unfold watch? at h
  split at h
  next deadline hstage =>
    split at h
    next hstill =>
      obtain rfl := Option.some.inj h
      exact .close hstage hstill
    · split at h
      · obtain rfl := Option.some.inj h
        exact .expire hstage
      · simp at h
  next deadline hstage =>
    split at h
    · obtain rfl := Option.some.inj h
      exact .giveUp hstage
    · simp at h
  · simp at h

lemma act_of_turn? {k : Nat} (h : p.turn? b now k s = some (p', s')) :
    Act p (p.noticesOf b now k s) p' := by
  cases turn?_cases h with
  | stop hidle hstop =>
    have hnone : p.noticesOf b now k s = [] := by
      rcases hstop with hcancelled | ⟨hqueue, -⟩
      · simp [noticesOf, hidle, hcancelled]
      · simp [noticesOf, hidle, hqueue]
    rw [hnone]
    exact .stop hidle hstop
  | @take u rest hidle hgoes hqueue =>
    have hnotices : p.noticesOf b now k s = [.started k u] := by
      simp [noticesOf, hidle, hgoes, hqueue]
    rw [hnotices]
    exact .take hidle hgoes hqueue
  | go hrunning hstep =>
    simp only [noticesOf, hrunning, hstep]
    exact .go hrunning
  | finish hrunning hstep =>
    simp only [noticesOf, hrunning, hstep]
    exact .finish hrunning
  | crash hrunning hstep =>
    simp only [noticesOf, hrunning, hstep]
    exact .crash hrunning

/-- What a move can be. -/
theorem act_of_move? {m : Move υ σ} (h : p.move? b now s m = some (notices, p', s')) :
    Act p notices p' := by
  cases m with
  | submit u =>
    simp only [move?] at h
    split at h
    next queued hsubmit =>
      obtain ⟨rfl, rfl, -⟩ := by simpa using h
      unfold Pool.submit at hsubmit
      split at hsubmit
      · simp at hsubmit
      next hgoes =>
        split at hsubmit
        · simp at hsubmit
        next hopen =>
          split at hsubmit
          · simp at hsubmit
          · obtain rfl := Except.ok.inj hsubmit
            have hstage : p.stage = .accepting := by
              by_contra hstage
              exact hopen (Or.inl hstage)
            exact .accept (Bool.not_eq_true _ ▸ hgoes) hstage
    next e hrefused =>
      obtain ⟨rfl, rfl, -⟩ := by simpa using h
      exact .refuse hrefused
  | abort =>
    obtain ⟨rfl, rfl, -⟩ := by simpa [move?] using h
    exact .abort
  | await limit =>
    simp only [move?, Option.some.injEq, Prod.mk.injEq] at h
    obtain ⟨rfl, rfl, -⟩ := h
    cases hstage : p.stage with
    | ended complete =>
      simp only [outcome?, await, hstage]
      exact .again (by simp [outcome?, hstage])
    | _ =>
      simp only [outcome?, await, hstage]
      exact .await (by simp [outcome?, hstage])
  | watch =>
    obtain ⟨p'', hwatch, heq⟩ := Option.map_eq_some_iff.1 h
    simp only [Prod.mk.injEq] at heq
    obtain ⟨rfl, rfl, -⟩ := heq
    exact act_of_watch? hwatch
  | work k =>
    obtain ⟨x, hturn, heq⟩ := Option.map_eq_some_iff.1 h
    simp only [Prod.mk.injEq] at heq
    obtain ⟨rfl, rfl⟩ := heq
    exact act_of_turn? hturn
  | meddle t =>
    obtain ⟨rfl, rfl, -⟩ := by simpa [move?] using h
    exact .meddle

/-! ## What the notices tell -/

/-- The units that were accepted, in this order. -/
def accepted (log : List (Notice υ)) : List υ := log.filterMap Notice.accepted?

/-- The units that were started, in this order. -/
def begun (log : List (Notice υ)) : List υ := log.filterMap Notice.started?

/-- The number of units that are over. -/
def finished (log : List (Notice υ)) : Nat := log.countP (·.endOf?.isSome)

/-- Every unit that was started has finished: its worker has finished a unit since. -/
def AllFinished (log : List (Notice υ)) : Prop :=
  ∀ earlier k u later, log = earlier ++ .started k u :: later →
    ∃ cancel, .finished k cancel ∈ later

/-- A worker has a unit. -/
def AtWork (workers : List (Worker υ)) (k : Nat) : Prop :=
  ∃ u, workers[k]? = some (Worker.running u)

/-- A unit that was started is over, or its worker still has it. -/
def Held (log : List (Notice υ)) (workers : List (Worker υ)) : Prop :=
  ∀ earlier k u later, log = earlier ++ .started k u :: later →
    (∃ n ∈ later, n.endOf? = some k) ∨ AtWork workers k

variable {log : List (Notice υ)} {n : Notice υ} {workers workers' : List (Worker υ)} {k : Nat}
  {x y : Worker υ} {q : Pool υ}

lemma accepted_concat (log : List (Notice υ)) (n : Notice υ) :
    accepted (log ++ [n]) = accepted log ++ n.accepted?.toList := by
  cases hn : n.accepted? <;> simp [accepted, hn]

lemma begun_concat (log : List (Notice υ)) (n : Notice υ) :
    begun (log ++ [n]) = begun log ++ n.started?.toList := by
  cases hn : n.started? <;> simp [begun, hn]

lemma finished_concat (log : List (Notice υ)) (n : Notice υ) :
    finished (log ++ [n]) = finished log + n.endOf?.isSome.toNat := by
  cases hn : n.endOf? <;> simp [finished, hn]

lemma Held.keep (h : Held log workers) (hkeep : ∀ k, AtWork workers k → AtWork workers' k) :
    Held log workers' :=
  fun earlier k u later hlog => (h earlier k u later hlog).imp_right (hkeep k)

lemma Held.concat (h : Held log workers) (hnew : ∀ k u, n = .started k u → AtWork workers' k)
    (hkeep : ∀ k, AtWork workers k → n.endOf? = some k ∨ AtWork workers' k) :
    Held (log ++ [n]) workers' := by
  intro earlier k u later hlog
  rcases split_concat hlog.symm with ⟨rfl, hstarted, rfl⟩ | ⟨later', rfl, hbefore⟩
  · exact Or.inr (hnew k u hstarted.symm)
  · rcases h earlier k u later' hbefore.symm with ⟨m, hm, hover⟩ | hwork
    · exact Or.inl ⟨m, List.mem_append_left _ hm, hover⟩
    · exact (hkeep k hwork).imp (fun hover => ⟨n, by simp, hover⟩) id

lemma atWork_set_self {u : υ} (hx : workers[k]? = some x) :
    AtWork (workers.set k (.running u)) k :=
  ⟨u, by simp [(List.getElem?_eq_some_iff.1 hx).1]⟩

lemma AtWork.set_ne {j : Nat} (h : AtWork workers j) (hne : k ≠ j) (y : Worker υ) :
    AtWork (workers.set k y) j := by
  obtain ⟨u, hu⟩ := h
  exact ⟨u, by rwa [List.getElem?_set_ne hne]⟩

/-- What the notices tell about the units: those that wait are the accepted ones that were not
started, and the workers have those that were started and are not over. -/
structure Tracks (log : List (Notice υ)) (p : Pool υ) : Prop where
  queued : accepted log = begun log ++ p.queue
  busy : (begun log).length = finished log + p.workers.countP (·.unit?.isSome)
  held : Held log p.workers

/-- Something is noticed that concerns neither the units nor the workers. -/
lemma Tracks.remark (h : Tracks log p) (haccepted : n.accepted? = none)
    (hstarted : n.started? = none) (hend : n.endOf? = none) (hqueue : q.queue = p.queue)
    (hworkers : q.workers = p.workers) : Tracks (log ++ [n]) q := by
  refine ⟨?_, ?_, ?_⟩
  · rw [accepted_concat, begun_concat, haccepted, hstarted, hqueue]
    simpa using h.queued
  · rw [begun_concat, finished_concat, hstarted, hend, hworkers]
    simpa using h.busy
  · rw [hworkers]
    refine h.held.concat (fun k u hn => ?_) fun k hwork => Or.inr hwork
    simp [hn, Notice.started?] at hstarted

/-- A worker takes up something else, and nothing is noticed. -/
lemma Tracks.exchange (h : Tracks log p) (hx : p.workers[k]? = some x)
    (hsame : x.unit?.isSome = y.unit?.isSome) : Tracks log (p.setWorker k y) := by
  have hcount := countP_set hx (·.unit?.isSome) y
  rw [hsame] at hcount
  refine ⟨h.queued, h.busy.trans (congrArg _ (Nat.add_right_cancel hcount).symm), ?_⟩
  refine h.held.keep fun j hwork => ?_
  by_cases hk : k = j
  · subst hk
    obtain ⟨u, hu⟩ := hwork
    obtain rfl := Option.some.inj (hx.symm.trans hu)
    obtain ⟨u', rfl⟩ : ∃ u', y = .running u' := by
      cases y <;> simp at hsame
      exact ⟨_, rfl⟩
    exact atWork_set_self hx
  · exact hwork.set_ne hk y

/-- The unit of a worker is over. -/
lemma Tracks.release (h : Tracks log p) {u : υ} (hx : p.workers[k]? = some (.running u))
    (hy : y.unit? = none) (haccepted : n.accepted? = none) (hstarted : n.started? = none)
    (hend : n.endOf? = some k) (hqueue : q.queue = p.queue)
    (hworkers : q.workers = p.workers.set k y) : Tracks (log ++ [n]) q := by
  have hcount : (p.workers.set k y).countP (·.unit?.isSome) + 1 =
      p.workers.countP (·.unit?.isSome) := by
    simpa [hy] using countP_set hx (·.unit?.isSome) y
  have hbusy := h.busy
  refine ⟨?_, ?_, ?_⟩
  · rw [accepted_concat, begun_concat, haccepted, hstarted, hqueue]
    simpa using h.queued
  · rw [begun_concat, finished_concat, hstarted, hend, hworkers]
    simp only [Option.toList_none, List.append_nil, Option.isSome_some, Bool.toNat_true]
    omega
  · rw [hworkers]
    refine h.held.concat (fun j v hn => ?_) fun j hwork => ?_
    · simp [hn, Notice.started?] at hstarted
    · by_cases hk : k = j
      · exact Or.inl (hk ▸ hend)
      · exact Or.inr (hwork.set_ne hk y)

/-- A worker takes the first unit of the queue. -/
lemma Tracks.take (h : Tracks log p) {u : υ} {rest : List υ} (hidle : p.workers[k]? = some .idle)
    (hqueue : p.queue = u :: rest) :
    Tracks (log ++ [.started k u]) ({ p with queue := rest }.setWorker k (.running u)) := by
  have hcount : (p.workers.set k (.running u)).countP (·.unit?.isSome) =
      p.workers.countP (·.unit?.isSome) + 1 := by
    simpa using countP_set hidle (·.unit?.isSome) (.running u)
  have hbusy := h.busy
  refine ⟨?_, ?_, h.held.concat (fun j v hv => ?_) fun j hwork => Or.inr ?_⟩
  · rw [accepted_concat, begun_concat, h.queued, hqueue]
    simp [Notice.accepted?, Notice.started?, setWorker]
  · rw [begun_concat, finished_concat]
    simp only [Notice.started?, Notice.endOf?, setWorker, hcount, Option.toList_some,
      List.length_append, List.length_singleton, Option.isSome_none, Bool.toNat_false]
    omega
  · obtain ⟨rfl, rfl⟩ := Notice.started.inj hv
    exact atWork_set_self hidle
  · by_cases hk : k = j
    · exact hk ▸ atWork_set_self hidle
    · exact hwork.set_ne hk _

lemma Act.tracks (h : Act p notices p') (hp : Tracks log p) : Tracks (log ++ notices) p' := by
  cases h with
  | accept hgoes hstage =>
    refine ⟨?_, ?_, hp.held.concat (by simp) fun k hwork => Or.inr hwork⟩
    · rw [accepted_concat, begun_concat, hp.queued]
      simp [Notice.accepted?, Notice.started?]
    · rw [begun_concat, finished_concat]
      simpa [Notice.started?, Notice.endOf?] using hp.busy
  | refuse _ | abort | again _ | close _ _ | expire _ | giveUp _ =>
    exact hp.remark rfl rfl rfl rfl rfl
  | await _ | meddle =>
    rw [List.append_nil]
    exact ⟨hp.queued, hp.busy, hp.held⟩
  | stop hidle _ =>
    rw [List.append_nil]
    exact hp.exchange hidle rfl
  | take hidle _ hqueue => exact hp.take hidle hqueue
  | go hrunning =>
    rw [List.append_nil]
    exact hp.exchange hrunning rfl
  | @finish k u cancel hrunning =>
    cases cancel <;> exact hp.release hrunning rfl rfl rfl rfl rfl rfl
  | crash hrunning => exact hp.release hrunning rfl rfl rfl rfl rfl rfl

/-- What the notices tell about the pool itself. -/
structure Stands (log : List (Notice υ)) (p : Pool υ) : Prop where
  cancelled : p.cancelled = log.any Notice.cancels
  /-- As long as no unit is lost, a worker stops only when there is nothing left to start. -/
  stopped : (∀ k, .lost k ∉ log) → .stopped ∈ p.workers →
    p.cancelled = true ∨ p.queue = [] ∧ p.stage ≠ .accepting
  draining : ∀ deadline, p.stage = .draining deadline → p.cancelled = true
  incomplete : .answered false ∈ log → p.cancelled = true ∧ p.outcome?.isSome = true
  ended : p.outcome?.isSome = true → .answered false ∈ log ∨ p.isStill = true

lemma not_isStill (hx : p.workers[k]? = some x) (hgoes : x.isStopped = false) :
    p.isStill = false := by
  rw [← Bool.not_eq_true]
  intro hstill
  have hstopped := List.all_eq_true.1 hstill x (List.mem_of_getElem? hx)
  rw [hgoes] at hstopped
  simp at hstopped

/-- A worker takes up something else, or stops when there is nothing left to start. -/
lemma Stands.exchange (h : Stands log p) (hx : p.workers[k]? = some x)
    (hgoes : x.isStopped = false)
    (hy : y = .stopped → p.cancelled = true ∨ p.queue = [] ∧ p.stage ≠ .accepting) :
    Stands log (p.setWorker k y) := by
  refine ⟨h.cancelled, fun hlost hstopped => ?_, h.draining, h.incomplete, fun hended => ?_⟩
  · rcases List.mem_or_eq_of_mem_set hstopped with hmem | heq
    · exact h.stopped hlost hmem
    · exact hy heq.symm
  · rcases h.ended hended with hincomplete | hstill
    · exact Or.inl hincomplete
    · rw [not_isStill hx hgoes] at hstill
      exact absurd hstill Bool.false_ne_true

/-- Something is noticed of which the pool itself shows nothing. -/
lemma Stands.remark (h : Stands log p) (hcancels : n.cancels = false)
    (hanswer : n ≠ .answered false) : Stands (log ++ [n]) p := by
  have hmem : Notice.answered false ∈ log ++ [n] ↔ .answered false ∈ log := by
    simp [List.mem_append, hanswer.symm]
  refine ⟨by simp [h.cancelled, hcancels], fun hlost => h.stopped fun k hk => ?_, h.draining,
    fun hincomplete => h.incomplete (hmem.1 hincomplete), fun hended => ?_⟩
  · exact hlost k (List.mem_append_left _ hk)
  · exact (h.ended hended).imp_left hmem.2

/-- The pool is cancelled. -/
lemma Stands.cancel (h : Stands log p) (hcancels : n.cancels = true) :
    Stands (log ++ [n]) p.cancel := by
  refine ⟨by simp [Pool.cancel, hcancels], fun _ _ => Or.inl rfl, fun _ _ => rfl,
    fun hincomplete => ⟨rfl, ?_⟩, fun hended => ?_⟩
  · rcases List.mem_append.1 hincomplete with hmem | hmem
    · exact (h.incomplete hmem).2
    · obtain rfl := List.mem_singleton.1 hmem
      simp [Notice.cancels] at hcancels
  · exact (h.ended hended).imp_left (List.mem_append_left _)

/-- The pool goes over to another stage, in which it stays closed. -/
lemma Stands.restage (h : Stands log p) {stage : Stage} (hclosed : stage ≠ .accepting)
    (hdraining : ∀ deadline, stage ≠ .draining deadline)
    (hincomplete : .answered false ∈ log → { p with stage }.outcome?.isSome = true)
    (hended : { p with stage }.outcome?.isSome = true →
      .answered false ∈ log ∨ p.isStill = true) : Stands log { p with stage } :=
  ⟨h.cancelled,
    fun hlost hstopped => (h.stopped hlost hstopped).imp_right fun hempty => ⟨hempty.1, hclosed⟩,
    fun deadline hstage => absurd hstage (hdraining deadline),
    fun hanswer => ⟨(h.incomplete hanswer).1, hincomplete hanswer⟩, hended⟩

lemma Act.stands (h : Act p notices p') (hp : Stands log p) : Stands (log ++ notices) p' := by
  cases h with
  | @accept u hgoes hstage =>
    have hopen : p.outcome? = none := by simp [outcome?, hstage]
    refine Stands.remark (p := { p with queue := p.queue ++ [u] })
      ⟨hp.cancelled, fun hlost hstopped => ?_, hp.draining, hp.incomplete, hp.ended⟩ rfl (by simp)
    rcases hp.stopped hlost hstopped with hcancelled | ⟨-, hclosed⟩
    · exact Or.inl hcancelled
    · exact absurd hstage hclosed
  | refuse _ => exact hp.remark rfl (by simp)
  | abort => exact hp.cancel rfl
  | await hnew =>
    rw [List.append_nil]
    refine hp.restage (by simp) (by simp) (fun hincomplete => ?_) (by simp [outcome?])
    have hended := (hp.incomplete hincomplete).2
    simp [hnew] at hended
  | again hended =>
    exact (hp.restage (by simp) (by simp) (fun _ => rfl) fun _ => hp.ended hended).remark rfl
      (by simp)
  | close hstage hstill =>
    exact (hp.restage (by simp) (by simp) (fun _ => rfl) fun _ => Or.inr hstill).remark rfl
      (by simp)
  | expire hstage =>
    refine ⟨by simp [Notice.cancels], fun _ _ => Or.inl rfl, fun _ _ => rfl,
      fun hincomplete => ?_, by simp [outcome?]⟩
    have hended := (hp.incomplete (by simpa using hincomplete)).2
    simp [outcome?, hstage] at hended
  | giveUp hstage =>
    have hcancelled := hp.draining _ hstage
    exact ⟨by simp [hp.cancelled, Notice.cancels], fun _ _ => Or.inl hcancelled, by simp,
      fun _ => ⟨hcancelled, rfl⟩, fun _ => Or.inl (by simp)⟩
  | stop hidle hstop =>
    rw [List.append_nil]
    exact hp.exchange hidle rfl fun _ => hstop
  | @take k u rest hidle hgoes hqueue =>
    refine (Stands.exchange (p := { p with queue := rest }) ?_ hidle rfl (by simp)).remark rfl
      (by simp)
    refine ⟨hp.cancelled, fun hlost hstopped => ?_, hp.draining, hp.incomplete, hp.ended⟩
    rcases hp.stopped hlost hstopped with hcancelled | ⟨hempty, -⟩
    · exact Or.inl hcancelled
    · simp [hqueue] at hempty
  | go hrunning =>
    rw [List.append_nil]
    exact hp.exchange hrunning rfl (by simp)
  | @finish k u cancel hrunning =>
    have hidle : Stands log (p.setWorker k .idle) := hp.exchange hrunning rfl (by simp)
    cases cancel with
    | false => exact hidle.remark rfl (by simp)
    | true => exact hidle.cancel rfl
  | @crash k u hrunning =>
    refine ⟨by simpa [Notice.cancels, setWorker] using hp.cancelled, fun hlost => ?_, hp.draining,
      fun hincomplete => hp.incomplete (by simpa using hincomplete), fun hended => ?_⟩
    · exact absurd (by simp) (hlost k)
    · rcases hp.ended hended with hincomplete | hstill
      · exact Or.inl (List.mem_append_left _ hincomplete)
      · rw [not_isStill hrunning rfl] at hstill
        exact absurd hstill Bool.false_ne_true
  | meddle =>
    rw [List.append_nil]
    exact hp

/-! ## Histories -/

/-- A pool with what has come of it, in what every move keeps. -/
structure Sound (workers capacity : Nat) (log : List (Notice υ)) (p : Pool υ) : Prop where
  staff : p.workers.length = max workers 1
  room : p.capacity = max capacity 1
  tracks : Tracks log p
  stands : Stands log p

variable {staff room grace : Nat} {earlier later : List (Notice υ)} {z : Pool υ × σ}

lemma sound_new : Sound staff room [] (Pool.new staff room grace : Pool υ) := by
  refine ⟨List.length_replicate, rfl, ⟨rfl, ?_, fun earlier k u later hlog => ?_⟩,
    ⟨rfl, fun _ hstopped => ?_, by simp [Pool.new], by simp, by simp [Pool.new, outcome?]⟩⟩
  · simp [begun, finished, Pool.new, List.countP_replicate]
  · simp at hlog
  · simp [Pool.new, List.mem_replicate] at hstopped

lemma Act.workers_length (h : Act p notices p') : p'.workers.length = p.workers.length := by
  cases h with
  | @finish k u cancel _ => cases cancel <;> exact List.length_set
  | stop | take | go | crash => exact List.length_set
  | _ => rfl

lemma Act.capacity_eq (h : Act p notices p') : p'.capacity = p.capacity := by
  cases h with
  | @finish k u cancel _ => cases cancel <;> rfl
  | _ => rfl

lemma Act.sound (h : Act p notices p') (hp : Sound staff room log p) :
    Sound staff room (log ++ notices) p' :=
  ⟨h.workers_length.trans hp.staff, h.capacity_eq.trans hp.room, h.tracks hp.tracks,
    h.stands hp.stands⟩

lemma sound_of_history (h : History b (Pool.new staff room grace, s) log z) :
    Sound staff room log z.1 := by
  induction h with
  | refl => exact sound_new
  | step _ hmove ih => exact (act_of_move? hmove).sound ih

/-- At most one thing is noticed in a move. -/
lemma Act.notices_cases (h : Act p notices p') : notices = [] ∨ ∃ n, notices = [n] := by
  cases h <;> simp

/-- A history leads up to each of its notices. -/
lemma History.exists_act {x : Pool υ × σ} (h : History b x log z)
    (hlog : log = earlier ++ n :: later) :
    ∃ y p', History b x earlier y ∧ Act y.1 [n] p' := by
  induction h generalizing later with
  | refl => simp at hlog
  | @step log notices y z now m hbefore hmove ih =>
    have hact : Act y.1 notices z.1 := act_of_move? hmove
    rcases hact.notices_cases with rfl | ⟨last, rfl⟩
    · exact ih (by rw [← hlog, List.append_nil])
    · rcases split_concat hlog.symm with ⟨-, rfl, rfl⟩ | ⟨later', -, hearlier⟩
      · exact ⟨y, z.1, hbefore, hact⟩
      · exact ih hearlier.symm

/-! ## What is certain of a pool -/

/-- What is certain of a pool with so many workers and so much room, whatever is done with it. -/
structure Safe (workers capacity : Nat) (log : List (Notice υ)) (p : Pool υ) : Prop where
  /-- A unit that is started is the first one among the accepted that was not started yet. -/
  first : ∀ earlier k u later, log = earlier ++ .started k u :: later →
    ∃ waiting, accepted earlier = begun earlier ++ u :: waiting
  /-- The units that are started are the first ones that are accepted, in the order in which they
  are accepted. -/
  order : begun log <+: accepted log
  /-- No unit is started twice. -/
  once : (accepted log).Nodup → (begun log).Nodup
  /-- At no time are more units running than there are workers. -/
  concurrency : ∀ earlier later, log = earlier ++ later →
    (begun earlier).length ≤ finished earlier + max workers 1
  /-- A worker starts a unit only when the one before is over. -/
  alone : ∀ earlier k u between u' later,
    log = earlier ++ .started k u :: between ++ .started k u' :: later →
    ∃ n ∈ between, n.endOf? = some k
  /-- Once the pool is cancelled, nothing is accepted and nothing is started. -/
  cancelled : ∀ earlier n later, log = earlier ++ n :: later → n.cancels = true →
    ∀ m ∈ later, m.accepted? = none ∧ m.started? = none
  /-- A submission finds the queue full only after as many units as there is room for. -/
  full : ∀ earlier later,
    log = earlier ++ .refused (.internal "worker pool queue is full") :: later →
    max capacity 1 ≤ (accepted earlier).length
  /-- A pool that is complete for whoever awaits it has finished all that it started; and unless it
  was cancelled, it started all that it accepted. -/
  complete : ∀ earlier later, log = earlier ++ .answered true :: later →
    (∀ k, .lost k ∉ earlier) → .answered false ∉ earlier →
    AllFinished earlier ∧ (earlier.any Notice.cancels = true ∨ begun earlier = accepted earlier)
  /-- After an incomplete wait nothing is accepted and nothing is started. -/
  incomplete : ∀ earlier later, log = earlier ++ .answered false :: later →
    ∀ m ∈ later, m.accepted? = none ∧ m.started? = none
  /-- After an incomplete wait, another one is complete at once, whatever the units do. -/
  again : .answered false ∈ log → ∀ limit now, (p.await limit now).outcome? = some true

lemma Act.accepted?_and_started? (h : Act p [n] p') (hcancelled : p.cancelled = true) :
    n.accepted? = none ∧ n.started? = none := by
  cases h with
  | accept hgoes _ => simp [hcancelled] at hgoes
  | take _ hgoes _ => simp [hcancelled] at hgoes
  | _ => exact ⟨rfl, rfl⟩

lemma length_le_capacity_of_full {u : υ}
    (h : p.submit u = .error (.internal "worker pool queue is full")) :
    p.capacity ≤ p.queue.length := by
  unfold Pool.submit at h
  split at h
  · simp at h
  · split at h
    · simp at h
    · split at h
      next hfull => exact hfull
      next => simp at h

/-- When no worker has a unit and none was lost, all that was started has finished. -/
lemma Held.allFinished (h : Held log workers) (hlost : ∀ k, .lost k ∉ log)
    (hfree : ∀ k, ¬ AtWork workers k) : AllFinished log := by
  intro earlier k u later hlog
  obtain ⟨n, hn, hover⟩ := (h earlier k u later hlog).resolve_right (hfree k)
  cases n with
  | finished j cancel =>
    obtain rfl := Option.some.inj hover
    exact ⟨cancel, hn⟩
  | lost j => exact absurd (by simp [hlog, hn]) (hlost j)
  | _ => simp [Notice.endOf?] at hover

lemma not_atWork_of_isStill (h : p.isStill = true) : ¬ AtWork p.workers k := by
  rintro ⟨u, hu⟩
  rw [not_isStill hu rfl] at h
  exact Bool.false_ne_true h

/-- A pool whose workers have all stopped. -/
lemma Sound.complete (h : Sound staff room log p) (hstill : p.isStill = true)
    (hlost : ∀ k, .lost k ∉ log) :
    AllFinished log ∧ (log.any Notice.cancels = true ∨ begun log = accepted log) := by
  refine ⟨h.tracks.held.allFinished hlost fun k => not_atWork_of_isStill hstill, ?_⟩
  have hstopped : .stopped ∈ p.workers := by
    have hpos : 0 < p.workers.length := by rw [h.staff]; omega
    obtain ⟨x, hx⟩ := List.exists_mem_of_length_pos hpos
    have hthis := List.all_eq_true.1 hstill x hx
    cases x with
    | stopped => exact hx
    | idle | running u => simp [Worker.isStopped] at hthis
  rcases h.stands.stopped hlost hstopped with hcancelled | ⟨hqueue, -⟩
  · exact Or.inl (h.stands.cancelled ▸ hcancelled)
  · exact Or.inr (by simpa [hqueue] using h.tracks.queued.symm)

lemma History.safe (h : History b (Pool.new staff room grace, s) log z) :
    Safe staff room log z.1 := by
  have hsound := sound_of_history h
  have horder : begun log <+: accepted log := ⟨_, hsound.tracks.queued.symm⟩
  -- Nothing is accepted or started in a state that is cancelled.
  have hquiet : ∀ earlier n later, log = earlier ++ n :: later →
      earlier.any Notice.cancels = true → n.accepted? = none ∧ n.started? = none := by
    intro earlier n later hlog hcancels
    obtain ⟨y, p', hy, hact⟩ := h.exists_act hlog
    exact hact.accepted?_and_started? ((sound_of_history hy).stands.cancelled.trans hcancels)
  refine
    { first := ?first, order := horder, once := fun hnodup => hnodup.sublist horder.sublist,
      concurrency := ?concurrency, alone := ?alone, cancelled := ?cancelled, full := ?full,
      complete := ?complete, incomplete := ?incomplete, again := ?again }
  case first =>
    intro earlier k u later hlog
    obtain ⟨y, p', hy, hact⟩ := h.exists_act hlog
    cases hact with
    | take _ _ hqueue => exact ⟨_, hqueue ▸ (sound_of_history hy).tracks.queued⟩
  case concurrency =>
    intro earlier later hlog
    obtain ⟨y, hy⟩ : ∃ y, History b (Pool.new staff room grace, s) earlier y := by
      cases later with
      | nil => exact ⟨z, by rwa [← List.append_nil earlier, ← hlog]⟩
      | cons n later =>
        obtain ⟨y, p', hy, -⟩ := h.exists_act hlog
        exact ⟨y, hy⟩
    have hbusy := (sound_of_history hy).tracks.busy
    have hstaff := (sound_of_history hy).staff
    have hcount : y.1.workers.countP (·.unit?.isSome) ≤ y.1.workers.length :=
      List.countP_le_length
    omega
  case alone =>
    intro earlier k u between u' later hlog
    obtain ⟨y, p', hy, hact⟩ := h.exists_act hlog
    cases hact with
    | take hidle _ _ =>
      refine ((sound_of_history hy).tracks.held earlier k u between rfl).resolve_right ?_
      rintro ⟨v, hv⟩
      simp [hidle] at hv
  case cancelled =>
    intro earlier n later hlog hcancels m hm
    obtain ⟨between, rest, rfl⟩ := List.append_of_mem hm
    exact hquiet (earlier ++ n :: between) m rest (by simpa using hlog) (by simp [hcancels])
  case full =>
    intro earlier later hlog
    obtain ⟨y, p', hy, hact⟩ := h.exists_act hlog
    have hy := sound_of_history hy
    cases hact with
    | refuse hrefused =>
      have hfull := length_le_capacity_of_full hrefused
      rw [hy.room] at hfull
      rw [hy.tracks.queued, List.length_append]
      omega
  case complete =>
    intro earlier later hlog hlost hanswer
    obtain ⟨y, p', hy, hact⟩ := h.exists_act hlog
    have hy := sound_of_history hy
    cases hact with
    | again hended => exact hy.complete ((hy.stands.ended hended).resolve_left hanswer) hlost
    | close _ hstill => exact hy.complete hstill hlost
  case incomplete =>
    intro earlier later hlog m hm
    obtain ⟨between, rest, rfl⟩ := List.append_of_mem hm
    have hsplit : log = (earlier ++ .answered false :: between) ++ m :: rest := by simpa using hlog
    obtain ⟨y, p', hy, hact⟩ := h.exists_act hsplit
    exact hact.accepted?_and_started? ((sound_of_history hy).stands.incomplete (by simp)).1
  case again =>
    intro hanswer limit now
    have hended := (hsound.stands.incomplete hanswer).2
    cases hstage : z.1.stage with
    | ended complete => simp [await, outcome?, hstage]
    | _ => simp [outcome?, hstage] at hended

/-- What a pool does in virtual time is a sequence of moves. -/
lemma exists_history_of_process (b : Behaviour υ σ) (wanted : Pool υ × σ → Bool)
    (deadline : Option Nat) (fuel : Nat) (y : Timed (Pool υ × σ)) :
    ∃ log, History b y.state log ((process b).run wanted deadline fuel y).state := by
  refine Process.run_keeps (I := fun z => ∃ log, History b y.state log z) ?_ ⟨[], .refl⟩
  rintro time z z' ⟨log, hlog⟩ hstep
  obtain ⟨m, notices, hmove⟩ := exists_move_of_step? hstep
  exact ⟨_, hlog.step hmove⟩

/-- **What is certain of a pool**, in every order of submissions, turns, ends, cancellations,
deadlines, and waits; and it stays certain however long the pool then goes on by itself, or is
awaited to the end. -/
theorem safe_of_history (h : History b (Pool.new staff room grace, s) log z) :
    Safe staff room log z.1 ∧
      (∀ duration time, ∃ later, History b z later (wait b duration ⟨time, z⟩).state ∧
        Safe staff room (log ++ later) (wait b duration ⟨time, z⟩).state.1) ∧
      ∀ limit time, ∃ later, History b z later (join b limit ⟨time, z⟩).state ∧
        Safe staff room (log ++ later) (join b limit ⟨time, z⟩).state.1 := by
  refine ⟨h.safe, fun duration time => ?_, fun limit time => ?_⟩
  · obtain ⟨later, hlater⟩ := exists_history_of_process b (fun _ => false)
      (some (time + duration)) (z.1.fuel b) ⟨time, z⟩
    exact ⟨later, hlater, (h.trans hlater).safe⟩
  · have hmove : z.1.move? b time z.2 (.await (some limit)) = some _ := rfl
    have hawait := (History.refl (b := b) (x := z)).step hmove
    obtain ⟨later, hlater⟩ := exists_history_of_process b (fun s => s.1.outcome?.isSome) none
      ((z.1.await (some limit) time).fuel b) ⟨time, z.1.await (some limit) time, z.2⟩
    have hjoined := hawait.trans hlater
    exact ⟨_, hjoined, (h.trans hjoined).safe⟩

/-! ### A unit that is given up -/

/-- Moves, each at its time. -/
def play (b : Behaviour υ σ) :
    List (Nat × Move υ σ) → Pool υ × σ → Option (List (Notice υ) × Pool υ × σ)
  | [], y => some ([], y)
  | (now, m) :: rest, y =>
    (y.1.move? b now y.2 m).bind fun x => (play b rest x.2).map fun z => (x.1 ++ z.1, z.2)

lemma history_of_play {schedule : List (Nat × Move υ σ)} {y z : Pool υ × σ}
    (h : play b schedule y = some (log, z)) : History b y log z := by
  induction schedule generalizing y log with
  | nil =>
    obtain ⟨rfl, rfl⟩ := Prod.mk.inj (Option.some.inj h)
    exact .refl
  | cons first rest ih =>
    obtain ⟨now, m⟩ := first
    obtain ⟨⟨notices, x⟩, hmove, hrest⟩ := Option.bind_eq_some_iff.1 h
    obtain ⟨⟨later, z⟩, hplay, heq⟩ := Option.map_eq_some_iff.1 hrest
    obtain ⟨rfl, rfl⟩ := Prod.mk.inj heq
    exact (History.refl.step hmove).trans (ih hplay)

def longNap : Sleeper := ⟨"nap", 300, false, false, none⟩

/-- A nap begins; it is awaited for 20 ms, for a grace of 20 ms, and then once more. -/
def oversleeping : List (Nat × Move Sleeper Sleeper.Done) :=
  [(0, .submit longNap), (0, .work 0), (0, .work 0), (0, .await (some 20)), (20, .watch),
    (40, .watch), (40, .await (some 1000))]

def overslept : List (Notice Sleeper) :=
  [.accepted longNap, .started 0 longNap, .expired, .answered false, .answered true]

theorem safe_of_overslept :
    ∃ z, History Sleeper.behaviour (Pool.new 1 1 20, []) overslept z ∧
      Safe 1 1 overslept z.1 ∧ ¬ AllFinished overslept := by
  have hplay : (play Sleeper.behaviour oversleeping (Pool.new 1 1 20, [])).any
      (·.1 = overslept) = true := by decide +kernel
  obtain ⟨⟨log, z⟩, hhistory, hlog⟩ := (Option.any_eq_true _ _).1 hplay
  obtain rfl : log = overslept := of_decide_eq_true hlog
  have hsafe := (safe_of_history (history_of_play hhistory)).1
  refine ⟨z, history_of_play hhistory, hsafe, fun hall => ?_⟩
  obtain ⟨cancel, hfinished⟩ := hall [.accepted longNap] 0 longNap _ rfl
  simp at hfinished

end Pool

end StoreSync
