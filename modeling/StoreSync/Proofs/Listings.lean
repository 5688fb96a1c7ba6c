import StoreSync.Proofs.Suppression

/-!
# Where listed pivots lead

A store lists the pivot of an entry with the entry's first pivot value, and fetches for a pivot the
first entry, in key order, that carries its text.  Entries may share their pivot values, and a
listed pivot then leads to the first of those that do, which need not be the one it was listed for.

* `MemoryStore.found?_iff_firstCarrier` — what a fetch finds is the first carrier of the text
  (`MemoryStore.FirstCarrier`);
* `Pass.Attended` is where the pivot of a pass stands whose source answers it with an entry: still
  to come, with a unit on the way to this entry (`Task.Toward`), or reconciled with the entry in one
  of the turns (`Task.Reconciled`).  `Pass.Act.attended` is one turn, `Pass.Traced.attends` a whole
  run, and `Pass.Traced.reconciled` its end;
* `MemoryStore.recalls_of_connected` collects what is certain of listed pivots
  (`MemoryStore.Recalls`), and `MemoryStore.astray_of_twins` is a pivot that leads astray.
-/

namespace StoreSync

/-! ## The first carrier of a text -/

namespace MemoryStore

variable {s : MemoryStore} {text k k' : String} {e e' : Entity} {p : Pivot}

/-- The entry under a key carries a text, and no entry before it does. -/
structure FirstCarrier (s : MemoryStore) (text k : String) (e : Entity) : Prop where
  there : s.records.get? k = some e
  carries : s.carries e text = true
  first : ∀ k' e', s.records.get? k' = some e' → k' < k → s.carries e' text = false

lemma found?_iff_firstCarrier : s.found? p = some (k, e) ↔ s.FirstCarrier (s.wanted p) k e := by
  constructor
  · intro hfound
    refine ⟨get?_of_found? hfound, carries_of_found? hfound, fun k' e' hget hlt => ?_⟩
    by_contra hcarries
    rcases TextMap.le_of_find?_entries hfound ((TextMap.mem_entries_iff _).2 hget)
      (by simpa using hcarries) with heq | hgt
    · obtain ⟨rfl, -⟩ := Prod.mk.inj heq
      exact String.lt_irrefl k hlt
    · exact String.lt_asymm hlt hgt
  · rintro ⟨hget, hcarries, hfirst⟩
    have hmem := (TextMap.mem_entries_iff _).2 hget
    cases hfound : s.found? p with
    | none => exact absurd hcarries (List.find?_eq_none.1 hfound _ hmem)
    | some x =>
      obtain ⟨k', e'⟩ := x
      rcases TextMap.le_of_find?_entries hfound hmem hcarries with heq | hlt
      · rw [heq]
      · have hnot := hfirst k' e' (get?_of_found? hfound) hlt
        rw [carries_of_found? hfound] at hnot
        simp at hnot

/-- An entry carries the text of its own pivot, which is its first pivot value. -/
lemma first?_of_pivotOf? (h : s.pivotOf? e = some p) :
    e.first? s.pivotAttribute = some (s.wanted p) := by
  obtain ⟨v, hv, rfl⟩ := pivotOf?_eq_some_iff.1 h
  rw [hv, wanted_pivotFor]

lemma exists_firstCarrier (hget : s.records.get? k = some e) (hp : s.pivotOf? e = some p) :
    ∃ k' e', s.FirstCarrier (s.wanted p) k' e' := by
  have hcarries : s.carries e (s.wanted p) = true := carries_of_first? (first?_of_pivotOf? hp)
  cases hfound : s.found? p with
  | none =>
    have hmem := (TextMap.mem_entries_iff _).2 hget
    exact absurd hcarries (List.find?_eq_none.1 hfound _ hmem)
  | some x => exact ⟨x.1, x.2, found?_iff_firstCarrier.1 hfound⟩

lemma FirstCarrier.fetch (h : s.FirstCarrier (s.wanted p) k e) (hlost : s.connectionLost = false) :
    s.fetch p = .ok (some e) := by
  rw [fetch_eq hlost, found?_iff_firstCarrier.2 h]
  rfl

end MemoryStore

/-! ## A source that is left alone -/

namespace Task

variable {σ : Type} {t : Task σ} {origin : σ → MemoryStore} {p : Pivot} {e : Entity}
  {now : Nat} {clean : Bool} {j : Job} {l : Ledger} {w : World σ}

/-- The source is a memory store, a part of the state that nothing touches which is done to the
destination. -/
structure Rooted (t : Task σ) (origin : σ → MemoryStore) : Prop where
  source : ∃ name feed replace, t.source =
    (MemoryStore.adapter name feed).within origin replace ∧ ∀ m s, origin (replace m s) = m
  queries : t.destination.Preserves origin
  apply : ∀ c time s, origin (t.destination.apply c time s).2 = origin s

/-- Two stores side by side, the first of them a memory store. -/
lemma rooted_first {τ : Type} (config : TaskConfig) (name : String) (feed : Bool)
    (destination : Adapter τ) (ev : Evaluator) :
    Rooted ⟨config, (MemoryStore.adapter name feed).first, destination.second, ev⟩ Prod.fst :=
  ⟨⟨name, feed, _, rfl, fun _ _ => rfl⟩, ⟨fun _ => rfl, fun _ _ => rfl, fun _ _ => rfl,
    fun _ _ => rfl⟩, fun _ _ _ => rfl⟩

lemma Rooted.preserves (h : t.Rooted origin) : t.source.Preserves origin := by
  obtain ⟨name, feed, replace, hsource, hreplace⟩ := h.source
  rw [hsource]
  exact MemoryStore.preserves_within hreplace

lemma Rooted.answerFetch (h : t.Rooted origin) (p : Pivot) (stores : σ) :
    (t.source.answerFetch p stores).1 = (origin stores).fetch p := by
  obtain ⟨name, feed, replace, hsource, -⟩ := h.source
  rw [hsource]
  rfl

lemma Rooted.list (h : t.Rooted origin) (stores : σ) :
    (t.source.list stores).1 = (origin stores).list := by
  obtain ⟨name, feed, replace, hsource, -⟩ := h.source
  rw [hsource]
  rfl

lemma Rooted.unitStep (h : t.Rooted origin) :
    origin (t.unitStep clean now j l w).2.2.stores = origin w.stores :=
  stores_unitStep h.preserves h.queries fun c _ => h.apply c _ _

/-! ## Units on the way to an entry -/

/-- In a turn the counterpart of an entry is brought in line: the plan is made from this entry and
from what the destination answers in this turn. -/
def Reconciles (t : Task σ) (p : Pivot) (e : Entity) (turn : World σ × List Event) : Prop :=
  turn.2 = match t.checkDestination p (t.destination.answerFetch p turn.1.stores).1 with
    | .error err => [.ended p (.error err)]
    | .ok d => t.planEvents p (t.planSync p (some e) d)

/-- A pivot has been reconciled with an entry in one of the turns, and what was planned there and
not held back was sent to the destination. -/
def Reconciled (t : Task σ) (trail : Trail σ) (p : Pivot) (e : Entity) : Prop :=
  ∃ turn ∈ trail, t.Reconciles p e turn ∧
    ∀ planned, .computed p planned ∈ turn.2 → t.suppression? planned = none →
      ∃ turn' ∈ trail, ∃ answer, .answered p planned.change answer ∈ turn'.2

/-- What the unit of a pivot has on the way to be reconciled with an entry. -/
def Toward (t : Task σ) (trail : Trail σ) (e : Entity) (j : Job) : Prop :=
  match j.phase with
  | .waiting | .admitted | .counted | .sourceAsked => True
  | .destinationAsked known => known = some e
  | .applying c => ∃ turn ∈ trail, t.Reconciles j.pivot e turn ∧
      ∀ planned, .computed j.pivot planned ∈ turn.2 → t.suppression? planned = none →
        planned.change = c
  | .lost | .ended => t.Reconciled trail j.pivot e

variable {trail more : Trail σ} {j' : Job} {l' : Ledger} {w' : World σ} {planned : PlannedChange}

lemma Reconciled.append (h : t.Reconciled trail p e) : t.Reconciled (trail ++ more) p e := by
  obtain ⟨turn, hturn, hreconciles, hsent⟩ := h
  refine ⟨turn, List.mem_append_left _ hturn, hreconciles, fun planned hplanned hgoes => ?_⟩
  obtain ⟨turn', hturn', hanswer⟩ := hsent planned hplanned hgoes
  exact ⟨turn', List.mem_append_left _ hturn', hanswer⟩

lemma Toward.append (h : t.Toward trail e j) : t.Toward (trail ++ more) e j := by
  unfold Toward at h ⊢
  split at h
  · trivial
  · trivial
  · trivial
  · trivial
  · exact h
  · obtain ⟨turn, hturn, hrest⟩ := h
    exact ⟨turn, List.mem_append_left _ hturn, hrest⟩
  · exact h.append
  · exact h.append

/-- A unit that has its result has been reconciled, whatever the result is. -/
lemma Reconciled.toward (h : t.Reconciled trail j.pivot e) (result : Except SyncError Unit)
    (hphase : j.phase = .after result) : t.Toward trail e j := by
  unfold Toward
  rcases Phase.after_eq result with hafter | hafter <;> rw [hphase, hafter] <;> exact h

lemma applying_of_takeUp {plan : Asked (Option PlannedChange)}
    (h : t.takeUp now j plan l w = (.running j', l', w'))
    (hplan : plan.result = .ok (some planned)) (hgoes : t.suppression? planned = none) :
    j'.phase = .applying planned.change := by
  simp only [takeUp, hplan, hgoes, Prod.mk.injEq, Progress.running.injEq] at h
  rw [← h.1]

/-- The step in which the destination answers reconciles the pivot with the entry, and the unit goes
on to apply what was planned, unless this is held back. -/
lemma toward_of_destinationAsked (hphase : j.phase = .destinationAsked (some e))
    (hstep : t.unitStep false now j l w = (.running j', l', w')) :
    j'.pivot = j.pivot ∧ t.Toward (trail ++ [(w, t.unitEvents false now j l w)]) e j' := by
  have hlast : (w, t.unitEvents false now j l w) ∈ trail ++ [(w, t.unitEvents false now j l w)] :=
    List.mem_append_right _ List.mem_cons_self
  have hreconciles : t.Reconciles j.pivot e (w, t.unitEvents false now j l w) := by
    cases hanswer : t.checkDestination j.pivot (t.destination.answerFetch j.pivot w.stores).1 <;>
      simp only [Reconciles, unitEvents, hphase, hanswer, Bool.false_eq_true, if_false]
  simp only [unitStep, hphase, onDestination, Bool.false_eq_true, if_false] at hstep
  split at hstep
  next err hanswer =>
    obtain rfl := Progress.running.inj (Prod.mk.inj hstep).1
    refine ⟨rfl, Reconciled.toward ⟨_, hlast, hreconciles, fun planned hplanned => ?_⟩
      (.error err) rfl⟩
    simp [unitEvents, hphase, hanswer] at hplanned
  next d hanswer =>
    have happlies : ∀ planned, .computed j.pivot planned ∈ t.unitEvents false now j l w →
        t.suppression? planned = none → j'.phase = .applying planned.change := by
      intro planned hplanned hgoes
      simp only [unitEvents, hphase, hanswer, Bool.false_eq_true, if_false] at hplanned
      exact applying_of_takeUp hstep (computed_mem_planEvents.1 hplanned).2 hgoes
    obtain ⟨hpivot, -, ⟨result, hended⟩ | ⟨c, -, happlying⟩⟩ := phase_of_takeUp hstep
    · refine ⟨hpivot, Reconciled.toward ?_ result hended⟩
      rw [hpivot]
      refine ⟨_, hlast, hreconciles, fun planned hplanned hgoes => ?_⟩
      have happlying := happlies planned hplanned hgoes
      exact absurd (hended.symm.trans happlying) (Phase.after_ne_applying _ _)
    · refine ⟨hpivot, ?_⟩
      simp only [Toward, happlying, hpivot]
      refine ⟨_, hlast, hreconciles, fun planned hplanned hgoes => ?_⟩
      have hsame := happlies planned hplanned hgoes
      rw [happlying] at hsame
      exact (Phase.applying.inj hsame).symm

/-- The step in which a change is applied sends it to the destination. -/
lemma toward_of_applying {c : Change} (hphase : j.phase = .applying c) (hj : t.Toward trail e j)
    (hstep : t.unitStep false now j l w = (.running j', l', w')) :
    j'.pivot = j.pivot ∧ t.Toward (trail ++ [(w, t.unitEvents false now j l w)]) e j' := by
  simp only [Toward, hphase] at hj
  obtain ⟨turn, hturn, hreconciles, hsent⟩ := hj
  have hlast : (w, t.unitEvents false now j l w) ∈ trail ++ [(w, t.unitEvents false now j l w)] :=
    List.mem_append_right _ List.mem_cons_self
  obtain ⟨rfl, -⟩ := carried_of_unitStep hphase hstep
  refine ⟨rfl, Reconciled.toward ?_ _ rfl⟩
  refine ⟨turn, List.mem_append_left _ hturn, hreconciles, fun planned hplanned hgoes => ?_⟩
  rw [hsent planned hplanned hgoes]
  refine ⟨_, hlast, (t.destination.apply c (w.epoch.addMilliseconds now) w.stores).1, ?_⟩
  simp only [unitEvents, hphase]
  exact List.mem_cons_self

/-- A step takes a unit on toward the entry that the source answers with, unless it comes too
late. -/
lemma toward_of_unitStep (hj : t.Toward trail e j) (hlate : l'.late = false)
    (hsource : (t.source.answerFetch j.pivot w.stores).1 = .ok (some e))
    (hstep : t.unitStep false now j l w = (.running j', l', w')) :
    j'.pivot = j.pivot ∧ t.Toward (trail ++ [(w, t.unitEvents false now j l w)]) e j' := by
  cases hphase : j.phase with
  | waiting =>
    simp only [unitStep, hphase, enter] at hstep
    split at hstep
    · simp at hstep
    · split at hstep
      · obtain rfl := (Prod.mk.inj (Prod.mk.inj hstep).2).1
        simp at hlate
      · obtain rfl := Progress.running.inj (Prod.mk.inj hstep).1
        exact ⟨rfl, trivial⟩
  | admitted | counted =>
    simp only [unitStep, hphase] at hstep
    obtain rfl := Progress.running.inj (Prod.mk.inj hstep).1
    exact ⟨rfl, trivial⟩
  | sourceAsked =>
    simp only [unitStep, hphase, onSource, hsource, Bool.false_eq_true, if_false] at hstep
    obtain rfl := Progress.running.inj (Prod.mk.inj hstep).1
    exact ⟨rfl, rfl⟩
  | destinationAsked known =>
    obtain rfl : known = some e := by simpa [Toward, hphase] using hj
    exact toward_of_destinationAsked hphase hstep
  | applying c => exact toward_of_applying hphase hj hstep
  | lost =>
    simp only [unitStep, hphase] at hstep
    obtain rfl := Progress.running.inj (Prod.mk.inj hstep).1
    simp only [Toward, hphase] at hj
    exact ⟨rfl, hj.append⟩
  | ended => simp [unitStep, hphase] at hstep

end Task

/-! ## Pivots in a pass -/

namespace Pass

variable {σ : Type} {t : Task σ} {origin : σ → MemoryStore} {now : Nat} {pivots : List Pivot}
  {log events : List Event} {trail more : Trail σ} {p : Pass} {w : World σ} {x y z : Pass × World σ}
  {q : Pivot} {e : Entity}

/-- Where the pivot of a pass stands that its source answers with an entry. -/
inductive Attended (t : Task σ) (trail : Trail σ) (p : Pass) (q : Pivot) (e : Entity) : Prop
  | pending (hpending : q ∈ p.pending)
  | queued {j : Job} (hqueued : j ∈ p.pool.queue) (hpivot : j.pivot = q)
  | running {j : Job} (hrunning : .running j ∈ p.pool.workers) (hpivot : j.pivot = q)
      (htoward : t.Toward trail e j)
  | done (hdone : t.Reconciled trail q e)

/-- A pivot is attended after a turn if it is so wherever it stood before. -/
lemma Attended.keep (h : Attended t trail p q e) {p' : Pass}
    (hpending : q ∈ p.pending → Attended t (trail ++ more) p' q e)
    (hqueued : ∀ j ∈ p.pool.queue, j.pivot = q → Attended t (trail ++ more) p' q e)
    (hrunning : ∀ j, .running j ∈ p.pool.workers → j.pivot = q → t.Toward trail e j →
      Attended t (trail ++ more) p' q e) : Attended t (trail ++ more) p' q e := by
  cases h with
  | pending h => exact hpending h
  | queued h hpivot => exact hqueued _ h hpivot
  | running h hpivot htoward => exact hrunning _ h hpivot htoward
  | done h => exact .done h.append

/-- A worker takes up something else.  It has had no unit of the pivot, or one that goes on or is
through. -/
lemma Attended.setWorker (h : Attended t trail p q e) {p' : Pass} {k : Nat} {x y : Worker Job}
    (hx : p.pool.workers[k]? = some x) (hpending : p'.pending = p.pending)
    (hqueue : p'.pool.queue = p.pool.queue) (hworkers : p'.pool.workers = p.pool.workers.set k y)
    (hmoved : ∀ j, x = .running j → j.pivot = q → t.Toward trail e j →
      Attended t (trail ++ more) p' q e) : Attended t (trail ++ more) p' q e := by
  refine h.keep (fun h => .pending (hpending ▸ h)) (fun j h => .queued (hqueue ▸ h))
    fun j hj hpivot htoward => ?_
  rcases eq_or_mem_set hx hj y with heq | hmem
  · exact hmoved j heq.symm hpivot htoward
  · exact .running (hworkers ▸ hmem) hpivot htoward.append

/-- A turn of a pass that is not broken off attends to every pivot that it has attended to. -/
lemma Act.attended (h : Act t now p w events z) (hp : Attended t trail p q e)
    (hsync : p.isClean = false) (hintact : Intact pivots log p) (hqueued : p.IsQueued)
    (hlate : z.1.ledger.late = false)
    (hsource : (t.source.answerFetch q w.stores).1 = .ok (some e)) :
    Attended t (trail ++ [(w, events)]) z.1 q e := by
  cases h with
  | @submit pivot rest hpending _ _ =>
    refine hp.keep (fun hq => ?_) (fun j hj => .queued (List.mem_append_left _ hj))
      fun j hj hpivot htoward => .running hj hpivot htoward.append
    rcases List.mem_cons.1 (hpending ▸ hq) with rfl | hq
    · exact .queued (List.mem_append_right _ List.mem_cons_self) rfl
    · exact .pending hq
  | drop hpending _ hwhy => exact absurd hwhy (hintact.accepts hpending)
  | await | close | expire | giveUp =>
    exact hp.keep (fun hq => .pending hq) (fun j hj => .queued hj)
      fun j hj hpivot htoward => .running hj hpivot htoward.append
  | stop hidle _ => exact hp.setWorker hidle rfl rfl rfl (by simp)
  | @take k j rest hidle _ hqueue =>
    refine hp.keep (fun hq => .pending hq) (fun i hi hpivot => ?_) fun i hi hpivot htoward => ?_
    · rcases List.mem_cons.1 (hqueue ▸ hi) with rfl | hi
      · have hwaiting := hqueued i (hqueue ▸ List.mem_cons_self)
        exact .running (mem_set_self hidle _) hpivot (by simp [Task.Toward, hwaiting])
      · exact .queued hi hpivot
    · rcases eq_or_mem_set hidle hi (.running j) with heq | hmem
      · simp at heq
      · exact .running hmem hpivot htoward.append
  | @go k j j' l' w' hrunning hstep =>
    refine hp.setWorker hrunning rfl rfl rfl fun i hi hpivot htoward => ?_
    obtain rfl := Worker.running.inj hi
    rw [hsync] at hstep ⊢
    obtain ⟨hpivot', htoward'⟩ := Task.toward_of_unitStep htoward hlate (hpivot ▸ hsource) hstep
    exact .running (mem_set_self hrunning _) (hpivot'.trans hpivot) htoward'
  | @leave k j hrunning hphase =>
    have hended : j.phase = .ended := by
      rcases hphase with hphase | ⟨-, hcancelled⟩
      · exact hphase
      · simp [hintact.uncancelled.ledger] at hcancelled
    simp only [hintact.uncancelled.ledger, Bool.false_eq_true, if_false]
    refine hp.setWorker hrunning rfl rfl rfl fun i hi hpivot htoward => ?_
    obtain rfl := Worker.running.inj hi
    simp only [Task.Toward, hended] at htoward
    exact .done (hpivot ▸ htoward.append)

/-! ## Runs with their turns -/

/-- A run with its turns. -/
inductive Traced (t : Task σ) (x : Pass × World σ) : Trail σ → Pass × World σ → Prop
  | refl : Traced t x [] x
  | step {trail : Trail σ} {events : List Event} {y z : Pass × World σ} {now : Nat}
      (h : Traced t x trail y) (hturn : Happens t now y events z) :
      Traced t x (trail ++ [(y.2, events)]) z

lemma Traced.history (h : Traced t x trail y) : History t x (trail.flatMap (·.2)) y := by
  induction h with
  | refl => exact .refl
  | step _ hturn ih => simpa using ih.step hturn

lemma History.exists_traced (h : History t x log y) : ∃ trail, Traced t x trail y := by
  induction h with
  | refl => exact ⟨[], .refl⟩
  | step _ hturn ih =>
    obtain ⟨trail, htraced⟩ := ih
    exact ⟨_, htraced.step hturn⟩

/-- A turn leaves the source as it is. -/
lemma Act.origin_eq (h : Act t now p w events z) (hrooted : t.Rooted origin) :
    origin z.2.stores = origin w.stores := by
  cases h with
  | @go k j j' l' w' _ hstep =>
    have hkept : origin (t.unitStep p.isClean now j p.ledger w).2.2.stores = origin w.stores :=
      hrooted.unitStep
    rwa [hstep] at hkept
  | _ => rfl

/-- What a run from a pass over the source's pivots on does not change. -/
lemma Traced.constant (h : Traced t x trail y) (hrooted : t.Rooted origin) :
    y.1.isClean = x.1.isClean ∧ origin y.2.stores = origin x.2.stores := by
  induction h with
  | refl => exact ⟨rfl, rfl⟩
  | @step trail events y z now _ hturn ih =>
    have hact := act_of_happens hturn
    exact ⟨hact.isClean.trans ih.1, (hact.origin_eq hrooted).trans ih.2⟩

/-- **A pass that is not broken off attends to all its pivots.** -/
theorem Traced.attends {p₀ : Pass} {w₀ : World σ} (h : Traced t (p₀, w₀) trail y)
    (hrooted : t.Rooted origin) (hnew : IsNew pivots p₀) (hsync : p₀.isClean = false)
    (hq : q ∈ pivots) (hfetch : (origin w₀.stores).fetch q = .ok (some e))
    (hunbroken : y.1.Unbroken) : Attended t trail y.1 q e := by
  induction h with
  | refl => exact .pending (hnew.pending ▸ hq)
  | @step trail events y z now hbefore hturn ih =>
    obtain ⟨p, w⟩ := y
    have hact := act_of_happens hturn
    have hgoes : p.Unbroken := hact.unbroken hunbroken
    have hbooked := hbefore.history.booked hnew
    obtain ⟨hclean, horigin⟩ := hbefore.constant hrooted
    refine hact.attended (ih hgoes) (hclean.trans hsync) (hbooked.intact hgoes)
      hbooked.balanced.queued hunbroken.late ?_
    rw [hrooted.answerFetch, horigin]
    exact hfetch

/-- A pass that has completed has reconciled all its pivots. -/
theorem Traced.reconciled {p₀ : Pass} {w₀ : World σ} {r : PassReport}
    (h : Traced t (p₀, w₀) trail y) (hrooted : t.Rooted origin) (hnew : IsNew pivots p₀)
    (hsync : p₀.isClean = false) (hq : q ∈ pivots)
    (hfetch : (origin w₀.stores).fetch q = .ok (some e))
    (hreport : y.1.report? t.config now = some r) (hstatus : r.status = .completed) :
    t.Reconciled trail q e := by
  obtain ⟨hfailure, hlate, hstage⟩ := (status_of_report? hreport).1 hstatus
  have hunbroken : y.1.Unbroken := ⟨hfailure, hlate, by simp [hstage], by simp [hstage]⟩
  have hintact := (h.history.booked hnew).intact hunbroken
  obtain ⟨hstopped, hqueue, hpending⟩ := hintact.finished hstage
  cases h.attends hrooted hnew hsync hq hfetch hunbroken with
  | pending h => simp [hpending] at h
  | queued h _ => simp [hqueue] at h
  | running h _ _ => simpa using hstopped _ h
  | done h => exact h

end Pass

/-! ## What is certain of listed pivots -/

namespace MemoryStore

open Pass

variable {s : MemoryStore}

/-- What is certain of the pivots that a store lists. -/
structure Recalls (s : MemoryStore) : Prop where
  /-- The pivots of the entries with a pivot value are listed, and no others. -/
  listed : ∃ pivots, s.list = .ok pivots ∧
    ∀ p, p ∈ pivots ↔ ∃ k e, s.records.get? k = some e ∧ s.pivotOf? e = some p
  /-- The pivot of an entry leads to the first entry that carries the first pivot value of this one,
  which is this one or stands before it. -/
  first : ∀ k e p, s.records.get? k = some e → s.pivotOf? e = some p →
    ∃ v k' e', e.first? s.pivotAttribute = some v ∧ s.FirstCarrier v k' e' ∧
      s.fetch p = .ok (some e') ∧ (k' = k ∧ e' = e ∨ k' < k)
  /-- It leads back to its own entry if no entry before it carries this value. -/
  own : ∀ k e v p, s.records.get? k = some e → e.first? s.pivotAttribute = some v →
    s.pivotOf? e = some p →
    (∀ k' e', s.records.get? k' = some e' → k' < k → s.carries e' v = false) →
      s.fetch p = .ok (some e)
  /-- In particular, every pivot does so in a store whose entries do not share any pivot value. -/
  apart : (∀ k e k' e', s.records.get? k = some e → s.records.get? k' = some e' →
      ∀ v ∈ e.values s.pivotAttribute, s.carries e' v = true → k = k') →
    ∀ k e p, s.records.get? k = some e → s.pivotOf? e = some p → s.fetch p = .ok (some e)
  /-- A full pass that completes, in whatever order its units take their turns, with a destination
  that leaves the store alone, has reconciled every listed pivot with the entry it leads to. -/
  passes : ∀ {σ : Type} {t : Task σ} {origin : σ → MemoryStore} {pivots : List Pivot}
    {start time : Nat} {trail : Trail σ} {q : Pass} {w w' w'' : World σ} {r : PassReport},
    t.Rooted origin → origin w.stores = s → t.scope [] .full w = (.ok pivots, w') →
    Traced t (.ofKind t.config .full pivots start, w') trail (q, w'') →
    q.report? t.config time = some r → r.status = .completed →
    ∀ p ∈ pivots, ∃ e, s.fetch p = .ok (some e) ∧ t.Reconciled trail p e

lemma fetch_pivotOf? {k : String} {e : Entity} {p : Pivot} (hlost : s.connectionLost = false)
    (hget : s.records.get? k = some e) (hp : s.pivotOf? e = some p) :
    ∃ k' e', s.FirstCarrier (s.wanted p) k' e' ∧ s.fetch p = .ok (some e') ∧
      (k' = k ∧ e' = e ∨ k' < k) := by
  obtain ⟨k', e', hfirst⟩ := exists_firstCarrier hget hp
  refine ⟨k', e', hfirst, hfirst.fetch hlost, ?_⟩
  have hcarries := carries_of_first? (first?_of_pivotOf? hp)
  rcases TextMap.le_of_find?_entries (found?_iff_firstCarrier.2 hfirst)
    ((TextMap.mem_entries_iff _).2 hget) hcarries with heq | hlt
  · exact Or.inl (Prod.mk.inj heq)
  · exact Or.inr hlt

lemma list_of_scope {σ : Type} {t : Task σ} {origin : σ → MemoryStore} {pivots : List Pivot}
    {w w' : World σ} (hrooted : t.Rooted origin) (hscope : t.scope [] .full w = (.ok pivots, w')) :
    (origin w.stores).list = .ok pivots ∧ origin w'.stores = origin w.stores := by
  simp only [Task.scope, Prod.mk.injEq] at hscope
  obtain ⟨hlisted, rfl⟩ := hscope
  refine ⟨?_, hrooted.preserves.list _⟩
  rw [← hrooted.list]
  split at hlisted
  · simp at hlisted
  · simp at hlisted
  next heq => rw [heq, Except.ok.inj hlisted]

/-- **A listed pivot leads to the first entry that carries its text.** -/
theorem recalls_of_connected (hlost : s.connectionLost = false) : s.Recalls := by
  obtain ⟨listed, hlist, -⟩ := exists_list hlost
  have hmem : ∀ p, p ∈ listed ↔ ∃ k e, s.records.get? k = some e ∧ s.pivotOf? e = some p := by
    intro p
    simp only [mem_list_iff hlist, records, TextMap.get?_map, Option.map_eq_some_iff]
    constructor
    · rintro ⟨k, entry, hget, hp⟩
      exact ⟨k, _, ⟨entry, hget, rfl⟩, hp⟩
    · rintro ⟨k, -, ⟨entry, hget, rfl⟩, hp⟩
      exact ⟨k, entry, hget, hp⟩
  have hown : ∀ k e v p, s.records.get? k = some e → e.first? s.pivotAttribute = some v →
      s.pivotOf? e = some p →
      (∀ k' e', s.records.get? k' = some e' → k' < k → s.carries e' v = false) →
        s.fetch p = .ok (some e) := by
    intro k e v p hget hv hp hbefore
    obtain rfl := Option.some.inj ((first?_of_pivotOf? hp).symm.trans hv)
    exact FirstCarrier.fetch ⟨hget, carries_of_first? hv, hbefore⟩ hlost
  refine ⟨⟨listed, hlist, hmem⟩, fun k e p hget hp => ?_, hown,
    fun hapart k e p hget hp => ?_, ?_⟩
  · obtain ⟨k', e', hfirst⟩ := fetch_pivotOf? hlost hget hp
    exact ⟨_, k', e', first?_of_pivotOf? hp, hfirst⟩
  · have hv := first?_of_pivotOf? hp
    refine hown k e _ p hget hv hp fun k' e' hget' hlt => ?_
    by_contra hcarries
    have hsame := hapart k e k' e' hget hget' _ (mem_values_of_first? hv) (by simpa using hcarries)
    exact String.lt_irrefl k (hsame ▸ hlt)
  · intro σ t origin pivots start time trail q w w' w'' r hrooted horigin hscope htraced hreport
      hstatus p hp
    obtain ⟨hlist', hkept⟩ := list_of_scope hrooted hscope
    rw [horigin] at hlist' hkept
    obtain rfl : listed = pivots := Except.ok.inj (hlist.symm.trans hlist')
    obtain ⟨k, e, hget, hpivot⟩ := (hmem p).1 hp
    obtain ⟨-, e', -, hfetch, -⟩ := fetch_pivotOf? hlost hget hpivot
    exact ⟨e', hfetch, htraced.reconciled hrooted (isNew_ofKind _ _ _ _) rfl hp
      (by rw [hkept, hfetch]) hreport hstatus⟩

/-! A pass over a store of which two entries have a card number in common. -/

def lara : Entity := Entity.putAll (.named "cn=lara") [("uid", [.string "1"])]

def milo : Entity := Entity.putAll (.named "cn=milo") [("uid", [.string "1"])]

def nora : Entity := Entity.putAll (.named "cn=nora") [("uid", [.string "2", .string "1"])]

def readers : MemoryStore :=
  (MemoryStore.new "readers" "uid").insertAll [(lara, ⟨0⟩), (milo, ⟨0⟩), (nora, ⟨0⟩)]

/-- The readers with an empty directory beside them. -/
def foyer : World (MemoryStore × MemoryStore) :=
  ⟨(readers, MemoryStore.new "directory" "uid"), [], [], ⟨0⟩⟩

def lending : Task (MemoryStore × MemoryStore) :=
  ⟨TaskConfig.new "lending", (MemoryStore.adapter "readers" true).first,
    (MemoryStore.adapter "directory" true).second, .ofTable []⟩

def readerPivots : List Pivot :=
  [readers.pivotFor "cn=lara" "1", readers.pivotFor "cn=milo" "1", readers.pivotFor "cn=nora" "2"]

lemma list_readers : readers.list = .ok readerPivots := by
  show Except.ok (readers.orderedPivots readers.entities) = _
  rw [orderedPivots, List.mergeSort_of_pairwise (by decide +kernel)]
  decide +kernel

lemma scope_lending : lending.scope [] .full foyer = (.ok readerPivots, foyer) := by
  have hlist : (lending.source.list foyer.stores).1 = .ok readerPivots := list_readers
  simp only [Task.scope, hlist]
  rfl

/-- The pass as the engine runs it. -/
def lendingPass : PassReport × Timed (Engine (MemoryStore × MemoryStore)) :=
  Engine.runPass lending (.ofKind lending.config .full readerPivots 0) ⟨0, ⟨[], foyer⟩⟩

theorem recalls_of_readers :
    readers.connectionLost = false ∧ readers.Recalls ∧
      ∃ trail q, Traced lending (.ofKind lending.config .full readerPivots 0, foyer) trail
          (q, lendingPass.2.state.world) ∧
        ∀ p ∈ readerPivots, ∃ e, readers.fetch p = .ok (some e) ∧ lending.Reconciled trail p e := by
  have hrecalls : readers.Recalls := recalls_of_connected rfl
  obtain ⟨log, q, time, -, hhistory, hreport⟩ := Engine.runPass_reports lending
    (.ofKind lending.config .full readerPivots 0) foyer 0
  obtain ⟨trail, htraced⟩ := hhistory.exists_traced
  refine ⟨rfl, hrecalls, trail, q, htraced, ?_⟩
  exact hrecalls.passes (Task.rooted_first _ _ _ _ _) rfl scope_lending htraced hreport
    (by decide +kernel)

/-- A pivot that does not lead back: that of the second of two entries with the same first pivot
value.  The pass completes, and the directory has no entry for it. -/
theorem astray_of_twins :
    readers.Reachable ∧ readers.connectionLost = false ∧ milo ∈ readers.entities ∧
      readers.pivotOf? milo = some (readers.pivotFor "cn=milo" "1") ∧
      readers.fetch (readers.pivotFor "cn=milo" "1") ≠ .ok (some milo) ∧
      (Engine.sync lending ⟨0, ⟨[], foyer⟩⟩).1.status = .completed ∧
      (Engine.sync lending ⟨0, ⟨[], foyer⟩⟩).2.state.world.stores.2.get? "cn=milo" = none := by
  have hsync : Engine.sync lending ⟨0, ⟨[], foyer⟩⟩ = lendingPass := by
    rw [Engine.sync_eq_conduct, Engine.conduct, scope_lending]
    rfl
  rw [hsync]
  have hfilled : readers.Filled := (Filled.empty rfl).insertAll _
  exact ⟨hfilled.reachable, rfl, by decide +kernel, by decide +kernel, by decide +kernel,
    by decide +kernel, by decide +kernel⟩

end MemoryStore

end StoreSync
