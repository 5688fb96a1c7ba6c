import StoreSync.Proofs.Cleaning
import StoreSync.Proofs.Errands
import StoreSync.Proofs.Update

/-!
# What becomes of a created entry

A unit that finds no counterpart for its pivot creates one.  The new entry holds what the policy
makes of the source's record, under the names of the write scope, and the destination looks for it
by its own pivot attribute.  Nothing makes the two meet: with an allow-list that leaves out the
pivot attribute, an entry is created that the destination does not find for the same pivot, and
every later pass tries to create it again.

* `Change.mem_values_made` says what a new entry holds, for any policy and evaluator;
* `MemoryStore.Gained.fetch` is what a fetch finds after a creation: the new entry, if it carries
  what is looked for (`MemoryStore.suits`), or what it found before;
* `Task.Errand.decided` is what a unit knows when it has decided to create an entry,
  `Pass.Planned.exists_known` the same for the plans of whole courses;
* `Engine.Course.creates`: what is created in a course of passes is created by a unit;
* `Task.recovers_of_backed` collects what is certain of created entries (`Task.Recovers`), and
  `Task.lost_of_transfer` is an entry that is not found again.
-/

namespace StoreSync

/-! ## What a new entry holds -/

namespace Change

variable {name text : String}

/-- The entry that a change creates. -/
def made (c : Change) : Entity := c.applyTo (.named c.identifier)

/-- What a created entry holds: what the policy makes of the source's record under the names in
scope, and nothing else. -/
theorem mem_values_made {r : Reconciler} {s : Entity} {plan : PlannedChange}
    (h : (r.planCreate s).result = .ok plan) :
    text ∈ plan.change.made.values name ↔
      ∃ n ∈ r.policy.writeScope (some s), Text.fold n = Text.fold name ∧
        text ∈ r.createdTexts s n := by
  obtain ⟨id, ops, hchange, hops⟩ := Reconciler.operations_of_planCreate h
  obtain ⟨f, rfl, hf⟩ := Reconciler.collectOperations_eq_ok hops
  have hshape : ∀ n ∈ r.policy.writeScope (some s), ∀ o, f n = some o →
      o.kind = .add ∧ o.target = n :=
    fun n hn o ho => (Reconciler.createOperation_eq_ok (hf n hn)).1 o ho
  have hadd : ∀ o ∈ (r.policy.writeScope (some s)).filterMap f, o.kind = .add := by
    intro o ho
    obtain ⟨n, hn, hfn⟩ := List.mem_filterMap.1 ho
    exact (hshape n hn o hfn).1
  have hnothing : text ∉ (Entity.named id).values name := by
    simp [Entity.values, Entity.attribute?, Entity.named]
  have hmade : plan.change.made =
      applyOperations ((r.policy.writeScope (some s)).filterMap f) (.named id) := by
    rw [hchange]
    rfl
  rw [hmade, mem_values_applyOperations hadd, or_iff_right hnothing]
  constructor
  · rintro ⟨o, ho, hname, htext⟩
    obtain ⟨n, hn, hfn⟩ := List.mem_filterMap.1 ho
    rw [(hshape n hn o hfn).2] at hname
    exact ⟨n, hn, hname, ((Reconciler.createOperation_eq_ok (hf n hn)).2 text).1 ⟨o, hfn, htext⟩⟩
  · rintro ⟨n, hn, hname, htext⟩
    obtain ⟨o, hfn, ho⟩ := ((Reconciler.createOperation_eq_ok (hf n hn)).2 text).2 htext
    refine ⟨o, List.mem_filterMap.2 ⟨n, hn, hfn⟩, ?_, ho⟩
    rw [(hshape n hn o hfn).2, hname]

end Change

/-! ## What a store finds after a creation -/

namespace MemoryStore

variable {s s' : MemoryStore} {c : Change} {now : Instant} {p : Pivot} {e : Entity}

/-- Whether an entity carries what is looked for on behalf of a pivot. -/
def suits (s : MemoryStore) (e : Entity) (p : Pivot) : Bool := s.carries e (s.wanted p)

lemma suits_congr (h : s'.pivotAttribute = s.pivotAttribute) (e : Entity) (p : Pivot) :
    s'.suits e p = s.suits e p := by
  simp only [suits, wanted, carries, h]

lemma found?_eq (s : MemoryStore) (p : Pivot) :
    s.found? p = s.records.entries.find? fun e => s.suits e.2 p := rfl

/-- A store does not answer that it has no entry while one is there that suits. -/
lemma fetch_ne_none {id : String} (hget : s.get? id = some e)
    (hsuits : s.suits e p = true) : s.fetch p ≠ .ok none := by
  intro hnone
  have hthere : (Text.fold id, e) ∈ s.records.entries := by
    rw [TextMap.mem_entries_iff, records, TextMap.get?_map]
    exact hget
  exact List.find?_eq_none.1 (found?_eq_none_of_fetch hnone) _ hthere hsuits

/-- What a store is after a creation. -/
structure Gained (c : Change) (s s' : MemoryStore) : Prop where
  free : s.records.get? (Text.fold c.identifier) = none
  records : s'.records = s.records.insert (Text.fold c.identifier) c.made
  pivotAttribute : s'.pivotAttribute = s.pivotAttribute
  connectionLost : s.connectionLost = false
  connectionLost' : s'.connectionLost = false

lemma gained_of_apply (h : s.apply c now = .ok s') (hkind : c.modification = .create) :
    Gained c s s' := by
  have htook := (took_of_apply h).rest
  have hlost := connectionLost_of_apply h
  have henact := enact_of_apply h
  simp only [Change.enact, hkind] at henact
  split at henact
  · simp at henact
  next hfree =>
    refine ⟨by simpa [TextMap.contains] using hfree, (Option.some.inj henact).symm, ?_, hlost, ?_⟩
    · rw [htook]
    · rw [htook, hlost]

lemma Gained.get? (h : Gained c s s') : s'.get? c.identifier = some c.made := by
  have hget : s'.records.get? (Text.fold c.identifier) = some c.made := by
    rw [h.records, TextMap.get?_insert_self]
  rwa [MemoryStore.records, TextMap.get?_map] at hget

lemma Gained.get?_of_ne (h : Gained c s s') {k : String} (hk : k ≠ Text.fold c.identifier) :
    s'.records.get? k = s.records.get? k := by
  rw [h.records, TextMap.get?_insert_of_ne _ hk.symm]

/-- A search finds the new entry, or what it found before. -/
lemma Gained.found? (h : Gained c s s') (p : Pivot) :
    s'.found? p = some (Text.fold c.identifier, c.made) ∨ s'.found? p = s.found? p := by
  by_cases hnew : ∃ e, s'.found? p = some (Text.fold c.identifier, e)
  · obtain ⟨e, hfound⟩ := hnew
    have hget := get?_of_found? hfound
    rw [h.records, TextMap.get?_insert_self] at hget
    rw [hfound, Option.some.inj hget]
    exact Or.inl rfl
  · refine Or.inr (Eq.symm ?_)
    simp only [found?_eq, suits_congr h.pivotAttribute] at hnew ⊢
    -- The other entries are the same, and the first match is one of them.
    refine TextMap.find?_entries_of_kept (P := fun e => s.suits e p) ?_ ?_
    · intro k e hget _
      rw [h.get?_of_ne, hget]
      rintro rfl
      rw [h.free] at hget
      simp at hget
    · intro k e hfirst
      have hget := (TextMap.mem_entries_iff _).1 (List.mem_of_find?_eq_some hfirst)
      rwa [h.get?_of_ne] at hget
      rintro rfl
      exact hnew ⟨e, hfirst⟩

lemma Gained.fetch (h : Gained c s s') (p : Pivot) :
    s'.fetch p = .ok (some c.made) ∧ s'.suits c.made p = true ∨ s'.fetch p = s.fetch p := by
  rw [fetch_eq h.connectionLost', fetch_eq h.connectionLost]
  rcases h.found? p with hnew | hold
  · exact Or.inl ⟨by simp [hnew], carries_of_found? hnew⟩
  · exact Or.inr (by rw [hold])

/-- If nothing was found before a creation, the new entry is found exactly if it suits. -/
lemma Gained.fetch_of_none (h : Gained c s s') (hnone : s.fetch p = .ok none) :
    s'.fetch p = .ok (if s'.suits c.made p then some c.made else none) := by
  rcases h.fetch p with ⟨hnew, hsuits⟩ | hold
  · rw [hnew, if_pos hsuits]
  · have hnot : ¬ s'.suits c.made p = true := fun hsuits =>
      fetch_ne_none h.get? hsuits (hold.trans hnone)
    rw [hold, hnone, if_neg hnot]

/-- If the new entry suits, it is found, or another one that was found before. -/
lemma Gained.fetch_of_suits (h : Gained c s s') (hsuits : s'.suits c.made p = true) :
    ∃ e, s'.fetch p = .ok (some e) ∧ (e = c.made ∨ s.fetch p = .ok (some e)) := by
  rcases h.fetch p with ⟨hnew, -⟩ | hold
  · exact ⟨c.made, hnew, Or.inl rfl⟩
  · have hnot := fetch_ne_none h.get? hsuits
    rw [fetch_eq h.connectionLost'] at hnot hold ⊢
    cases hfound : (s'.found? p).map (·.2) with
    | none => simp [hfound] at hnot
    | some e => exact ⟨e, rfl, Or.inr (by rw [← hold, hfound])⟩

/-- The entry is not created twice. -/
lemma Gained.exists_error (h : Gained c s s') (hkind : c.modification = .create) (now : Instant) :
    ∃ e, s'.apply c now = .error e := by
  cases happly : s'.apply c now with
  | error e => exact ⟨e, rfl⟩
  | ok s'' =>
    have hfree := (gained_of_apply happly hkind).free
    rw [h.records, TextMap.get?_insert_self] at hfree
    simp at hfree

end MemoryStore

/-! ## Units that create an entry -/

namespace Task

lemma answer_of_checkDestination_none {σ : Type} {t : Task σ} {p : Pivot}
    {answer : Except StoreError (Option Entity)} (h : t.checkDestination p answer = .ok none) :
    answer = .ok none := by
  unfold checkDestination at h
  split at h
  · simp at h
  · split at h <;> simp at h
  · rfl

end Task

namespace Pass

variable {σ : Type} {t : Task σ} {trail : Trail σ} {w : World σ} {p : Pivot} {b : Bindings}
  {planned : PlannedChange} {known : Entity}

/-- A creation is planned for a record that the source has answered, and that the destination has
no counterpart of. -/
lemma Planned.exists_known (h : Planned t trail w p b planned)
    (hkind : planned.change.modification = .create) :
    ∃ known, (∃ x ∈ trail, (t.source.answerFetch p x.1.stores).1 = .ok (some known)) ∧
      (t.destination.answerFetch p w.stores).1 = .ok none ∧
      (t.planSync p (some known) none).result = .ok (some planned) := by
  cases h with
  | @sync known s d _ hsource hdestination hprepared hplan =>
    rcases Reconciler.change_of_computeChange hplan with
      ⟨rfl, -⟩ | ⟨e, id, -, -, ⟨ops, hchange⟩ | ⟨new, hchange⟩⟩
    · exact ⟨known, hsource, Task.answer_of_checkDestination_none hdestination,
        Asked.result_bind_eq_ok.2 ⟨s, hprepared, hplan⟩⟩
    · simp [hchange, Change.update] at hkind
    · simp [hchange, Change.rename] at hkind
  | clean _ _ hplan | gone _ hplan =>
    simp [Task.change_of_planClean hplan, Change.delete] at hkind

/-- As long as the source answers the same record and the destination none, the plan is the
same. -/
lemma Planned.planSync (h : Planned t trail w p b planned)
    (hknown : ∀ x ∈ trail, (t.source.answerFetch p x.1.stores).1 = .ok (some known))
    (hnow : (t.source.answerFetch p w.stores).1 = .ok (some known))
    (hnone : (t.destination.answerFetch p w.stores).1 = .ok none) :
    (t.planSync p (some known) none).result = .ok (some planned) := by
  cases h with
  | @sync known' s d _ hsource hdestination hprepared hplan =>
    obtain ⟨x, hx, hanswer⟩ := hsource
    obtain rfl : known' = known := by simpa [hknown x hx] using hanswer.symm
    obtain rfl : d = none := by simpa [hnone, Task.checkDestination] using hdestination.symm
    exact Asked.result_bind_eq_ok.2 ⟨s, hprepared, hplan⟩
  | clean hsource _ _ =>
    obtain ⟨x, hx, hanswer⟩ := hsource
    simp [hknown x hx] at hanswer
  | gone hsource _ => simp [hnow] at hsource

end Pass

namespace Task

variable {σ : Type} {t : Task σ} {clean : Bool} {p : Pivot} {legs : List (Leg σ)} {j : Job}
  {part : σ → MemoryStore} {c : Change} {x : Leg σ} {known : Entity}

lemma Backed.answerFetch (h : t.Backed part) (p : Pivot) (stores : σ) :
    (t.destination.answerFetch p stores).1 = (part stores).fetch p := by
  obtain ⟨name, feed, replace, hdestination, -⟩ := h.destination
  rw [hdestination]
  rfl

lemma Backed.apply_of_taken (h : t.Backed part) {time : Instant} {stores : σ}
    (htaken : (t.destination.apply c time stores).1 = .ok true) :
    (part stores).apply c time = .ok (part (t.destination.apply c time stores).2) := by
  rcases h.apply c time stores with ⟨e, hanswer, -⟩ | ⟨-, happly⟩
  · simp [htaken] at hanswer
  · exact happly

lemma Errand.grounded (h : t.Errand clean p legs j) :
    Pass.Grounded t (legs.map fun x => (x.found, x.events)) clean j := by
  induction h with
  | new => simp [Pass.Grounded, Job.new]
  | step _ hstep ih => simpa using grounded_of_unitStep ih hstep

/-- The step in which a change is taken is the last one of its unit. -/
lemma Errand.applied (h : t.Errand clean p legs j) (hbacked : t.Backed part) (hx : x ∈ legs)
    (htaken : .answered p c (.ok true) ∈ x.events) :
    j.phase = .ended ∧ ∃ earlier j₀, legs = earlier ++ [x] ∧ t.Errand clean p earlier j₀ ∧
      j₀.phase = .applying c ∧
        ∃ now, (part x.found.stores).apply c now = .ok (part x.left.stores) := by
  induction h with
  | new => simp at hx
  | @step legs j j' now l l' w w' hbefore hstep ih =>
    rcases List.mem_append.1 hx with hx | hx
    · exact absurd hstep (unitStep_of_ended (ih hx).1)
    · obtain rfl := List.mem_singleton.1 hx
      obtain ⟨hphase, -⟩ := applying_of_answered htaken
      obtain ⟨rfl, hstores⟩ := carried_of_unitStep hphase hstep
      have hanswer : (t.destination.apply c (w.epoch.addMilliseconds now) w.stores).1 =
          .ok true := by
        simp only [unitEvents, hphase, List.mem_cons, Event.answered.injEq, reduceCtorEq,
          List.not_mem_nil, or_false, true_and] at htaken
        exact htaken.2.symm
      have happlied := hbacked.apply_of_taken hanswer
      rw [← hstores] at happlied
      exact ⟨by simp [hanswer, checkApplied, Phase.after], legs, j, rfl, hbefore, hphase, _,
        happlied⟩

/-- A unit for the pivot creates an entry in one of its steps. -/
structure Creates (t : Task σ) (p : Pivot) (legs : List (Leg σ)) (c : Change) (x : Leg σ) :
    Prop where
  errand : ∃ clean j, t.Errand clean p legs j
  step : x ∈ legs
  taken : .answered p c (.ok true) ∈ x.events
  kind : c.modification = .create

/-- What a unit knows when it has decided to create an entry: the source's record, and that the
destination had no counterpart of it. -/
structure Decided (t : Task σ) (part : σ → MemoryStore) (p : Pivot) (legs : List (Leg σ))
    (c : Change) (known : Entity) : Prop where
  source : ∃ y ∈ legs, (t.source.answerFetch p y.found.stores).1 = .ok (some known)
  missing : ∃ y ∈ legs, (part y.found.stores).fetch p = .ok none
  plan : (t.planSync p (some known) none).result = .ok (some ⟨c, true⟩)
  spares : ∀ y ∈ legs, Spares part y

lemma Errand.decided (h : t.Errand clean p legs j) (hbacked : t.Backed part)
    (hphase : j.phase = .applying c) (hkind : c.modification = .create) :
    ∃ known, t.Decided part p legs c known := by
  have hgrounded := h.grounded
  simp only [Pass.Grounded, hphase, h.pivot] at hgrounded
  obtain ⟨-, b, before, turn, after, htrail, -, hplanned⟩ := hgrounded
  have hleg : ∀ turn' ∈ before ++ [turn], ∃ y ∈ legs, y.found = turn'.1 := by
    intro turn' hturn'
    have hmem : turn' ∈ legs.map fun x => (x.found, x.events) := by
      rw [htrail]
      rcases List.mem_append.1 hturn' with hturn' | hturn' <;> simp_all
    obtain ⟨y, hy, rfl⟩ := List.mem_map.1 hmem
    exact ⟨y, hy, rfl⟩
  obtain ⟨known, ⟨turn', hturn', hsource⟩, hmissing, hplan⟩ := hplanned.exists_known hkind
  obtain ⟨y, hy, hfound⟩ := hleg turn' (by simp [hturn'])
  obtain ⟨y', hy', hfound'⟩ := hleg turn (by simp)
  refine ⟨known, ⟨y, hy, hfound ▸ hsource⟩, ⟨y', hy', ?_⟩, hplan, ?_⟩
  · rw [← hbacked.answerFetch, hfound']
    exact hmissing
  · cases h.trodden hbacked with
    | under _ hspares _ => exact hspares
    | through hended | changed hended => simp [hphase] at hended

end Task

/-! ## The units of passes -/

namespace Pass

variable {σ : Type} {t : Task σ} {now : Nat} {events : List Event} {p : Pass} {w : World σ}
  {z : Pass × World σ} {q : Pivot} {c : Change} {answer : Except StoreError Bool}

/-- The units that wait are new, and those that run have come as far as their steps. -/
structure Staffed (t : Task σ) (p : Pass) : Prop where
  queued : ∀ j ∈ p.pool.queue, j = .new j.pivot
  running : ∀ j, .running j ∈ p.pool.workers → ∃ legs, t.Errand p.isClean j.pivot legs j

lemma staffed_of_isNew {pivots : List Pivot} (h : IsNew pivots p) : Staffed t p := by
  refine ⟨by simp [h.queue], fun j hj => ?_⟩
  simpa using h.workers _ hj

lemma Act.staffed (h : Act t now p w events z) (hp : Staffed t p) : Staffed t z.1 := by
  cases h with
  | submit =>
    refine ⟨fun j hj => ?_, hp.running⟩
    rcases List.mem_append.1 hj with hj | hj
    · exact hp.queued j hj
    · rw [List.mem_singleton.1 hj]
      rfl
  | drop _ hpool _ =>
    rcases hpool with rfl | ⟨-, rfl⟩ <;> exact ⟨hp.queued, hp.running⟩
  | await | close | expire | giveUp => exact ⟨hp.queued, hp.running⟩
  | stop => exact ⟨hp.queued, forall_running_set hp.running (by simp)⟩
  | @take k j rest _ _ hqueue =>
    refine ⟨fun i hi => hp.queued i (hqueue ▸ List.mem_cons_of_mem _ hi),
      forall_running_set hp.running fun i hi => ?_⟩
    obtain rfl := Worker.running.inj hi
    have hnew : j = .new j.pivot := hp.queued j (hqueue ▸ List.mem_cons_self)
    exact ⟨[], hnew ▸ .new⟩
  | @go k j j' l' w' hrunning hstep =>
    refine ⟨hp.queued, forall_running_set hp.running fun i hi => ?_⟩
    obtain rfl := Worker.running.inj hi
    obtain ⟨legs, herrand⟩ := hp.running j (List.mem_of_getElem? hrunning)
    rw [Task.pivot_of_unitStep hstep]
    exact ⟨_, herrand.step hstep⟩
  | leave =>
    refine ⟨?_, ?_⟩
    · dsimp only [Pool.setWorker]
      split <;> exact hp.queued
    · refine forall_running_set (y := .idle) ?_ (by simp)
      split <;> exact hp.running

/-- A change that the destination takes in a turn is the last step of a unit. -/
lemma Act.exists_errand (h : Act t now p w events z) (hp : Staffed t p)
    (htaken : .answered q c answer ∈ events) :
    ∃ legs j, t.Errand p.isClean q (legs ++ [⟨w, events, z.2⟩]) j := by
  cases h with
  | @go k j j' l' w' hrunning hstep =>
    obtain ⟨-, rfl⟩ := Task.applying_of_answered htaken
    obtain ⟨legs, herrand⟩ := hp.running j (List.mem_of_getElem? hrunning)
    exact ⟨legs, j', herrand.step hstep⟩
  | _ => simp at htaken

/-- What the destination answers in a turn is its answer to the change. -/
lemma Act.answered (h : Act t now p w events z) (hanswered : .answered q c answer ∈ events) :
    ∃ time, answer = (t.destination.apply c time w.stores).1 := by
  cases h with
  | @go k j j' l' w' hrunning hstep =>
    obtain ⟨hphase, -⟩ := Task.applying_of_answered hanswered
    simp only [Task.unitEvents, hphase, List.mem_cons, Event.answered.injEq, reduceCtorEq,
      List.not_mem_nil, or_false] at hanswered
    exact ⟨_, hanswered.2.2⟩
  | _ => simp at hanswered

end Pass

namespace Engine

open Pass

variable {σ : Type} {t : Task σ} {trail : Trail σ} {x y : Engine σ} {q : Pivot} {c : Change}

lemma Course.staffed (h : Course t x trail y) (hx : x.passes = []) :
    ∀ p ∈ y.passes, Staffed t p := by
  induction h with
  | refl => simp [hx]
  | @turn trail passes rest p p' w w' events now _ hturn ih =>
    intro r hr
    simp only [List.mem_append, List.mem_cons] at hr
    rcases hr with hr | rfl | hr
    · exact ih r (by simp [hr])
    · exact (act_of_happens hturn).staffed (ih p (by simp))
    · exact ih r (by simp [hr])
  | start _ _ ih =>
    intro r hr
    rcases List.mem_cons.1 hr with rfl | hr
    · exact staffed_of_isNew (isNew_ofKind _ _ _ _)
    · exact ih r hr
  | early _ _ ih => exact ih
  | query _ _ ih => exact ih
  | forget _ hpasses ih => exact fun r hr => ih r (hpasses.subset hr)

lemma Course.answered {answer : Except StoreError Bool} (h : Course t x trail y) :
    ∀ turn ∈ trail, .answered q c answer ∈ turn.2 →
      ∃ time, answer = (t.destination.apply c time turn.1.stores).1 := by
  induction h with
  | refl => simp
  | turn _ hturn ih =>
    intro turn hmem hanswered
    rcases List.mem_append.1 hmem with hmem | hmem
    · exact ih turn hmem hanswered
    · obtain rfl := List.mem_singleton.1 hmem
      exact (act_of_happens hturn).answered hanswered
  | start _ _ ih => exact ih
  | early _ _ ih => exact ih
  | query _ _ ih => exact ih
  | forget _ _ ih => exact ih

/-- What is created in a course of passes is created by a unit. -/
lemma Course.creates {passes rest : List Pass} {p p' : Pass} {w w' : World σ}
    {events : List Event} {now : Nat} (h : Course t x trail ⟨passes ++ p :: rest, w⟩)
    (hx : x.passes = []) (hturn : Happens t now (p, w) events (p', w'))
    (htaken : .answered q c (.ok true) ∈ events) (hkind : c.modification = .create) :
    ∃ legs, t.Creates q (legs ++ [⟨w, events, w'⟩]) c ⟨w, events, w'⟩ := by
  have hstaffed : Staffed t p := h.staffed hx p (by simp)
  obtain ⟨legs, j, herrand⟩ := (act_of_happens hturn).exists_errand hstaffed htaken
  exact ⟨legs, ⟨_, _, herrand⟩, by simp, htaken, hkind⟩

end Engine

/-! ## Entries that are found again -/

/-- The policy has an attribute of a source record written, and no values in its place. -/
def Policy.Copies (policy : Policy) (known : Entity) (name : String) : Prop :=
  ∃ n ∈ policy.writeScope (some known), Text.fold n = Text.fold name ∧
    ∀ a, policy.attribute? n = some a → a.forceValues = []

namespace Task

variable {σ : Type} {t : Task σ} {clean : Bool} {p : Pivot} {legs : List (Leg σ)} {j : Job}
  {part origin : σ → MemoryStore} {c : Change} {x : Leg σ} {s s' : MemoryStore} {known : Entity}

/-- The source is a memory store. -/
def Draws (t : Task σ) (origin : σ → MemoryStore) : Prop :=
  ∃ name feed replace, t.source = (MemoryStore.adapter name feed).within origin replace

lemma Draws.answerFetch (h : t.Draws origin) (p : Pivot) (stores : σ) :
    (t.source.answerFetch p stores).1 = (origin stores).fetch p := by
  obtain ⟨name, feed, replace, hsource⟩ := h
  rw [hsource]
  rfl

lemma attributes_of_prepareSource {r : Reconciler} {known s : Entity}
    (h : (r.prepareSource known).result = .ok s) : s.attributes = known.attributes := by
  unfold Reconciler.prepareSource at h
  split at h
  · simp at h
    rw [h]
  · obtain ⟨id, -, h⟩ := Asked.result_bind_eq_ok.1 h
    cases id with
    | some id => rw [← Except.ok.inj h]
    | none => rw [Except.ok.inj h]

/-- A creation comes from a decision, and is what the destination has gained. -/
lemma Creates.decided (h : t.Creates p legs c x) (hbacked : t.Backed part) :
    ∃ earlier known, legs = earlier ++ [x] ∧ t.Decided part p earlier c known ∧
      MemoryStore.Gained c (part x.found.stores) (part x.left.stores) := by
  obtain ⟨clean, j, herrand⟩ := h.errand
  obtain ⟨-, earlier, j₀, hlegs, hearlier, hphase, now, happly⟩ :=
    herrand.applied hbacked h.step h.taken
  obtain ⟨known, hdecided⟩ := hearlier.decided hbacked hphase h.kind
  exact ⟨earlier, known, hlegs, hdecided, MemoryStore.gained_of_apply happly h.kind⟩

/-- What the entry holds that was decided on. -/
lemma Decided.values (h : t.Decided part p legs c known) :
    ∃ s, (t.reconciler.prepareSource known).result = .ok s ∧
      ∀ name text, text ∈ c.made.values name ↔
        ∃ n ∈ t.config.policy.writeScope (some s), Text.fold n = Text.fold name ∧
          text ∈ t.reconciler.createdTexts s n := by
  obtain ⟨s, hprepared, hcompute⟩ := Asked.result_bind_eq_ok.1 h.plan
  obtain ⟨plan, hplan, heq⟩ := Asked.result_bind_eq_ok.1 hcompute
  obtain rfl : plan = ⟨c, true⟩ := by simpa using heq
  exact ⟨s, hprepared, fun name text => Change.mem_values_made hplan⟩

/-- An attribute that the policy copies is in the new entry as the source has it. -/
lemma Decided.copied (h : t.Decided part p legs c known) {name text : String}
    (hcopies : t.config.policy.Copies known name) (hne : text ≠ "")
    (htext : text ∈ known.values name) : text ∈ c.made.values name := by
  obtain ⟨s, hprepared, hvalues⟩ := h.values
  have hattributes := attributes_of_prepareSource hprepared
  obtain ⟨n, hn, hname, hforce⟩ := hcopies
  refine (hvalues name text).2 ⟨n, ?_, hname, Reconciler.givenTexts_subset_createdTexts ?_⟩
  · simpa [Policy.writeScope, Entity.attributeNames, Entity.attributeList, hattributes] using hn
  · have hheld : text ∈ s.heldTexts n := by
      obtain ⟨a, ha, htext⟩ := Entity.mem_values_iff.1 htext
      have hsame : s.attribute? n = some a := by
        rw [Entity.attribute?, hattributes, hname]
        exact ha
      rw [Entity.heldTexts_eq, hsame, Attribute.mem_heldTexts_some]
      exact ⟨hne, htext⟩
    unfold Reconciler.givenTexts
    cases hpolicy : t.reconciler.policy.attribute? n with
    | none => exact hheld
    | some a => simpa [hforce a hpolicy] using hheld

/-- What is certain of the entries that the units of a task create in a memory store. -/
structure Recovers (t : Task σ) (part : σ → MemoryStore) : Prop where
  /-- The destination has the entry. -/
  there : ∀ {p legs c x}, t.Creates p legs c x →
    (part x.left.stores).get? c.identifier = some c.made
  /-- The entry holds what the policy makes of the record that the source has answered: for every
  name in the write scope the forced values or those of the source, then the creation values and
  the default values. -/
  holds : ∀ {p legs c x}, t.Creates p legs c x → ∃ known s,
    (∃ y ∈ legs, (t.source.answerFetch p y.found.stores).1 = .ok (some known)) ∧
      (t.reconciler.prepareSource known).result = .ok s ∧
      ∀ name text, text ∈ c.made.values name ↔
        ∃ n ∈ t.config.policy.writeScope (some s), Text.fold n = Text.fold name ∧
          text ∈ t.reconciler.createdTexts s n
  /-- If the entry suits, it is found, or another one that was there before it. -/
  found : ∀ {p legs c x}, t.Creates p legs c x → (part x.left.stores).suits c.made p = true →
    ∃ e, (part x.left.stores).fetch p = .ok (some e) ∧
      (e = c.made ∨ (part x.found.stores).fetch p = .ok (some e))
  /-- If the entry suits, no pass of whatever task plans to create one again, as long as the entry
  is there. -/
  once : ∀ {p legs c x}, t.Creates p legs c x → (part x.left.stores).suits c.made p = true →
    ∀ {t' : Task σ} {before after : Engine σ} {trail}, t'.Backed part →
      Engine.Course t' before trail after → before.passes = [] → ∀ turn ∈ trail,
        (part turn.1.stores).get? c.identifier = some c.made →
        (part turn.1.stores).pivotAttribute = (part x.left.stores).pivotAttribute →
        ∀ planned, .computed p planned ∈ turn.2 → planned.change.modification ≠ .create
  /-- If nobody else touches the destination, the entry is found exactly if it suits. -/
  alone : ∀ {p legs c x s s'}, t.Creates p legs c x → Alone part s legs s' →
    s'.fetch p = .ok (if s'.suits c.made p then some c.made else none)
  /-- If the entry does not suit, passes over the same stores plan to create it again, and the
  destination refuses. -/
  again : ∀ {p legs c x s s'}, t.Creates p legs c x → Alone part s legs s' →
    s'.suits c.made p = false →
    ∀ {before after : Engine σ} {trail}, Engine.Course t before trail after → before.passes = [] →
      (∀ turn ∈ trail, part turn.1.stores = s' ∧ ∀ y ∈ legs,
        (t.source.answerFetch p turn.1.stores).1 = (t.source.answerFetch p y.found.stores).1) →
      ∀ turn ∈ trail, (∀ planned, .computed p planned ∈ turn.2 → planned = ⟨c, true⟩) ∧
        ∀ c' answer, .answered p c' answer ∈ turn.2 → c' = c ∧ ∃ e, answer = .error e
  /-- In particular an entry suits if the two stores have one pivot attribute, and the policy copies
  it. -/
  kept : ∀ {p legs c x}, t.Creates p legs c x → ∀ {origin}, t.Draws origin →
    (∀ y ∈ legs, (origin y.found.stores).pivotAttribute = (part x.left.stores).pivotAttribute ∧
      ∀ known, (origin y.found.stores).fetch p = .ok (some known) →
        t.config.policy.Copies known (part x.left.stores).pivotAttribute) →
    (part x.left.stores).wanted p ≠ "" → (part x.left.stores).suits c.made p = true
  /-- All this is about passes, too: what they create in any course is created by a unit. -/
  passes : ∀ {p c} {before : Engine σ} {trail passes rest now pass pass' w w' events},
    Engine.Course t before trail ⟨passes ++ pass :: rest, w⟩ → before.passes = [] →
    Pass.Happens t now (pass, w) events (pass', w') → .answered p c (.ok true) ∈ events →
    c.modification = .create → ∃ legs, t.Creates p (legs ++ [⟨w, events, w'⟩]) c ⟨w, events, w'⟩

/-- Without anybody else, the destination has had no counterpart until the creation. -/
lemma Decided.alone (h : t.Decided part p legs c known) (halone : Alone part s (legs ++ [x]) s') :
    part x.found.stores = s ∧ s' = part x.left.stores ∧ s.fetch p = .ok none := by
  obtain ⟨hfound, rfl⟩ := halone.last h.spares
  obtain ⟨y, hy, hmissing⟩ := h.missing
  rw [halone.init.1.found h.spares y hy] at hmissing
  exact ⟨hfound, rfl, hmissing⟩

/-- Over the stores that it was decided on, nothing else is planned. -/
lemma Decided.planned (h : t.Decided part p legs c known) (hbacked : t.Backed part)
    {before after : Engine σ} {trail : Trail σ} (hcourse : Engine.Course t before trail after)
    (hnew : before.passes = [])
    (hunchanged : ∀ turn ∈ trail, part turn.1.stores = s ∧
      (t.source.answerFetch p turn.1.stores).1 = .ok (some known))
    (hmissing : s.fetch p = .ok none) :
    ∀ turn ∈ trail, ∀ {planned}, .computed p planned ∈ turn.2 → planned = ⟨c, true⟩ := by
  intro turn hturn planned hcomputed
  obtain ⟨earlier, later, rfl⟩ := List.append_of_mem hturn
  obtain ⟨b, hplanned⟩ := (hcourse.lawful hnew rfl).computed p planned hcomputed
  have hplan := hplanned.planSync (fun y hy => (hunchanged y (by simp [hy])).2)
    (hunchanged turn hturn).2 (by rw [hbacked.answerFetch, (hunchanged turn hturn).1, hmissing])
  rw [h.plan] at hplan
  simpa using hplan.symm

/-- Over those stores, too, a destination that refuses the change does so whenever it is asked. -/
lemma Decided.refused (h : t.Decided part p legs c known) (hbacked : t.Backed part)
    {before after : Engine σ} {trail : Trail σ} (hcourse : Engine.Course t before trail after)
    (hnew : before.passes = [])
    (hunchanged : ∀ turn ∈ trail, part turn.1.stores = s ∧
      (t.source.answerFetch p turn.1.stores).1 = .ok (some known))
    (hmissing : s.fetch p = .ok none) (hrefuses : ∀ time, ∃ e, s.apply c time = .error e) :
    ∀ turn ∈ trail, ∀ {c' answer}, .answered p c' answer ∈ turn.2 →
      c' = c ∧ ∃ e, answer = .error e := by
  intro turn hturn c' answer hanswered
  obtain ⟨earlier, later, htrail⟩ := List.append_of_mem hturn
  obtain ⟨-, b, hcomputed⟩ := (hcourse.lawful hnew htrail).applied p c' answer hanswered
  obtain ⟨earlier', turn', later', rfl, hmem, -⟩ := hcomputed
  have hplanned := h.planned hbacked hcourse hnew hunchanged hmissing turn' (by simp [htrail]) hmem
  obtain rfl : c' = c := by simpa using hplanned
  obtain ⟨time, rfl⟩ := hcourse.answered turn hturn hanswered
  refine ⟨rfl, ?_⟩
  rcases hbacked.apply c' time turn.1.stores with ⟨e, he, -⟩ | ⟨-, happly⟩
  · exact ⟨e, he⟩
  · obtain ⟨e, he⟩ := hrefuses time
    rw [(hunchanged turn hturn).1, he] at happly
    simp at happly

/-- With the pivot attribute of the source copied, an entry carries what a store with the same pivot
attribute looks for. -/
lemma Decided.suits (h : t.Decided part p legs c known) {origin : σ → MemoryStore}
    (hdraws : t.Draws origin)
    (hcopied : ∀ y ∈ legs, (origin y.found.stores).pivotAttribute = s.pivotAttribute ∧
      ∀ known, (origin y.found.stores).fetch p = .ok (some known) →
        t.config.policy.Copies known s.pivotAttribute)
    (hne : s.wanted p ≠ "") : s.suits c.made p = true := by
  obtain ⟨y, hy, hsource⟩ := h.source
  obtain ⟨hattribute, hcopies⟩ := hcopied y hy
  rw [hdraws.answerFetch] at hsource
  obtain ⟨k, hfound⟩ := MemoryStore.found?_of_fetch hsource
  have hknown : s.suits known p = true := by
    rw [← MemoryStore.suits_congr hattribute]
    exact MemoryStore.carries_of_found? hfound
  obtain ⟨text, htext, hagrees⟩ := List.any_eq_true.1 hknown
  refine List.any_eq_true.2 ⟨text, h.copied (hcopies known hsource) ?_ htext, hagrees⟩
  rintro rfl
  exact hne (Text.eq_empty_of_sameFolded hagrees)

/-- **A created entry is found again exactly if it carries what the destination looks for.** -/
theorem recovers_of_backed (h : t.Backed part) : t.Recovers part where
  there := by
    intro p legs c x hcreates
    obtain ⟨-, -, -, -, hgained⟩ := hcreates.decided h
    exact hgained.get?
  holds := by
    intro p legs c x hcreates
    obtain ⟨earlier, known, rfl, hdecided, -⟩ := hcreates.decided h
    obtain ⟨s, hprepared, hvalues⟩ := hdecided.values
    obtain ⟨y, hy, hsource⟩ := hdecided.source
    exact ⟨known, s, ⟨y, by simp [hy], hsource⟩, hprepared, hvalues⟩
  found := by
    intro p legs c x hcreates hsuits
    obtain ⟨-, -, -, -, hgained⟩ := hcreates.decided h
    exact hgained.fetch_of_suits hsuits
  once := by
    intro p legs c x hcreates hsuits t' before after trail hbacked hcourse hnew turn hturn hthere
      hattribute planned hcomputed hkind
    obtain ⟨earlier, later, htrail⟩ := List.append_of_mem hturn
    obtain ⟨b, hplanned⟩ := (hcourse.lawful hnew htrail).computed p planned hcomputed
    obtain ⟨known, -, hnone, -⟩ := hplanned.exists_known hkind
    rw [hbacked.answerFetch] at hnone
    rw [← MemoryStore.suits_congr hattribute] at hsuits
    exact MemoryStore.fetch_ne_none hthere hsuits hnone
  alone := by
    intro p legs c x s s' hcreates halone
    obtain ⟨earlier, known, rfl, hdecided, hgained⟩ := hcreates.decided h
    obtain ⟨rfl, rfl, hnone⟩ := hdecided.alone halone
    exact hgained.fetch_of_none hnone
  again := by
    intro p legs c x s s' hcreates halone hsuits before after trail hcourse hnew hsame
    obtain ⟨earlier, known, rfl, hdecided, hgained⟩ := hcreates.decided h
    obtain ⟨rfl, rfl, hnone⟩ := hdecided.alone halone
    have hmissing : (part x.left.stores).fetch p = .ok none := by
      rw [hgained.fetch_of_none hnone, hsuits]
      rfl
    have hunchanged : ∀ turn ∈ trail, part turn.1.stores = part x.left.stores ∧
        (t.source.answerFetch p turn.1.stores).1 = .ok (some known) := by
      intro turn hturn
      obtain ⟨y, hy, hsource⟩ := hdecided.source
      obtain ⟨hpart, hanswer⟩ := hsame turn hturn
      exact ⟨hpart, (hanswer y (by simp [hy])).trans hsource⟩
    exact fun turn hturn =>
      ⟨fun _ => hdecided.planned h hcourse hnew hunchanged hmissing turn hturn,
        fun _ _ => hdecided.refused h hcourse hnew hunchanged hmissing
          (hgained.exists_error hcreates.kind) turn hturn⟩
  kept := by
    intro p legs c x hcreates origin hdraws hcopied hne
    obtain ⟨earlier, known, rfl, hdecided, -⟩ := hcreates.decided h
    exact hdecided.suits hdraws (fun y hy => hcopied y (by simp [hy])) hne
  passes := fun hcourse hnew hturn htaken hkind => hcourse.creates hnew hturn htaken hkind

/-! ### A patient who is moved with or without the case number -/

/-- The change by which an entry was created for a pivot. -/
def creation? (p : Pivot) : Event → Option Change
  | .answered q c (.ok true) => if q = p ∧ c.modification = .create then some c else none
  | _ => none

lemma Errand.creates (h : t.Errand clean p legs j) (hx : x ∈ legs)
    (hc : c ∈ x.events.filterMap (creation? p)) : t.Creates p legs c x := by
  obtain ⟨event, hevent, hcreation⟩ := List.mem_filterMap.1 hc
  unfold creation? at hcreation
  split at hcreation
  · split at hcreation
    next hboth =>
      obtain ⟨rfl, hkind⟩ := hboth
      obtain rfl := Option.some.inj hcreation
      exact ⟨⟨clean, j, h⟩, hx, hevent, hkind⟩
    · simp at hcreation
  · simp at hcreation

def intake : MemoryStore :=
  (MemoryStore.new "intake" "case").insertAll
    [(Entity.putAll (.named "cn=Eve") [("case", [.integer 7]), ("room", [.string "12b"])], ⟨0⟩)]

def ward : MemoryStore := MemoryStore.new "ward" "case"

/-- Nothing is written but what is allowed. -/
def transfer (allowed : List String) : Task (MemoryStore × MemoryStore) :=
  ⟨{ TaskConfig.new "transfer" with
      policy := { Policy.empty with writeAttributes := some allowed } },
    (MemoryStore.adapter "intake" true).first, (MemoryStore.adapter "ward" true).second,
    .ofTable []⟩

def eve : Pivot := intake.pivotFor "cn=Eve" "7"

/-- The unit of the patient, on its own, in stores that hold the patient or not. -/
def bring (allowed : List String) (stores : MemoryStore × MemoryStore) :
    List (Leg (MemoryStore × MemoryStore)) × Job × World (MemoryStore × MemoryStore) :=
  (transfer allowed).attend false 7 (.new eve) (.new none) ⟨stores, [], [], ⟨0⟩⟩

/-- The new entry with the room and the case number, under another name in capital letters. -/
def arrival : Change :=
  .create "cn=Eve" [⟨.add, "room", [.string "12b"]⟩, ⟨.add, "CASE", [.integer 7]⟩]

theorem recovers_of_transfer :
    (transfer ["room", "CASE"]).Recovers Prod.snd ∧
      (bring ["room", "CASE"] (intake, ward)).2.2.stores.2.fetch eve = .ok (some arrival.made) := by
  have hrecovers : (transfer ["room", "CASE"]).Recovers Prod.snd :=
    recovers_of_backed (backed_second _ (MemoryStore.adapter "intake" true) _ _ _)
  have herrand : (transfer ["room", "CASE"]).Errand false eve
      (bring ["room", "CASE"] (intake, ward)).1 (bring ["room", "CASE"] (intake, ward)).2.1 :=
    Errand.new.attend 7 (.new none) ⟨(intake, ward), [], [], ⟨0⟩⟩
  have halone : Alone Prod.snd ward (bring ["room", "CASE"] (intake, ward)).1
      (bring ["room", "CASE"] (intake, ward)).2.2.stores.2 :=
    Alone.attend (w := ⟨(intake, ward), [], [], ⟨0⟩⟩) .new _ false 7 (.new eve) (.new none)
  obtain ⟨x, hx, hc⟩ : ∃ x ∈ (bring ["room", "CASE"] (intake, ward)).1,
      arrival ∈ x.events.filterMap (creation? eve) := by decide +kernel
  refine ⟨hrecovers, ?_⟩
  rw [hrecovers.alone (herrand.creates hx hc) halone, if_pos (by decide +kernel)]

/-- The change that was computed for a pivot. -/
def planned? (p : Pivot) : Event → Option PlannedChange
  | .computed q planned => if q = p then some planned else none
  | _ => none

lemma computed_of_mem {events : List Event} {planned : PlannedChange}
    (h : planned ∈ events.filterMap (planned? p)) : .computed p planned ∈ events := by
  obtain ⟨event, hevent, hplanned⟩ := List.mem_filterMap.1 h
  cases event with
  | computed q planned' =>
    obtain ⟨rfl, heq⟩ := Option.ite_none_right_eq_some.1 hplanned
    rwa [← Option.some.inj heq]
  | _ => simp [planned?] at hplanned

/-- Without the case number the new entry is not found, and over the same stores its creation is
planned again. -/
theorem lost_of_transfer :
    eve ∈ intake.pivots ∧
      ∃ c x, (transfer ["room"]).Creates eve (bring ["room"] (intake, ward)).1 c x ∧
        x.left.stores.2.fetch eve = .ok none ∧
        ∃ planned, (∃ y ∈ (bring ["room"] x.left.stores).1, .computed eve planned ∈ y.events) ∧
          planned.change.modification = .create := by
  refine ⟨by decide +kernel, ?_⟩
  have herrand : (transfer ["room"]).Errand false eve (bring ["room"] (intake, ward)).1
      (bring ["room"] (intake, ward)).2.1 :=
    Errand.new.attend 7 (.new none) ⟨(intake, ward), [], [], ⟨0⟩⟩
  obtain ⟨x, hx, ⟨c, hc⟩, hlost, y, hy, planned, hplanned, hkind⟩ :
      ∃ x ∈ (bring ["room"] (intake, ward)).1,
        (∃ c, c ∈ x.events.filterMap (creation? eve)) ∧ x.left.stores.2.fetch eve = .ok none ∧
        ∃ y ∈ (bring ["room"] x.left.stores).1, ∃ planned ∈ y.events.filterMap (planned? eve),
          planned.change.modification = .create := by
    simp only [← List.length_pos_iff_exists_mem]
    decide +kernel
  exact ⟨c, x, herrand.creates hx hc, hlost, planned, ⟨y, hy, computed_of_mem hplanned⟩, hkind⟩

end Task

end StoreSync
