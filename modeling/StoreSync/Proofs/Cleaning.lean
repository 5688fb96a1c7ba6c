import StoreSync.Expression.Table
import StoreSync.Proofs.Reports
import StoreSync.Proofs.Strides

/-!
# The clean pass between two memory stores

A clean pass only ever takes entries away, so that its destination is at all times the initial one
without some keys (`MemoryStore.Without`).  The unit of a pivot asks the source for the first value
with which the destination listed an entry, and deletes by the identifier of that entry, or of
whatever entry the destination finds with the value when the condition for deletions mentions the
destination (`Task.Condemns`).

The entry that is deleted and the entry that was listed can therefore differ.  An entry which a sync
pass would find for a pivot of the source is deleted only if it carries, besides the value that the
source lists, another one that the source does not know, or if it stands under the folded value of
an entry without identifier that stands elsewhere (`Pass.correlated_of_deleted`).
-/

namespace StoreSync

/-! ## What deletions leave of a store -/

namespace MemoryStore

variable {dst s s' : MemoryStore} {gone : List String}

/-- The store without the entries under some keys. -/
structure Without (dst : MemoryStore) (gone : List String) (s : MemoryStore) : Prop where
  rest : ∃ entries n, s = { dst with entries := entries, applied := n }
  entries : ∀ k, s.entries.get? k = if k ∈ gone then none else dst.entries.get? k

lemma without_nil (dst : MemoryStore) : dst.Without [] dst :=
  ⟨⟨dst.entries, dst.applied, rfl⟩, fun k => by simp⟩

lemma Without.congr {gone' : List String} (h : dst.Without gone s)
    (hsame : ∀ k, k ∈ gone ↔ k ∈ gone') : dst.Without gone' s :=
  ⟨h.rest, fun k => by rw [h.entries, if_congr (hsame k) rfl rfl]⟩

lemma Without.connectionLost (h : dst.Without gone s) : s.connectionLost = dst.connectionLost := by
  obtain ⟨entries, n, rfl⟩ := h.rest
  rfl

lemma Without.pivotAttribute (h : dst.Without gone s) :
    s.pivotAttribute = dst.pivotAttribute := by
  obtain ⟨entries, n, rfl⟩ := h.rest
  rfl

lemma Without.get?_records (h : dst.Without gone s) (k : String) :
    s.records.get? k = if k ∈ gone then none else dst.records.get? k := by
  simp only [records, TextMap.get?_map, h.entries]
  split <;> rfl

/-- What is still there was there from the start. -/
lemma Without.get?_of_get? (h : dst.Without gone s) {k : String} {e : Entity}
    (hget : s.records.get? k = some e) : dst.records.get? k = some e := by
  rw [h.get?_records] at hget
  split at hget
  · simp at hget
  · exact hget

/-- A deletion takes away the entry under the folded identifier, or fails. -/
lemma apply_delete (id : String) (time : Instant) (hlost : s.connectionLost = false) :
    s.apply (.delete id) time =
      if s.entries.contains (Text.fold id) then
        .ok { s with entries := s.entries.erase (Text.fold id), applied := s.applied + 1 }
      else .error (.objectNotFound id) := by
  by_cases hthere : s.entries.contains (Text.fold id) = true
  · simp [apply, applyAt, checkConnection, hlost, changeEntries, Change.delete, hthere, bind,
      Except.bind, pure, Except.pure]
  · simp [apply, applyAt, checkConnection, hlost, changeEntries, Change.delete, hthere, bind,
      Except.bind]

lemma Without.delete (h : dst.Without gone s) {id : String} {time : Instant}
    (happly : s.apply (.delete id) time = .ok s') : dst.Without (Text.fold id :: gone) s' := by
  rw [apply_delete id time (connectionLost_of_apply happly)] at happly
  split at happly
  · obtain rfl := Except.ok.inj happly
    obtain ⟨entries, n, rfl⟩ := h.rest
    refine ⟨⟨_, _, rfl⟩, fun k => ?_⟩
    show (entries.erase (Text.fold id)).get? k = _
    have hk := h.entries k
    rw [TextMap.get?_erase, show entries.get? k = _ from hk]
    by_cases hid : Text.fold id = k
    · simp [hid]
    · simp [hid, Ne.symm hid]
  · simp at happly

end MemoryStore

/-! ## What the units of a clean pass know -/

namespace Task

section AnyStores

variable {σ : Type} {t : Task σ} {now : Nat} {j j' : Job} {l l' : Ledger} {w w' : World σ}

/-- The verdict of the condition for deletions; the record is bound when the condition needs it. -/
def verdict (t : Task σ) (d : Option Entity) : Except SyncError Bool :=
  (t.reconciler.isAllowed .delete (.ofDestination d)).result

lemma result_planClean {p : Pivot} {d : Option Entity}
    (h : t.reconciler.deleteNeedsDestination = true → d.isSome = true) :
    (t.planClean p d).result = (t.verdict d).map fun allowed =>
      some ⟨.delete ((d.bind (·.identifier)).getD p.id), allowed⟩ := by
  have hplan : t.planClean p d = do
      let planned ← t.reconciler.planDelete ((d.bind (·.identifier)).getD p.id) d
      return some planned := by
    unfold planClean
    split
    next hneeds => simp [hneeds] at h
    next => rfl
  rw [hplan, Asked.result_bind, Reconciler.planDelete, Asked.result_bind]
  show (t.verdict d >>= _) >>= _ = _
  cases t.verdict d <;> rfl

lemma result_planClean_vanished {p : Pivot} (h : t.reconciler.deleteNeedsDestination = true) :
    (t.planClean p none).result = .ok none := by
  simp [planClean, h]

lemma change_of_planClean {p : Pivot} {d : Option Entity} {planned : PlannedChange}
    (h : (t.planClean p d).result = .ok (some planned)) :
    planned.change = .delete ((d.bind (·.identifier)).getD p.id) := by
  by_cases hvanished : t.reconciler.deleteNeedsDestination = true ∧ d = none
  · rw [hvanished.2, result_planClean_vanished hvanished.1] at h
    simp at h
  · rw [result_planClean fun hneeds => Option.isSome_iff_ne_none.2 fun hd =>
      hvanished ⟨hneeds, hd⟩] at h
    cases hverdict : t.verdict d with
    | error e => simp [hverdict, Except.map] at h
    | ok allowed =>
      simp only [hverdict, Except.map, Except.ok.injEq, Option.some.injEq] at h
      rw [← h]

end AnyStores

/-! Between memory stores -/

section Memory

variable {t : Task (MemoryStore × MemoryStore)} {src dst : MemoryStore} {now : Nat}
  {j j' : Job} {l l' : Ledger} {w w' : World (MemoryStore × MemoryStore)} {gone : List String}

/-- What the unit of a pivot knows of the change that it is about to apply: the source has no entry
for the pivot, and the change deletes by the identifier of the pivot, or by that of an entry that
carries the text of the pivot. -/
structure Condemns (src dst : MemoryStore) (p : Pivot) (c : Change) : Prop where
  orphaned : src.found? p = none
  target : c = .delete p.id ∨ ∃ k e id, dst.records.get? k = some e ∧
    dst.carries e (dst.wanted p) = true ∧ e.identifier = some id ∧ c = .delete id

/-- What the unit of a clean pass knows. -/
def Knows (src dst : MemoryStore) (j : Job) : Prop :=
  match j.phase with
  | .destinationAsked _ => src.found? j.pivot = none
  | .applying c => Condemns src dst j.pivot c
  | _ => True

/-- The unit of a clean pass goes on, and the stores are as they were. -/
structure Proceeds (src dst : MemoryStore) (j j' : Job) (w w' : World (MemoryStore × MemoryStore)) :
    Prop where
  pivot : j'.pivot = j.pivot
  knows : Knows src dst j'
  stores : w'.stores = w.stores

lemma Proceeds.imp (h : Proceeds src dst j j' w w') {q : Prop} :
    j'.pivot = j.pivot ∧ Knows src dst j' ∧ (w'.stores = w.stores ∨ q) :=
  ⟨h.pivot, h.knows, Or.inl h.stores⟩

/-- A unit with a result knows nothing any more. -/
lemma knows_of_conclude {result : Except SyncError Unit}
    (hstep : conclude j result l w = (.running j', l', w')) :
    Proceeds src dst j j' w w' := by
  simp only [conclude, Prod.mk.injEq, Progress.running.injEq] at hstep
  obtain ⟨rfl, -, rfl⟩ := hstep
  refine ⟨rfl, ?_, rfl⟩
  rcases Phase.after_eq result with hafter | hafter <;> simp [Knows, hafter]

/-- A unit that takes up a plan knows about the change if it goes on to apply it. -/
lemma knows_of_takeUp {plan : Asked (Option PlannedChange)}
    (hplan : ∀ planned, plan.result = .ok (some planned) →
      Condemns src dst j.pivot planned.change)
    (hstep : t.takeUp now j plan l w = (.running j', l', w')) :
    Proceeds src dst j j' w w' := by
  obtain ⟨hpivot, hstores, ⟨result, hphase⟩ | ⟨planned, hresult, hphase⟩⟩ := phase_of_takeUp hstep
  · refine ⟨hpivot, ?_, hstores⟩
    rcases Phase.after_eq result with hafter | hafter <;> simp [Knows, hphase, hafter]
  · refine ⟨hpivot, ?_, hstores⟩
    simp only [Knows, hphase, hpivot]
    exact hplan planned hresult

/-- A unit that is to delete without a look at the destination, or has not found its entry there. -/
lemma condemns_of_planClean_none (horphaned : src.found? j.pivot = none) {planned : PlannedChange}
    (hplan : (t.planClean j.pivot none).result = .ok (some planned)) :
    Condemns src dst j.pivot planned.change :=
  ⟨horphaned, Or.inl (change_of_planClean hplan)⟩

lemma knows_of_waiting (hphase : j.phase = .waiting)
    (hstep : t.unitStep true now j l w = (.running j', l', w')) :
    Proceeds src dst j j' w w' := by
  simp only [unitStep, hphase, enter] at hstep
  split at hstep
  · simp at hstep
  · split at hstep <;>
      (simp only [Prod.mk.injEq, Progress.running.injEq] at hstep
       obtain ⟨rfl, -, rfl⟩ := hstep
       exact ⟨rfl, trivial, rfl⟩)

lemma knows_of_sourceAsked (ht : t.Joins src dst) (hsrc : w.stores.1 = src)
    (hphase : j.phase = .sourceAsked)
    (hstep : t.unitStep true now j l w = (.running j', l', w')) :
    Proceeds src dst j j' w w' := by
  simp only [unitStep, hphase, onSource, answerFetch_source ht, hsrc, if_true] at hstep
  cases hfetch : src.fetch j.pivot with
  | error e =>
    simp only [hfetch] at hstep
    exact knows_of_conclude hstep
  | ok found =>
    cases found with
    | some e =>
      simp only [hfetch, Option.isSome_some, if_true] at hstep
      exact knows_of_conclude hstep
    | none =>
      have horphaned := MemoryStore.found?_eq_none_of_fetch hfetch
      simp only [hfetch, Option.isSome_none, Bool.false_eq_true, if_false] at hstep
      split at hstep
      · simp only [askDestination, requestFetch_destination ht, Prod.mk.injEq,
          Progress.running.injEq] at hstep
        obtain ⟨rfl, -, rfl⟩ := hstep
        exact ⟨rfl, horphaned, rfl⟩
      · exact knows_of_takeUp (fun _ => condemns_of_planClean_none horphaned) hstep

/-- The entry that a deletion goes by is what the destination finds, which was there from the
start. -/
lemma condemns_of_planClean (hdst : dst.Without gone w.stores.2)
    (horphaned : src.found? j.pivot = none) {e : Entity}
    (hfetch : w.stores.2.fetch j.pivot = .ok (some e)) (hid : e.identifier.isSome = true)
    {planned : PlannedChange}
    (hplan : (t.planClean j.pivot (some e)).result = .ok (some planned)) :
    Condemns src dst j.pivot planned.change := by
  obtain ⟨k, hfound⟩ := MemoryStore.found?_of_fetch hfetch
  obtain ⟨id, hid⟩ := Option.isSome_iff_exists.1 hid
  refine ⟨horphaned, Or.inr ⟨k, e, id, ?_, ?_, hid, ?_⟩⟩
  · exact hdst.get?_of_get? (MemoryStore.get?_of_found? hfound)
  · have hcarries := MemoryStore.carries_of_found? hfound
    simpa [MemoryStore.carries, MemoryStore.wanted, hdst.pivotAttribute] using hcarries
  · rw [change_of_planClean hplan]
    simp [hid]

lemma knows_of_destinationAsked (ht : t.Joins src dst) (hdst : dst.Without gone w.stores.2)
    (horphaned : src.found? j.pivot = none) {known : Option Entity}
    (hphase : j.phase = .destinationAsked known)
    (hstep : t.unitStep true now j l w = (.running j', l', w')) :
    Proceeds src dst j j' w w' := by
  simp only [unitStep, hphase, onDestination, answerFetch_destination ht, if_true] at hstep
  cases hfetch : w.stores.2.fetch j.pivot with
  | error e =>
    simp only [hfetch, checkDestination] at hstep
    exact knows_of_conclude hstep
  | ok found =>
    cases found with
    | none =>
      simp only [hfetch, checkDestination] at hstep
      exact knows_of_takeUp (fun _ => condemns_of_planClean_none horphaned) hstep
    | some e =>
      cases hid : e.identifier.isSome with
      | false =>
        simp only [hfetch, checkDestination, hid, Bool.false_eq_true, if_false] at hstep
        exact knows_of_conclude hstep
      | true =>
        simp only [hfetch, checkDestination, hid, if_true] at hstep
        exact knows_of_takeUp (fun _ => condemns_of_planClean hdst horphaned hfetch hid) hstep

/-- A unit that applies its change leaves the stores as they are, or the destination takes it. -/
lemma knows_of_applying (ht : t.Joins src dst) {c : Change} (hphase : j.phase = .applying c)
    (hstep : t.unitStep true now j l w = (.running j', l', w')) :
    j'.pivot = j.pivot ∧ Knows src dst j' ∧ (w'.stores = w.stores ∨ w'.stores.1 = w.stores.1 ∧
      w.stores.2.apply c (w.epoch.addMilliseconds now) = .ok w'.stores.2) := by
  simp only [unitStep, hphase, carryOut, apply_destination ht] at hstep
  cases happly : w.stores.2.apply c (w.epoch.addMilliseconds now) with
  | error e =>
    simp only [happly, checkApplied] at hstep
    obtain ⟨hpivot, hknows, hstores⟩ := knows_of_conclude hstep
    exact ⟨hpivot, hknows, Or.inl hstores⟩
  | ok s =>
    simp only [happly, checkApplied] at hstep
    obtain ⟨hpivot, hknows, hstores⟩ := knows_of_conclude hstep
    exact ⟨hpivot, hknows, Or.inr ⟨by rw [hstores], by rw [hstores]⟩⟩

/-- What a step of a unit does to the stores, and what the unit then knows. -/
lemma knows_of_step (ht : t.Joins src dst) (hsrc : w.stores.1 = src)
    (hdst : dst.Without gone w.stores.2) (hknows : Knows src dst j)
    (hstep : t.unitStep true now j l w = (.running j', l', w')) :
    j'.pivot = j.pivot ∧ Knows src dst j' ∧ (w'.stores = w.stores ∨
      ∃ c, j.phase = .applying c ∧ w'.stores.1 = w.stores.1 ∧
        w.stores.2.apply c (w.epoch.addMilliseconds now) = .ok w'.stores.2) := by
  cases hphase : j.phase with
  | waiting => exact (knows_of_waiting hphase hstep).imp
  | counted =>
    simp only [unitStep, hphase, askSource, requestFetch_source ht, Prod.mk.injEq,
      Progress.running.injEq] at hstep
    obtain ⟨rfl, -, rfl⟩ := hstep
    exact ⟨rfl, trivial, Or.inl rfl⟩
  | sourceAsked => exact (knows_of_sourceAsked ht hsrc hphase hstep).imp
  | destinationAsked known =>
    have horphaned : src.found? j.pivot = none := by simpa [Knows, hphase] using hknows
    exact (knows_of_destinationAsked ht hdst horphaned hphase hstep).imp
  | applying c =>
    obtain ⟨hpivot, hknows', hstores⟩ := knows_of_applying ht hphase hstep
    exact ⟨hpivot, hknows', hstores.imp id fun h => ⟨c, rfl, h⟩⟩
  | admitted | lost =>
    simp only [unitStep, hphase, Prod.mk.injEq, Progress.running.injEq] at hstep
    obtain ⟨rfl, -, rfl⟩ := hstep
    exact ⟨rfl, trivial, Or.inl rfl⟩
  | ended => simp [unitStep, hphase] at hstep

end Memory

end Task

/-! ## The invariant of a clean pass -/

namespace Pass

variable {t : Task (MemoryStore × MemoryStore)} {src dst : MemoryStore} {pivots : List Pivot}
  {now : Nat} {p : Pass} {w : World (MemoryStore × MemoryStore)}
  {z : Pass × World (MemoryStore × MemoryStore)} {events log : List Event}

/-- Every unit of the pass has a pivot of the list and knows what it is about to do, and the
destination has only lost entries. -/
structure Sweeps (src dst : MemoryStore) (pivots : List Pivot)
    (x : Pass × World (MemoryStore × MemoryStore)) : Prop where
  clean : x.1.isClean = true
  source : x.2.stores.1 = src
  destination : ∃ gone, dst.Without gone x.2.stores.2
  pending : ∀ q ∈ x.1.pending, q ∈ pivots
  queued : ∀ j ∈ x.1.pool.queue, j.phase = .waiting ∧ j.pivot ∈ pivots
  running : ∀ j, .running j ∈ x.1.pool.workers → j.pivot ∈ pivots ∧ Task.Knows src dst j

lemma sweeps_of_start {config : TaskConfig} (hw : w.stores = (src, dst)) :
    Sweeps src dst pivots (.cleaning config pivots now, w) := by
  have hnew := isNew_ofKind config .clean pivots now
  refine ⟨rfl, by rw [hw], ⟨[], by rw [hw]; exact dst.without_nil⟩, fun q hq => hq, ?_, ?_⟩
  · intro j hj
    simp [cleaning, Pool.new] at hj
  · intro j hj
    simpa using hnew.workers _ hj

/-- A worker takes up something else. -/
lemma Sweeps.exchange (h : Sweeps src dst pivots (p, w)) {k : Nat} {y : Worker Job}
    {pool : Pool Job} {l : Ledger} {w' : World (MemoryStore × MemoryStore)}
    (hworkers : pool.workers = p.pool.workers.set k y)
    (hqueue : ∀ j ∈ pool.queue, j ∈ p.pool.queue)
    (hy : ∀ j, y = .running j → j.pivot ∈ pivots ∧ Task.Knows src dst j)
    (hsource : w'.stores.1 = src) (hdestination : ∃ gone, dst.Without gone w'.stores.2) :
    Sweeps src dst pivots ({ p with pool := pool, ledger := l }, w') := by
  refine ⟨h.clean, hsource, hdestination, h.pending, fun j hj => h.queued j (hqueue j hj), ?_⟩
  exact fun j hj => forall_running_set h.running hy j (hworkers ▸ hj)

lemma Act.sweeps (ht : t.Joins src dst) (h : Act t now p w events z)
    (hp : Sweeps src dst pivots (p, w)) : Sweeps src dst pivots z := by
  have hkeep : ∀ j ∈ p.pool.queue, j ∈ p.pool.queue := fun _ hj => hj
  cases h with
  | @submit pivot rest hpending _ _ =>
    have hmem : ∀ q ∈ p.pending, q ∈ pivots := hp.pending
    rw [hpending] at hmem
    refine ⟨hp.clean, hp.source, hp.destination,
      fun q hq => hmem q (List.mem_cons_of_mem _ hq), ?_, hp.running⟩
    intro j hj
    rcases List.mem_append.1 hj with hj | hj
    · exact hp.queued j hj
    · rw [List.mem_singleton.1 hj]
      exact ⟨rfl, hmem pivot List.mem_cons_self⟩
  | drop _ hpool _ =>
    have hnone : ∀ q ∈ ([] : List Pivot), q ∈ pivots := by simp
    rcases hpool with rfl | ⟨-, rfl⟩ <;>
      exact ⟨hp.clean, hp.source, hp.destination, hnone, hp.queued, hp.running⟩
  | await _ _ | close _ _ | expire _ _ | giveUp _ =>
    exact ⟨hp.clean, hp.source, hp.destination, hp.pending, hp.queued, hp.running⟩
  | stop _ _ => exact hp.exchange rfl hkeep (by simp) hp.source hp.destination
  | @take k j rest _ _ hqueue =>
    obtain ⟨hphase, hmem⟩ := hp.queued j (by simp [hqueue])
    refine hp.exchange rfl (fun i hi => hqueue ▸ List.mem_cons_of_mem _ hi) ?_ hp.source
      hp.destination
    intro i hi
    obtain rfl := Worker.running.inj hi
    exact ⟨hmem, by simp [Task.Knows, hphase]⟩
  | @go k j j' l' w' hrunning hstep =>
    obtain ⟨hmem, hknows⟩ := hp.running j (List.mem_of_getElem? hrunning)
    obtain ⟨gone, hgone⟩ := hp.destination
    rw [show p.isClean = true from hp.clean] at hstep
    obtain ⟨hpivot, hknows', hstores⟩ := Task.knows_of_step ht hp.source hgone hknows hstep
    have hy : ∀ i, Worker.running j' = .running i → i.pivot ∈ pivots ∧ Task.Knows src dst i := by
      intro i hi
      obtain rfl := Worker.running.inj hi
      exact ⟨hpivot ▸ hmem, hknows'⟩
    rcases hstores with hsame | ⟨c, hphase, hsource, happly⟩
    · exact hp.exchange rfl hkeep hy (hsame ▸ hp.source) ⟨gone, hsame ▸ hgone⟩
    · have hcondemns : Task.Condemns src dst j.pivot c := by simpa [Task.Knows, hphase] using hknows
      obtain ⟨id, rfl⟩ : ∃ id, c = .delete id := by
        rcases hcondemns.target with rfl | ⟨k, e, id, -, -, -, rfl⟩
        · exact ⟨_, rfl⟩
        · exact ⟨_, rfl⟩
      exact hp.exchange rfl hkeep hy (hsource.trans hp.source) ⟨_, hgone.delete happly⟩
  | leave _ _ =>
    have hnone : ∀ j, (Worker.idle : Worker Job) = .running j →
        j.pivot ∈ pivots ∧ Task.Knows src dst j := by simp
    split
    · exact hp.exchange rfl hkeep hnone hp.source hp.destination
    · exact hp.exchange rfl hkeep hnone hp.source hp.destination

lemma History.sweeps {config : TaskConfig} {start : Nat} (ht : t.Joins src dst)
    (hw : w.stores = (src, dst)) (h : History t (.cleaning config pivots start, w) log z) :
    Sweeps src dst pivots z := by
  refine h.keeps (I := fun _ z => Sweeps src dst pivots z) (sweeps_of_start hw) ?_
  intro _ _ p w z now hp hact
  exact hact.sweeps ht hp

/-! ## Which entries a clean pass deletes -/

/-- An entry is taken away by the unit of a listed pivot that is gone from the source. -/
lemma Act.condemned (ht : t.Joins src dst) (h : Act t now p w events z)
    (hp : Sweeps src dst pivots (p, w)) {k : String} {e : Entity}
    (hthere : w.stores.2.records.get? k = some e)
    (hgone : z.2.stores.2.records.get? k = none) :
    ∃ q id, q ∈ pivots ∧ Task.Condemns src dst q (.delete id) ∧ k = Text.fold id := by
  have hsame : ∀ {w' : World (MemoryStore × MemoryStore)}, w'.stores.2 = w.stores.2 →
      w'.stores.2.records.get? k = none → False := by
    intro w' hw' hnone
    simp [hw', hthere] at hnone
  cases h with
  | @go _ j j' l' w' hrunning hstep =>
    obtain ⟨hmem, hknows⟩ := hp.running j (List.mem_of_getElem? hrunning)
    obtain ⟨gone, hwithout⟩ := hp.destination
    rw [show p.isClean = true from hp.clean] at hstep
    obtain ⟨-, -, hstores⟩ := Task.knows_of_step ht hp.source hwithout hknows hstep
    rcases hstores with heq | ⟨c, hphase, -, happly⟩
    · exact (hsame (congrArg Prod.snd heq) hgone).elim
    · have hcondemns : Task.Condemns src dst j.pivot c := by simpa [Task.Knows, hphase] using hknows
      have henact := MemoryStore.enact_of_apply happly
      obtain ⟨id, rfl⟩ : ∃ id, c = .delete id := by
        rcases hcondemns.target with rfl | ⟨_, _, id, -, -, -, rfl⟩ <;> exact ⟨_, rfl⟩
      refine ⟨j.pivot, id, hmem, hcondemns, ?_⟩
      -- A deletion leaves every other key alone.
      by_contra hne
      rw [Change.get?_enact_of_notMem henact (by simpa [Change.keys, Change.aim?, Change.delete]
        using hne), hthere] at hgone
      simp at hgone
  | leave _ _ => exact (hsame rfl hgone).elim
  | _ => exact (hsame rfl hgone).elim

/-- **What a clean pass can delete of what a sync pass would find.**  Take any run of a clean pass
over the pivots that the destination listed, between any two stores in memory and under any policy
and evaluator, and a turn that takes away an entry which the destination, right before, finds for a
pivot of the source.  Then some listed entry has a first pivot value `v` that the source does not
know, and the entry that is taken away carries both `v` and the value of the source's pivot, which
differ; or else the listed entry has no identifier, and stands under another key than the entry
under its folded value that is taken away. -/
theorem correlated_of_deleted (ht : t.Joins src dst) (hreachable : dst.Reachable)
    (hlist : dst.list = .ok pivots) (hw : w.stores = (src, dst)) {start : Nat}
    {w' : World (MemoryStore × MemoryStore)}
    (hhistory : History t (.cleaning t.config pivots start, w) log (p, w'))
    (hturn : Happens t now (p, w') events z) {k : String} {e : Entity}
    (hthere : w'.stores.2.records.get? k = some e)
    (hgone : z.2.stores.2.records.get? k = none) {sources : List Pivot} {q : Pivot}
    (hsources : src.list = .ok sources) (hq : q ∈ sources)
    (hfound : w'.stores.2.found? q = some (k, e)) :
    ∃ k₀ e₀ v, dst.records.get? k₀ = some e₀ ∧ e₀.first? dst.pivotAttribute = some v ∧
      (∀ s ∈ src.entities, src.carries s v = false) ∧
      ∃ u, dst.wanted q = u ∧ Text.sameFolded u v = false ∧ dst.carries e u = true ∧
        (dst.carries e v = true ∨ e₀.identifier = none ∧ k = Text.fold v ∧ k₀ ≠ k) := by
  have hsweeps := hhistory.sweeps ht hw
  obtain ⟨gone, hwithout⟩ := hsweeps.destination
  have hinitial : dst.records.get? k = some e := hwithout.get?_of_get? hthere
  obtain ⟨p₀, id, hmem, hcondemns, hk⟩ :=
    (act_of_happens hturn).condemned ht hsweeps hthere hgone
  -- The entry that was listed for the unit's pivot, and the text that the pivot asks for.
  obtain ⟨k₀, entry₀, hentry₀, hlisted⟩ := (MemoryStore.mem_list_iff hlist).1 hmem
  obtain ⟨v, hv, rfl⟩ := MemoryStore.pivotOf?_eq_some_iff.1 hlisted
  have hget₀ : dst.records.get? k₀ = some entry₀.entity := by
    simp [MemoryStore.records, hentry₀]
  have hunknown : ∀ s ∈ src.entities, src.carries s v = false := by
    intro s hs
    obtain ⟨k', hget⟩ := MemoryStore.mem_entities_iff.1 hs
    have hnot := List.find?_eq_none.1 hcondemns.orphaned (k', s)
      ((TextMap.mem_entries_iff _).2 hget)
    simpa [MemoryStore.wanted_pivotFor] using hnot
  -- The source's pivot asks for a text that a source entry carries.
  obtain ⟨k', entry, hentry, hpivot⟩ := (MemoryStore.mem_list_iff hsources).1 hq
  obtain ⟨u, hu, rfl⟩ := MemoryStore.pivotOf?_eq_some_iff.1 hpivot
  have hdiffer : Text.sameFolded u v = false := by
    have hmem' : entry.entity ∈ src.entities := by
      refine MemoryStore.mem_entities_iff.2 ⟨k', ?_⟩
      simp [MemoryStore.records, hentry]
    have hnot := List.any_eq_false.1 (hunknown _ hmem')
    rw [← Bool.not_eq_true]
    intro hsame
    obtain ⟨x, hx, hxu⟩ := List.any_eq_true.1 (MemoryStore.carries_of_first? hu)
    exact hnot x hx (Text.sameFolded_trans hxu hsame)
  have hcarries : dst.carries e u = true := by
    have h := MemoryStore.carries_of_found? hfound
    rw [MemoryStore.wanted_pivotFor] at h
    rwa [MemoryStore.carries, hwithout.pivotAttribute] at h
  refine ⟨k₀, entry₀.entity, v, hget₀, hv, hunknown, u, MemoryStore.wanted_pivotFor _ _, hdiffer,
    hcarries, ?_⟩
  have hkeyed := hreachable.keyed
  rcases hcondemns.target with hid | ⟨k₁, e₁, id₁, hget₁, hcarries₁, hid₁, hid⟩
  · obtain rfl : id = (entry₀.entity.identifier.getD v) := congrArg Change.identifier hid
    by_cases hkey : k₀ = k
    · obtain rfl : entry₀.entity = e := by
        rw [hkey, hinitial] at hget₀
        exact (Option.some.inj hget₀).symm
      exact Or.inl (MemoryStore.carries_of_first? hv)
    · cases hid₀ : entry₀.entity.identifier with
      | some id₀ =>
        refine absurd ?_ hkey
        rw [hk, hid₀]
        exact hkeyed k₀ _ id₀ hget₀ hid₀
      | none =>
        refine Or.inr ⟨rfl, ?_, hkey⟩
        rw [hk, hid₀]
        rfl
  · obtain rfl : id = id₁ := congrArg Change.identifier hid
    have hkey : k₁ = k := (hkeyed k₁ e₁ id hget₁ hid₁).trans hk.symm
    obtain rfl : e₁ = e := by
      rw [hkey, hinitial] at hget₁
      exact (Option.some.inj hget₁).symm
    rw [MemoryStore.wanted_pivotFor] at hcarries₁
    exact Or.inl hcarries₁

/-! The destination finds an entry by its second value, which is the first value of another entry
that the source does not know, and deletes it instead of the other. -/

def office : MemoryStore :=
  (MemoryStore.new "office" "uid").insertAll
    [(Entity.putAll (.named "uid=1") [("uid", [.string "1"])], ⟨0⟩)]

def phonebook : MemoryStore :=
  (MemoryStore.new "phonebook" "uid").insertAll
    [(Entity.putAll (.named "uid=1") [("uid", [.string "1", .string "2"])], ⟨0⟩),
      (Entity.putAll (.named "uid=2") [("uid", [.string "2"])], ⟨0⟩)]

/-- Every entry may be deleted, but the condition mentions the destination. -/
def moving : Task (MemoryStore × MemoryStore) :=
  ⟨{ TaskConfig.new "moving" with
      policy := { Policy.empty with
        conditions := { Conditions.always with delete := .expression "destination.uid != ()" } } },
    (MemoryStore.adapter "office" true).first, (MemoryStore.adapter "phonebook" true).second,
    .ofTable [("destination.uid != ()", .boolean true)]⟩

theorem correlated_of_phonebook :
    phonebook.list = .ok [phonebook.pivotFor "uid=1" "1", phonebook.pivotFor "uid=2" "2"] ∧
    office.list = .ok [office.pivotFor "uid=1" "1"] ∧
    ∃ log p w' events z e,
      History moving (.cleaning moving.config
          [phonebook.pivotFor "uid=1" "1", phonebook.pivotFor "uid=2" "2"] 0,
        ⟨(office, phonebook), [], [], ⟨0⟩⟩) log (p, w') ∧
      Happens moving 0 (p, w') events z ∧ w'.stores.2.records.get? "uid=1" = some e ∧
      z.2.stores.2.records.get? "uid=1" = none ∧
      w'.stores.2.found? (office.pivotFor "uid=1" "1") = some ("uid=1", e) ∧
      ∃ k₀ e₀ v, phonebook.records.get? k₀ = some e₀ ∧
        e₀.first? phonebook.pivotAttribute = some v ∧
        (∀ s ∈ office.entities, office.carries s v = false) ∧
        ∃ u, phonebook.wanted (office.pivotFor "uid=1" "1") = u ∧ Text.sameFolded u v = false ∧
          phonebook.carries e u = true ∧
          (phonebook.carries e v = true ∨
            e₀.identifier = none ∧ "uid=1" = Text.fold v ∧ k₀ ≠ "uid=1") := by
  have hreachable : phonebook.Reachable := (MemoryStore.Filled.insertAll (.empty rfl) _).reachable
  have hlist : phonebook.list =
      .ok [phonebook.pivotFor "uid=1" "1", phonebook.pivotFor "uid=2" "2"] := by
    show Except.ok (phonebook.orderedPivots phonebook.entities) = _
    rw [MemoryStore.orderedPivots, List.mergeSort_of_pairwise (by decide +kernel)]
    decide +kernel
  have hsources : office.list = .ok [office.pivotFor "uid=1" "1"] := by
    show Except.ok (office.orderedPivots office.entities) = _
    rw [MemoryStore.orderedPivots, List.mergeSort_of_pairwise (by decide +kernel)]
    decide +kernel
  have hturns : (advance moving 15 (.cleaning moving.config
      [phonebook.pivotFor "uid=1" "1", phonebook.pivotFor "uid=2" "2"] 0,
        ⟨(office, phonebook), [], [], ⟨0⟩⟩)).any (fun y =>
      (y.2.stores.2.found? (office.pivotFor "uid=1" "1")).any (·.1 = "uid=1") &&
        (y.1.step? moving 0 y.2).any fun z => z.2.stores.2.records.get? "uid=1" = none) = true := by
    decide +kernel
  obtain ⟨⟨p, w'⟩, hadvance, hthen⟩ := (Option.any_eq_true _ _).1 hturns
  obtain ⟨hfound, hnext⟩ := (Bool.and_eq_true _ _).mp hthen
  obtain ⟨⟨k, e⟩, hfound, hk⟩ := (Option.any_eq_true _ _).1 hfound
  obtain rfl : k = "uid=1" := by simpa using hk
  obtain ⟨⟨p', w''⟩, hstep, hgone⟩ := (Option.any_eq_true _ _).1 hnext
  obtain ⟨log, hhistory⟩ := history_of_advance hadvance
  obtain ⟨events, hturn⟩ := (turn_of_step? hstep).exists_happens
  have hthere := MemoryStore.get?_of_found? hfound
  have hgone : w''.stores.2.records.get? "uid=1" = none := by simpa using hgone
  exact ⟨hlist, hsources, log, p, w', events, (p', w''), e, hhistory, hturn, hthere, hgone, hfound,
    correlated_of_deleted ⟨rfl, rfl⟩ hreachable hlist rfl hhistory hturn hthere hgone hsources
      List.mem_cons_self hfound⟩

end Pass

end StoreSync
