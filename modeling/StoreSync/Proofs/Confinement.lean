import StoreSync.Command.Session
import StoreSync.Proofs.Cleaning
import StoreSync.Proofs.Fates
import StoreSync.Proofs.Filing

/-!
# A pass between two stores of a session

The adapters of a session work on one store each of all that it holds.  A pass therefore leaves
every store but its destination as it is, and keeps the destination filed, whatever it applies to it
(`Pass.confined_of_conducted`).

A store would not stay filed if an entry without identifier were updated.  No unit does that: it
updates by the identifier that the destination answered with the entry, which is the one that stands
under it (`Task.spares_of_planSync`).  Between the answer and the update other units may have
changed the entry, but none takes its identifier away (`MemoryStore.Spares.apply`), and so the
invariant `Pass.Confined` can keep every unit `Task.Careful`.
-/

namespace StoreSync

lemma TextMap.insert_of_get? {α : Type} {m : TextMap α} {k : String} {v : α}
    (h : m.get? k = some v) : m.insert k v = m := by
  refine TextMap.ext_get? fun k' => ?_
  rw [TextMap.get?_insert]
  split
  next heq => rw [← heq, h]
  · rfl

/-! ## One store among several -/

namespace Session

variable {stores : Stores} {name : String} {store : MemoryStore} (f : StoreFile)

lemma list_adapter (h : stores.get? name = some store) :
    (adapter name f).list stores = (store.list, stores) := by
  simp [adapter, Adapter.within, Adapter.within.onPart, MemoryStore.adapter, h,
    TextMap.insert_of_get? h]

lemma requestFetch_adapter (h : stores.get? name = some store) (p : Pivot) :
    (adapter name f).requestFetch p stores = (0, stores) := by
  simp [adapter, Adapter.within, Adapter.within.onPart, MemoryStore.adapter, h,
    TextMap.insert_of_get? h]

lemma answerFetch_adapter (h : stores.get? name = some store) (p : Pivot) :
    (adapter name f).answerFetch p stores = (store.fetch p, stores) := by
  simp [adapter, Adapter.within, Adapter.within.onPart, MemoryStore.adapter, h,
    TextMap.insert_of_get? h]

lemma apply_adapter (h : stores.get? name = some store) (c : Change) (time : Instant) :
    (adapter name f).apply c time stores = match store.apply c time with
      | .ok store' => (.ok true, stores.insert name store')
      | .error e => (.error e, stores) := by
  cases happly : store.apply c time <;>
    simp [adapter, Adapter.within, Adapter.within.onPart, MemoryStore.adapter, h, happly,
      TextMap.insert_of_get? h]

end Session

/-! ## What a unit may apply -/

namespace Task

section AnyStores

variable {σ : Type} {t : Task σ} {p : Pivot} {known d : Option Entity} {planned : PlannedChange}

/-- A plan that updates an entry does so by the identifier that the destination answered. -/
lemma update_of_planSync (h : (t.planSync p known d).result = .ok (some planned))
    (hupdate : planned.change.modification = .update) :
    ∃ e id, d = some e ∧ e.identifier = some id ∧ planned.change.identifier = id := by
  unfold planSync at h
  split at h
  · simp at h
  · obtain ⟨s, -, h⟩ := Asked.result_bind_eq_ok.1 h
    rcases Reconciler.change_of_computeChange h with
      ⟨-, id, ops, hchange⟩ | ⟨e, id, he, hid, ⟨ops, hchange⟩ | ⟨new, hchange⟩⟩
    · rw [hchange] at hupdate
      simp [Change.create] at hupdate
    · exact ⟨e, id, he, hid, by rw [hchange]; rfl⟩
    · rw [hchange] at hupdate
      simp [Change.rename] at hupdate

end AnyStores

variable {t : Task Stores} {source destination : String} {store : MemoryStore} {clean : Bool}
  {now : Nat} {j j' : Job} {l l' : Ledger} {w w' : World Stores}

/-- The task works from one store of a session to another. -/
structure Links (t : Task Stores) (source destination : String) : Prop where
  source : ∃ f, t.source = Session.adapter source f
  destination : ∃ f, t.destination = Session.adapter destination f

/-- What a unit is about to apply updates nothing without identifier. -/
def Careful (store : MemoryStore) (j : Job) : Prop :=
  ∀ c, j.phase = .applying c → store.Spares c

lemma careful_of_phase (h : ∀ c, j.phase ≠ .applying c) : Careful store j :=
  fun c hc => absurd hc (h c)

lemma careful_of_conclude {result : Except SyncError Unit} {w₀ : World Stores}
    (h : conclude j result l w₀ = (.running j', l', w')) :
    w'.stores = w₀.stores ∧ Careful store j' := by
  simp only [conclude, Prod.mk.injEq, Progress.running.injEq] at h
  obtain ⟨rfl, -, rfl⟩ := h
  exact ⟨rfl, careful_of_phase (Phase.after_ne_applying result)⟩

lemma careful_of_takeUp {plan : Asked (Option PlannedChange)} {w₀ : World Stores}
    (hplan : ∀ planned, plan.result = .ok (some planned) → store.Spares planned.change)
    (h : t.takeUp now j plan l w₀ = (.running j', l', w')) :
    w'.stores = w₀.stores ∧ Careful store j' := by
  obtain ⟨-, hstores, ⟨result, hended⟩ | ⟨planned, hresult, hphase⟩⟩ := phase_of_takeUp h
  · exact ⟨hstores, careful_of_phase fun c => by rw [hended]; exact Phase.after_ne_applying _ c⟩
  · refine ⟨hstores, fun c hc => ?_⟩
    obtain rfl : planned.change = c := by simpa [hphase] using hc
    exact hplan planned hresult

lemma spares_of_planClean {p : Pivot} {d : Option Entity} (planned : PlannedChange)
    (h : (t.planClean p d).result = .ok (some planned)) : store.Spares planned.change := by
  intro hupdate
  rw [change_of_planClean h] at hupdate
  simp [Change.delete] at hupdate

/-- An update is planned for an entry that the destination has fetched, under its identifier. -/
lemma spares_of_planSync (hfiled : store.Filed) {p : Pivot} {known d : Option Entity}
    (hd : t.checkDestination p (store.fetch p) = .ok d) (planned : PlannedChange)
    (h : (t.planSync p known d).result = .ok (some planned)) : store.Spares planned.change := by
  intro hupdate e' he'
  obtain ⟨e, id, rfl, hid, hidentifier⟩ := update_of_planSync h hupdate
  have hfetch : store.fetch p = .ok (some e) := by
    unfold checkDestination at hd
    split at hd
    · simp at hd
    next e₀ hanswer =>
      split at hd
      · obtain rfl : e₀ = e := by simpa using hd
        exact hanswer
      · simp at hd
    · simp at hd
  obtain ⟨k, hfound⟩ := MemoryStore.found?_of_fetch hfetch
  have hget := MemoryStore.get?_of_found? hfound
  rw [hidentifier, ← hfiled.keyed k e id hget hid, hget] at he'
  rw [← Option.some.inj he', hid]
  rfl

/-! The steps of a unit, phase by phase -/

lemma careful_of_askDestination (ht : t.Links source destination) {known : Option Entity}
    {w₀ : World Stores} (hstore : w₀.stores.get? destination = some store)
    (h : t.askDestination now j known l w₀ = (.running j', l', w')) :
    w'.stores = w₀.stores ∧ Careful store j' := by
  obtain ⟨g, hg⟩ := ht.destination
  simp only [askDestination, hg, Session.requestFetch_adapter g hstore, Prod.mk.injEq,
    Progress.running.injEq] at h
  obtain ⟨rfl, -, rfl⟩ := h
  exact ⟨rfl, careful_of_phase (by simp)⟩

lemma careful_of_waiting (hphase : j.phase = .waiting)
    (hstep : t.unitStep clean now j l w = (.running j', l', w')) :
    w'.stores = w.stores ∧ Careful store j' := by
  simp only [unitStep, hphase, enter] at hstep
  split at hstep
  · simp at hstep
  · split at hstep
    · simp only [Prod.mk.injEq, Progress.running.injEq] at hstep
      obtain ⟨rfl, -, rfl⟩ := hstep
      exact ⟨rfl, careful_of_phase (by simp)⟩
    · simp only [Prod.mk.injEq, Progress.running.injEq] at hstep
      obtain ⟨rfl, -, rfl⟩ := hstep
      exact ⟨rfl, careful_of_phase (by simp)⟩

lemma careful_of_counted (ht : t.Links source destination) {origin : MemoryStore}
    (hsource : w.stores.get? source = some origin) (hphase : j.phase = .counted)
    (hstep : t.unitStep clean now j l w = (.running j', l', w')) :
    w'.stores = w.stores ∧ Careful store j' := by
  obtain ⟨f, hf⟩ := ht.source
  simp only [unitStep, hphase, askSource, hf, Session.requestFetch_adapter f hsource,
    Prod.mk.injEq, Progress.running.injEq] at hstep
  obtain ⟨rfl, -, rfl⟩ := hstep
  exact ⟨rfl, careful_of_phase (by simp)⟩

lemma careful_of_sourceAsked (ht : t.Links source destination) {origin : MemoryStore}
    (hsource : w.stores.get? source = some origin)
    (hstore : w.stores.get? destination = some store) (hphase : j.phase = .sourceAsked)
    (hstep : t.unitStep clean now j l w = (.running j', l', w')) :
    w'.stores = w.stores ∧ Careful store j' := by
  obtain ⟨f, hf⟩ := ht.source
  simp only [unitStep, hphase, onSource, hf, Session.answerFetch_adapter f hsource] at hstep
  cases hfetch : origin.fetch j.pivot with
  | error e =>
    simp only [hfetch] at hstep
    exact careful_of_conclude hstep
  | ok found =>
    simp only [hfetch] at hstep
    split at hstep
    · split at hstep
      · exact careful_of_conclude hstep
      · split at hstep
        · exact careful_of_askDestination ht hstore hstep
        · exact careful_of_takeUp spares_of_planClean hstep
    · exact careful_of_askDestination ht hstore hstep

lemma careful_of_destinationAsked (ht : t.Links source destination)
    (hstore : w.stores.get? destination = some store) (hfiled : store.Filed)
    {known : Option Entity} (hphase : j.phase = .destinationAsked known)
    (hstep : t.unitStep clean now j l w = (.running j', l', w')) :
    w'.stores = w.stores ∧ Careful store j' := by
  obtain ⟨g, hg⟩ := ht.destination
  simp only [unitStep, hphase, onDestination, hg, Session.answerFetch_adapter g hstore] at hstep
  cases hcheck : t.checkDestination j.pivot (store.fetch j.pivot) with
  | error e =>
    simp only [hcheck] at hstep
    exact careful_of_conclude hstep
  | ok d =>
    simp only [hcheck] at hstep
    refine careful_of_takeUp ?_ hstep
    cases clean
    · exact spares_of_planSync hfiled hcheck
    · exact spares_of_planClean

lemma careful_of_applying (ht : t.Links source destination)
    (hstore : w.stores.get? destination = some store) {c : Change} (hphase : j.phase = .applying c)
    (hstep : t.unitStep clean now j l w = (.running j', l', w')) :
    w'.stores = w.stores ∧ Careful store j' ∨
      ∃ store', (∀ c', j'.phase ≠ .applying c') ∧
        store.apply c (w.epoch.addMilliseconds now) = .ok store' ∧
        w'.stores = w.stores.insert destination store' := by
  obtain ⟨g, hg⟩ := ht.destination
  simp only [unitStep, hphase, carryOut, hg, Session.apply_adapter g hstore] at hstep
  cases happly : store.apply c (w.epoch.addMilliseconds now) with
  | error e =>
    simp only [happly, checkApplied] at hstep
    exact Or.inl (careful_of_conclude hstep)
  | ok store' =>
    simp only [happly, checkApplied, conclude, Prod.mk.injEq, Progress.running.injEq] at hstep
    obtain ⟨rfl, -, rfl⟩ := hstep
    exact Or.inr ⟨store', Phase.after_ne_applying (.ok ()), rfl, rfl⟩

/-- A step of a unit leaves the stores as they are, or applies a change to the destination. -/
lemma careful_of_step (ht : t.Links source destination) {origin : MemoryStore}
    (hsource : w.stores.get? source = some origin)
    (hstore : w.stores.get? destination = some store) (hfiled : store.Filed)
    (hstep : t.unitStep clean now j l w = (.running j', l', w')) :
    w'.stores = w.stores ∧ Careful store j' ∨
      ∃ c store', j.phase = .applying c ∧ (∀ c', j'.phase ≠ .applying c') ∧
        store.apply c (w.epoch.addMilliseconds now) = .ok store' ∧
        w'.stores = w.stores.insert destination store' := by
  cases hphase : j.phase with
  | waiting => exact Or.inl (careful_of_waiting hphase hstep)
  | admitted | lost =>
    simp only [unitStep, hphase, Prod.mk.injEq, Progress.running.injEq] at hstep
    obtain ⟨rfl, -, rfl⟩ := hstep
    exact Or.inl ⟨rfl, careful_of_phase (by simp)⟩
  | counted => exact Or.inl (careful_of_counted ht hsource hphase hstep)
  | sourceAsked => exact Or.inl (careful_of_sourceAsked ht hsource hstore hphase hstep)
  | destinationAsked known =>
    exact Or.inl (careful_of_destinationAsked ht hstore hfiled hphase hstep)
  | applying c =>
    rcases careful_of_applying ht hstore hphase hstep with hcareful | ⟨store', happly⟩
    · exact Or.inl hcareful
    · exact Or.inr ⟨c, store', rfl, happly⟩
  | ended => simp [unitStep, hphase] at hstep

end Task

/-! ## The invariant of a pass -/

namespace Pass

variable {t : Task Stores} {source destination pivot : String} {before : Stores} {now : Nat}
  {p : Pass} {w w' : World Stores} {z : Pass × World Stores} {events log : List Event}

/-- Only the destination differs from what was before, it is filed, and no unit is about to update
an entry without identifier. -/
structure Confined (destination pivot : String) (before : Stores) (x : Pass × World Stores) :
    Prop where
  frame : ∀ n, n ≠ destination → x.2.stores.get? n = before.get? n
  filed : ∃ store, x.2.stores.get? destination = some store ∧ store.Filed ∧
    store.pivotAttribute = pivot ∧
    ∀ j, .running j ∈ x.1.pool.workers → Task.Careful store j
  queued : ∀ j ∈ x.1.pool.queue, j.phase = .waiting

lemma confined_of_isNew {pivots : List Pivot} (hnew : IsNew pivots p)
    (hqueue : p.pool.queue = []) {store : MemoryStore}
    (hstore : w.stores.get? destination = some store) (hfiled : store.Filed) :
    Confined destination store.pivotAttribute w.stores (p, w) := by
  refine ⟨fun n _ => rfl, ⟨store, hstore, hfiled, rfl, fun j hj => ?_⟩, fun j hj => ?_⟩
  · have hidle := hnew.workers _ hj
    simp at hidle
  · have hj : j ∈ p.pool.queue := hj
    simp [hqueue] at hj

/-- A worker takes up something else that does not touch the stores. -/
lemma Confined.exchange (h : Confined destination pivot before (p, w)) {k : Nat} {y : Worker Job}
    {pool : Pool Job} {l : Ledger} (hworkers : pool.workers = p.pool.workers.set k y)
    (hqueue : ∀ j ∈ pool.queue, j ∈ p.pool.queue) (hstores : w'.stores = w.stores)
    (hy : ∀ store, w.stores.get? destination = some store → ∀ j, y = .running j →
      Task.Careful store j) :
    Confined destination pivot before ({ p with pool := pool, ledger := l }, w') := by
  obtain ⟨store, hstore, hfiled, hpivot, hrunning⟩ := h.filed
  refine ⟨fun n hn => (congrArg (·.get? n) hstores).trans (h.frame n hn),
    ⟨store, (congrArg (·.get? destination) hstores).trans hstore, hfiled, hpivot, ?_⟩,
    fun j hj => h.queued j (hqueue j hj)⟩
  exact fun j hj => forall_running_set hrunning (hy store hstore) j (hworkers ▸ hj)

/-- A worker applies a change to the destination. -/
lemma Confined.apply (h : Confined destination pivot before (p, w)) {k : Nat} {j j' : Job}
    {l : Ledger} {c : Change} {time : Instant} {store store' : MemoryStore}
    (hrunning : p.pool.workers[k]? = some (.running j)) (hphase : j.phase = .applying c)
    (hphase' : ∀ c', j'.phase ≠ .applying c')
    (hstore : w.stores.get? destination = some store) (happly : store.apply c time = .ok store')
    (hstores : w'.stores = w.stores.insert destination store') :
    Confined destination pivot before
      ({ p with pool := p.pool.setWorker k (.running j'), ledger := l }, w') := by
  obtain ⟨store₀, hstore₀, hfiled, hpivot, hcareful⟩ := h.filed
  obtain rfl : store₀ = store := Option.some.inj (hstore₀.symm.trans hstore)
  have hspares := hcareful j (List.mem_of_getElem? hrunning) c hphase
  refine ⟨fun n hn => ?_, ⟨store', ?_, hfiled.apply hspares happly, ?_, ?_⟩, h.queued⟩
  · show w'.stores.get? n = _
    rw [hstores, TextMap.get?_insert_of_ne _ (Ne.symm hn)]
    exact h.frame n hn
  · show w'.stores.get? destination = _
    rw [hstores, TextMap.get?_insert_self]
  · obtain ⟨entries, n, rfl⟩ := MemoryStore.rest_of_apply happly
    exact hpivot
  · refine forall_running_set (fun i hi c' hc' => (hcareful i hi c' hc').apply hspares happly) ?_
    intro i hi
    obtain rfl := Worker.running.inj hi
    exact Task.careful_of_phase hphase'

lemma Act.confined (ht : t.Links source destination) (hsource : (before.get? source).isSome = true)
    (h : Act t now p w events z) (hp : Confined destination pivot before (p, w)) :
    Confined destination pivot before z := by
  have hkeep : ∀ j ∈ p.pool.queue, j ∈ p.pool.queue := fun _ hj => hj
  cases h with
  | submit _ _ _ =>
    refine ⟨hp.frame, hp.filed, fun j hj => ?_⟩
    rcases List.mem_append.1 hj with hj | hj
    · exact hp.queued j hj
    · rw [List.mem_singleton.1 hj]
      rfl
  | drop _ hpool _ =>
    rcases hpool with rfl | ⟨-, rfl⟩ <;> exact ⟨hp.frame, hp.filed, hp.queued⟩
  | await _ _ | close _ _ | expire _ _ | giveUp _ => exact ⟨hp.frame, hp.filed, hp.queued⟩
  | stop _ _ => exact hp.exchange rfl hkeep rfl (by simp)
  | @take k j rest _ _ hqueue =>
    have hwaiting := hp.queued j (by simp [hqueue])
    refine hp.exchange rfl (fun i hi => hqueue ▸ List.mem_cons_of_mem _ hi) rfl ?_
    intro store _ i hi
    obtain rfl := Worker.running.inj hi
    exact Task.careful_of_phase (by simp [hwaiting])
  | @go k j j' l' w' hrunning hstep =>
    obtain ⟨store, hstore, hfiled, -, -⟩ := hp.filed
    -- A task may have one store at both ends, so the frame alone does not give the source.
    obtain ⟨origin, horigin⟩ : ∃ origin, w.stores.get? source = some origin := by
      by_cases hsame : source = destination
      · exact ⟨store, hsame ▸ hstore⟩
      · obtain ⟨origin, horigin⟩ := Option.isSome_iff_exists.1 hsource
        exact ⟨origin, (hp.frame source hsame).trans horigin⟩
    rcases Task.careful_of_step ht horigin hstore hfiled hstep with
      ⟨hstores, hcareful⟩ | ⟨c, store', hphase, hphase', happly, hstores⟩
    · refine hp.exchange rfl hkeep hstores ?_
      intro store₀ hstore₀ i hi
      obtain rfl : store₀ = store := Option.some.inj (hstore₀.symm.trans hstore)
      obtain rfl := Worker.running.inj hi
      exact hcareful
    · exact hp.apply hrunning hphase hphase' hstore happly hstores
  | leave _ _ =>
    split
    · exact hp.exchange rfl hkeep rfl (by simp)
    · exact hp.exchange rfl hkeep rfl (by simp)

/-- What a whole pass between two stores of a session leaves: only its destination may differ, and
it is filed. -/
theorem confined_of_conducted {kind : PassKind} {handed pivots : List Pivot}
    {workers : List (Worker Job)} {r : PassReport} (ht : t.Links source destination)
    (hsource : (w.stores.get? source).isSome = true) {store : MemoryStore}
    (hstore : w.stores.get? destination = some store) (hfiled : store.Filed)
    (h : Conducted t kind handed w pivots log workers w' r) :
    (∀ n, n ≠ destination → w'.stores.get? n = w.stores.get? n) ∧
      ∃ store', w'.stores.get? destination = some store' ∧ store'.Filed ∧
        store'.pivotAttribute = store.pivotAttribute := by
  obtain ⟨f, hf⟩ := ht.source
  obtain ⟨g, hg⟩ := ht.destination
  obtain ⟨origin, horigin⟩ := Option.isSome_iff_exists.1 hsource
  have hscope : ∀ {listed : Except SyncError (List Pivot)} {v : World Stores},
      t.scope handed kind w = (listed, v) → v.stores = w.stores := by
    intro listed v hlisted
    cases kind with
    | incremental => rw [← (Prod.mk.inj hlisted).2]
    | full =>
      simp only [Task.scope, hf, Session.list_adapter f horigin] at hlisted
      rw [← (Prod.mk.inj hlisted).2]
    | clean =>
      simp only [Task.scope, hg, Session.list_adapter g hstore] at hlisted
      rw [← (Prod.mk.inj hlisted).2]
  have hrun : ∀ {v : World Stores} {start : Nat} {y : Pass × World Stores},
      v.stores = w.stores → History t (.ofKind t.config kind pivots start, v) log y →
      Confined destination store.pivotAttribute w.stores y := by
    intro v start y hv hhistory
    have hempty : (ofKind t.config kind pivots start).pool.queue = [] := by
      cases kind <;> rfl
    refine hhistory.keeps (I := fun _ y => Confined destination store.pivotAttribute w.stores y)
      ?_ fun hp hact => hact.confined ht hsource hp
    exact hv ▸ confined_of_isNew (isNew_ofKind _ _ _ _) hempty (hv ▸ hstore) hfiled
  cases h with
  | early hlisted =>
    have hsame := hscope hlisted
    exact ⟨fun n _ => by rw [hsame], store, by rw [hsame, hstore], hfiled, rfl⟩
  | whole hlisted hhistory _ =>
    obtain ⟨hframe, ⟨store', hstore', hfiled', hpivot, -⟩, -⟩ := hrun (hscope hlisted) hhistory
    exact ⟨hframe, store', hstore', hfiled', hpivot⟩

end Pass

end StoreSync
