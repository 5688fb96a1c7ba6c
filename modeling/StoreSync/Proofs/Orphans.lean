import Mathlib.Data.List.Pairwise
import StoreSync.Proofs.Accounting
import StoreSync.Proofs.Cleaning
import StoreSync.Proofs.Interleaving

/-!
# A clean pass deletes the orphans

An orphan is an entry of the destination whose first pivot value no entry of the source carries.
When every entry of the destination has an identifier and no two share a pivot value, the entry that
a unit deletes is the one that was listed, and a clean pass deletes exactly the orphans that its
condition and its dry run let it delete, in the order in which they were listed
(`Pass.cleared_of_conducted`).

The single worker of a clean pass takes the pivots in their order, so the log of a run is known: it
is the story of every pivot that is through (`Task.story`), followed by what has happened to the
unit under way (`Job.sofar`).  `Task.tread_of_step` is the step lemma, put together from one for
each phase of a unit, and `Pass.Clears` the invariant, which holds until a unit comes too late
(`Pass.Act.clears`).  That does not come about when the engine runs the pass
(`Pass.late_of_awaited`).
-/

namespace StoreSync

/-- The change that the destination has applied. -/
def Event.applied? : Event → Option Change
  | .answered _ c (.ok true) => some c
  | _ => none

/-- Nothing has gone wrong in a pass so far. -/
structure Ledger.Untroubled (l : Ledger) : Prop where
  failure : l.failure = none
  cancelled : l.cancelled = false
  late : l.late = false

/-- What has happened to a unit of a clean pass that is not yet through. -/
def Job.sofar (j : Job) : List Event :=
  match j.phase with
  | .waiting | .admitted | .lost | .ended => []
  | .counted | .sourceAsked | .destinationAsked _ => [.started j.pivot]
  | .applying c => [.started j.pivot, .computed j.pivot ⟨c, true⟩]

namespace Task

section AnyStores

variable {σ : Type}

/-! ## Orphans -/

/-- No entry of the source carries the first pivot value of an entry. -/
def isOrphan (src dst : MemoryStore) (e : Entity) : Bool :=
  (e.first? dst.pivotAttribute).any fun v => src.entities.all fun s => !src.carries s v

/-- The verdict of the condition on the deletion of an entry, which is bound as the destination when
the condition mentions it. -/
def verdictOn (t : Task σ) (e : Entity) : Except SyncError Bool :=
  t.verdict (if t.reconciler.deleteNeedsDestination then some e else none)

/-- The entry is an orphan that may be deleted. -/
def deletes (t : Task σ) (src dst : MemoryStore) (e : Entity) : Bool :=
  isOrphan src dst e && t.verdictOn e = .ok true && !t.config.dryRun.suppresses .delete

/-- The entry is an orphan on which the condition has no verdict. -/
def fails (t : Task σ) (src dst : MemoryStore) (e : Entity) : Bool :=
  isOrphan src dst e && !(t.verdictOn e).toBool

/-- What happens to the unit of a pivot under which an entry is listed. -/
def storyOf (t : Task σ) (src dst : MemoryStore) (p : Pivot) (e : Entity) : List Event :=
  .started p ::
    if isOrphan src dst e then
      match t.verdictOn e with
      | .error error => [.ended p (.error error)]
      | .ok allowed => .computed p ⟨.delete p.id, allowed⟩ ::
        if t.deletes src dst e then
          [.answered p (.delete p.id) (.ok true), .ended p (.ok ())]
        else [.ended p (.ok ())]
    else [.ended p (.ok ())]

/-- The entry that the destination finds for a pivot at the start. -/
def listed? (dst : MemoryStore) (p : Pivot) : Option Entity := (dst.found? p).map (·.2)

def story (t : Task σ) (src dst : MemoryStore) (p : Pivot) : List Event :=
  ((listed? dst p).map (t.storyOf src dst p)).getD []

/-- The unit of a pivot deletes its entry. -/
def removes (t : Task σ) (src dst : MemoryStore) (p : Pivot) : Bool :=
  (listed? dst p).any (t.deletes src dst)

end AnyStores

/-! ## The setting -/

section Memory

variable {t : Task (MemoryStore × MemoryStore)} {src dst : MemoryStore} {now : Nat}
  {j j' : Job} {l l' : Ledger} {w w' : World (MemoryStore × MemoryStore)} {gone : List String}
  {k : String} {e : Entity} {p : Pivot}

/-- A destination in which every entry has an identifier and no two entries share a pivot value up
to case, and no connection is lost. -/
structure Clearable (t : Task (MemoryStore × MemoryStore)) (src dst : MemoryStore) : Prop where
  joins : t.Joins src dst
  reachable : dst.Reachable
  identified : ∀ e ∈ dst.entities, e.identifier.isSome = true
  distinct : dst.records.entries.Pairwise fun a b =>
    ∀ v ∈ a.2.values dst.pivotAttribute, ∀ v' ∈ b.2.values dst.pivotAttribute,
      Text.sameFolded v v' = false
  source : src.connectionLost = false
  destination : dst.connectionLost = false
  loss : ∀ e ∈ dst.entities, ∀ error, t.verdictOn e = .error error →
    error.isConnectionLost = false

/-- A pivot is that of the entry under a key. -/
structure IsPivotOf (dst : MemoryStore) (p : Pivot) (k : String) (e : Entity) : Prop where
  entry : dst.records.get? k = some e
  pivot : dst.pivotOf? e = some p

/-- Two entries that carry one text are the same. -/
lemma Clearable.eq_of_carries (h : Clearable t src dst) {a b : String × Entity} {v : String}
    (ha : dst.records.get? a.1 = some a.2) (hb : dst.records.get? b.1 = some b.2)
    (hav : dst.carries a.2 v = true) (hbv : dst.carries b.2 v = true) : a = b := by
  by_contra hne
  have hsymmetric : Std.Symm fun a b : String × Entity =>
      ∀ v ∈ a.2.values dst.pivotAttribute, ∀ v' ∈ b.2.values dst.pivotAttribute,
        Text.sameFolded v v' = false := by
    refine ⟨fun a b hab v hv v' hv' => ?_⟩
    rw [Text.sameFolded_comm]
    exact hab v' hv' v hv
  have hdistinct := h.distinct.forall ((TextMap.mem_entries_iff _).2 ha)
    ((TextMap.mem_entries_iff _).2 hb) hne
  obtain ⟨x, hx, hxv⟩ := List.any_eq_true.1 hav
  obtain ⟨y, hy, hyv⟩ := List.any_eq_true.1 hbv
  have hsame : Text.sameFolded x y = true :=
    Text.sameFolded_trans hxv (by rw [Text.sameFolded_comm]; exact hyv)
  rw [hdistinct x hx y hy] at hsame
  simp at hsame

/-- What a pivot says of its entry. -/
lemma Clearable.pivot (h : Clearable t src dst) (hp : IsPivotOf dst p k e) :
    ∃ v, e.first? dst.pivotAttribute = some v ∧ p = dst.pivotFor p.id v ∧
      e.identifier = some p.id ∧ k = Text.fold p.id := by
  obtain ⟨v, hv, rfl⟩ := MemoryStore.pivotOf?_eq_some_iff.1 hp.pivot
  obtain ⟨id, hid⟩ := Option.isSome_iff_exists.1
    (h.identified e (MemoryStore.mem_entities_iff.2 ⟨k, hp.entry⟩))
  have hkey := h.reachable.keyed k e id hp.entry hid
  have hpid : (dst.pivotFor (e.identifier.getD v) v).id = id := by rw [hid]; rfl
  refine ⟨v, hv, ?_, ?_, ?_⟩
  · rw [hpid, hid]
    rfl
  · rw [hpid]
    exact hid
  · rw [hpid]
    exact hkey

/-- As long as it is there, the entry of a pivot is what the destination finds for it. -/
lemma Clearable.found?_eq (h : Clearable t src dst) (hp : IsPivotOf dst p k e) {s : MemoryStore}
    (hs : dst.Without gone s) (hthere : k ∉ gone) : s.found? p = some (k, e) := by
  obtain ⟨v, hv, hpv, -, -⟩ := h.pivot hp
  have hcarries : dst.carries e v = true := MemoryStore.carries_of_first? hv
  have hwanted : s.wanted p = v := by
    rw [hpv]
    exact MemoryStore.wanted_pivotFor _ _
  have hsame : ∀ e', s.carries e' v = dst.carries e' v := by
    intro e'
    rw [MemoryStore.carries, hs.pivotAttribute]
    rfl
  have hget : s.records.get? k = some e := by
    rw [hs.get?_records, if_neg hthere]
    exact hp.entry
  cases hfound : s.found? p with
  | none =>
    have hnot := List.find?_eq_none.1 hfound (k, e) ((TextMap.mem_entries_iff _).2 hget)
    rw [hwanted, hsame] at hnot
    exact absurd hcarries hnot
  | some a =>
    have ha := MemoryStore.get?_of_found? (k := a.1) (e := a.2) hfound
    have hav := MemoryStore.carries_of_found? (k := a.1) (e := a.2) hfound
    rw [hwanted, hsame] at hav
    rw [h.eq_of_carries (b := (k, e)) (hs.get?_of_get? ha) hp.entry hav hcarries]

lemma isOrphan_iff (h : Clearable t src dst) (hp : IsPivotOf dst p k e) :
    isOrphan src dst e = true ↔ src.found? p = none := by
  obtain ⟨v, hv, hpv, -, -⟩ := h.pivot hp
  have hwanted : src.wanted p = v := by
    rw [hpv]
    exact MemoryStore.wanted_pivotFor _ _
  simp only [isOrphan, hv, Option.any_some, MemoryStore.found?, List.find?_eq_none, hwanted,
    List.all_eq_true, MemoryStore.entities_eq, TextMap.values, List.mem_map]
  constructor
  · intro hnone a ha
    simpa using hnone a.2 ⟨a, ha, rfl⟩
  · rintro hnone s ⟨a, ha, rfl⟩
    simpa using hnone a ha

lemma story_eq (h : Clearable t src dst) (hp : IsPivotOf dst p k e) :
    t.story src dst p = t.storyOf src dst p e := by
  simp [story, listed?, h.found?_eq hp dst.without_nil (List.not_mem_nil)]

lemma removes_eq (h : Clearable t src dst) (hp : IsPivotOf dst p k e) :
    t.removes src dst p = t.deletes src dst e := by
  simp [removes, listed?, h.found?_eq hp dst.without_nil (List.not_mem_nil)]

/-! ## The steps of a unit -/

/-- What a unit under way is about to do; it has lost no connection. -/
def Doomed (t : Task (MemoryStore × MemoryStore)) (src dst : MemoryStore) (j : Job) : Prop :=
  match j.phase with
  | .destinationAsked _ => t.reconciler.deleteNeedsDestination = true ∧ src.found? j.pivot = none
  | .applying c => c = .delete j.pivot.id ∧ t.removes src dst j.pivot = true
  | .lost => False
  | _ => True

/-- What a step of a unit adds to the log, in a store that has lost some entries but not its own. -/
inductive Tread (t : Task (MemoryStore × MemoryStore)) (src dst : MemoryStore)
    (gone : List String) (j : Job) (w : World (MemoryStore × MemoryStore)) (events : List Event) :
    Job → Ledger → World (MemoryStore × MemoryStore) → Prop
  | go {j' : Job} {l' : Ledger} {w' : World (MemoryStore × MemoryStore)}
      (hpivot : j'.pivot = j.pivot) (hopen : j'.phase ≠ .ended)
      (hsofar : j'.sofar = j.sofar ++ events) (hdoomed : t.Doomed src dst j')
      (hledger : l'.Untroubled) (hstores : w'.stores = w.stores) :
      Tread t src dst gone j w events j' l' w'
  | settle {j' : Job} {l' : Ledger} {w' : World (MemoryStore × MemoryStore)}
      (hpivot : j'.pivot = j.pivot) (hended : j'.phase = .ended)
      (hstory : t.story src dst j.pivot = j.sofar ++ events) (hledger : l'.Untroubled)
      (hsource : w'.stores.1 = w.stores.1)
      (hdestination : dst.Without
        (if t.removes src dst j.pivot then Text.fold j.pivot.id :: gone else gone) w'.stores.2) :
      Tread t src dst gone j w events j' l' w'

/-- A deletion that the condition has judged goes on exactly if it deletes. -/
lemma suppression?_of_verdictOn (horphan : isOrphan src dst e = true) {allowed : Bool}
    (hverdict : t.verdictOn e = .ok allowed) (id : String) :
    (t.suppression? ⟨.delete id, allowed⟩).isSome = !t.deletes src dst e := by
  have hsuppresses : t.config.dryRun.suppresses (Change.delete id).modification =
      t.config.dryRun.suppresses .delete := rfl
  cases allowed <;> cases hdry : t.config.dryRun.suppresses .delete <;>
    simp [suppression?, deletes, horphan, hverdict, hsuppresses, hdry]

/-- A unit whose plan is the deletion of its entry. -/
lemma tread_of_takeUp (h : Clearable t src dst) (hp : IsPivotOf dst j.pivot k e)
    (horphan : isOrphan src dst e = true) (hsofar : j.sofar = [.started j.pivot])
    (hdst : dst.Without gone w.stores.2) (hledger : l.Untroubled)
    {plan : Asked (Option PlannedChange)}
    (hplan : plan.result = (t.verdictOn e).map fun allowed => some ⟨.delete j.pivot.id, allowed⟩)
    {w₀ : World (MemoryStore × MemoryStore)} (hw₀ : w₀.stores = w.stores)
    (hstep : t.takeUp now j plan l w₀ = (.running j', l', w')) :
    t.Tread src dst gone j w (t.planEvents j.pivot plan) j' l' w' := by
  have hstory := story_eq h hp
  have hremoves := removes_eq h hp
  cases hverdict : t.verdictOn e with
  | error error =>
    have hkind := h.loss e (MemoryStore.mem_entities_iff.2 ⟨k, hp.entry⟩) error hverdict
    rw [hverdict] at hplan
    have hresult : plan.result = .error error := hplan
    simp only [takeUp, hresult, conclude, Prod.mk.injEq, Progress.running.injEq] at hstep
    obtain ⟨rfl, rfl, rfl⟩ := hstep
    have hkept : t.removes src dst j.pivot = false := by
      rw [hremoves]
      simp [deletes, hverdict]
    refine .settle rfl ?_ ?_ ?_ (congrArg Prod.fst hw₀) ?_
    · simp [Phase.after, hkind]
    · simp [hstory, hsofar, storyOf, horphan, hverdict, planEvents, hresult]
    · rw [Ledger.record, hkind]
      exact ⟨hledger.failure, hledger.cancelled, hledger.late⟩
    · rw [hkept]
      exact hw₀ ▸ hdst
  | ok allowed =>
    have hreason := suppression?_of_verdictOn (t := t) horphan hverdict j.pivot.id
    rw [hverdict] at hplan
    have hresult : plan.result = .ok (some ⟨.delete j.pivot.id, allowed⟩) := hplan
    simp only [takeUp, hresult] at hstep
    cases hsuppressed : t.suppression? ⟨.delete j.pivot.id, allowed⟩ with
    | some reason =>
      simp only [hsuppressed, conclude, Prod.mk.injEq, Progress.running.injEq] at hstep
      obtain ⟨rfl, rfl, rfl⟩ := hstep
      have hkept : t.deletes src dst e = false := by simpa [hsuppressed] using hreason
      refine .settle rfl rfl ?_ ⟨hledger.failure, hledger.cancelled, hledger.late⟩
        (congrArg Prod.fst hw₀) ?_
      · simp [hstory, hsofar, storyOf, horphan, hverdict, planEvents, hresult, hsuppressed, hkept]
      · rw [hremoves, hkept]
        exact hw₀ ▸ hdst
    | none =>
      simp only [hsuppressed, Prod.mk.injEq, Progress.running.injEq] at hstep
      obtain ⟨rfl, rfl, rfl⟩ := hstep
      have hgone : t.deletes src dst e = true := by simpa [hsuppressed] using hreason
      obtain rfl : allowed = true := by
        cases allowed with
        | true => rfl
        | false => simp [suppression?] at hsuppressed
      refine .go rfl (by simp) ?_ ?_ ⟨hledger.failure, hledger.cancelled, hledger.late⟩ hw₀
      · rw [hsofar]
        simp [Job.sofar, planEvents, hresult, hsuppressed]
      · exact ⟨rfl, by rw [← hgone]; exact hremoves⟩

lemma tread_of_waiting (hledger : l.Untroubled) (hlate : l'.late = false)
    (hphase : j.phase = .waiting)
    (hstep : t.unitStep true now j l w = (.running j', l', w')) :
    t.Tread src dst gone j w (t.unitEvents true now j l w) j' l' w' := by
  simp only [unitStep, hphase, enter, hledger.cancelled, Bool.false_eq_true, if_false] at hstep
  split at hstep
  · obtain rfl := (Prod.mk.inj (Prod.mk.inj hstep).2).1
    simp at hlate
  next hearly =>
    simp only [Prod.mk.injEq, Progress.running.injEq] at hstep
    obtain ⟨rfl, rfl, rfl⟩ := hstep
    refine .go rfl (by simp) ?_ trivial hledger rfl
    simp [Job.sofar, unitEvents, hphase, hearly]

lemma tread_of_admitted (hledger : l.Untroubled) (hphase : j.phase = .admitted)
    (hstep : t.unitStep true now j l w = (.running j', l', w')) :
    t.Tread src dst gone j w (t.unitEvents true now j l w) j' l' w' := by
  simp only [unitStep, hphase, Prod.mk.injEq, Progress.running.injEq] at hstep
  obtain ⟨rfl, rfl, rfl⟩ := hstep
  refine .go rfl (by simp) ?_ trivial ⟨hledger.failure, hledger.cancelled, hledger.late⟩ rfl
  simp [Job.sofar, unitEvents, hphase]

lemma tread_of_counted (ht : t.Joins src dst) (hledger : l.Untroubled)
    (hphase : j.phase = .counted)
    (hstep : t.unitStep true now j l w = (.running j', l', w')) :
    t.Tread src dst gone j w (t.unitEvents true now j l w) j' l' w' := by
  simp only [unitStep, hphase, askSource, requestFetch_source ht, Prod.mk.injEq,
    Progress.running.injEq] at hstep
  obtain ⟨rfl, rfl, rfl⟩ := hstep
  refine .go rfl (by simp) ?_ trivial hledger rfl
  simp [Job.sofar, unitEvents, hphase]

/-- The source has the entry of the unit, which stays. -/
lemma tread_of_found (h : Clearable t src dst) (hp : IsPivotOf dst j.pivot k e)
    (hdst : dst.Without gone w.stores.2) (hledger : l.Untroubled)
    (hsofar : j.sofar = [.started j.pivot]) {a : String × Entity}
    (hfound : src.found? j.pivot = some a) :
    t.Tread src dst gone j w [.ended j.pivot (.ok ())] { j with phase := .ended } l w := by
  have horphan : isOrphan src dst e = false := by
    rw [← Bool.not_eq_true, isOrphan_iff h hp, hfound]
    simp
  have hkept : t.removes src dst j.pivot = false := by
    rw [removes_eq h hp]
    simp [deletes, horphan]
  refine .settle rfl rfl ?_ hledger rfl ?_
  · simp [story_eq h hp, hsofar, storyOf, horphan]
  · rw [hkept]
    exact hdst

lemma tread_of_sourceAsked (h : Clearable t src dst) (hp : IsPivotOf dst j.pivot k e)
    (hsrc : w.stores.1 = src) (hdst : dst.Without gone w.stores.2) (hledger : l.Untroubled)
    (hphase : j.phase = .sourceAsked)
    (hstep : t.unitStep true now j l w = (.running j', l', w')) :
    t.Tread src dst gone j w (t.unitEvents true now j l w) j' l' w' := by
  have hanswer : t.source.answerFetch j.pivot w.stores =
      (.ok ((src.found? j.pivot).map (·.2)), w.stores) := by
    rw [answerFetch_source h.joins, hsrc, MemoryStore.fetch_eq h.source]
  have hsofar : j.sofar = [.started j.pivot] := by simp [Job.sofar, hphase]
  simp only [unitStep, hphase, onSource, hanswer, if_true] at hstep
  simp only [unitEvents, hphase, hanswer, if_true]
  cases hfound : src.found? j.pivot with
  | some a =>
    simp only [hfound, Option.map_some, Option.isSome_some, if_true, conclude, Prod.mk.injEq,
      Progress.running.injEq] at hstep
    obtain ⟨rfl, rfl, rfl⟩ := hstep
    exact tread_of_found h hp hdst hledger hsofar hfound
  | none =>
    have horphan := (isOrphan_iff h hp).2 hfound
    simp only [hfound, Option.map_none, Option.isSome_none, Bool.false_eq_true, if_false] at hstep
    simp only [Option.map_none, Option.isSome_none, Bool.false_eq_true, if_false]
    by_cases hneeds : t.reconciler.deleteNeedsDestination = true
    · simp only [if_pos hneeds, askDestination, requestFetch_destination h.joins, Prod.mk.injEq,
        Progress.running.injEq] at hstep
      obtain ⟨rfl, rfl, rfl⟩ := hstep
      rw [if_pos hneeds]
      refine .go rfl (by simp) ?_ ⟨hneeds, hfound⟩ hledger rfl
      rw [hsofar]
      simp [Job.sofar]
    · rw [if_neg hneeds] at hstep ⊢
      refine tread_of_takeUp h hp horphan hsofar hdst hledger ?_ rfl hstep
      rw [result_planClean fun hneeds' => absurd hneeds' hneeds, verdictOn, if_neg hneeds]
      rfl

/-- The destination still finds the entry of the unit. -/
lemma tread_of_destinationAsked (h : Clearable t src dst) (hp : IsPivotOf dst j.pivot k e)
    (hdst : dst.Without gone w.stores.2) (hthere : k ∉ gone) (hledger : l.Untroubled)
    {known : Option Entity} (hphase : j.phase = .destinationAsked known)
    (hneeds : t.reconciler.deleteNeedsDestination = true) (hfound : src.found? j.pivot = none)
    (hstep : t.unitStep true now j l w = (.running j', l', w')) :
    t.Tread src dst gone j w (t.unitEvents true now j l w) j' l' w' := by
  obtain ⟨v, -, -, hid, -⟩ := h.pivot hp
  have hsofar : j.sofar = [.started j.pivot] := by simp [Job.sofar, hphase]
  have hanswer : t.destination.answerFetch j.pivot w.stores = (.ok (some e), w.stores) := by
    have hup : w.stores.2.connectionLost = false := hdst.connectionLost.trans h.destination
    rw [answerFetch_destination h.joins, MemoryStore.fetch_eq hup, h.found?_eq hp hdst hthere]
    rfl
  have hcheck : t.checkDestination j.pivot (.ok (some e)) = .ok (some e) := by
    simp [checkDestination, hid]
  simp only [unitStep, hphase, onDestination, hanswer, hcheck, if_true] at hstep
  simp only [unitEvents, hphase, hanswer, hcheck, if_true]
  refine tread_of_takeUp h hp ((isOrphan_iff h hp).2 hfound) hsofar hdst hledger ?_ rfl hstep
  rw [result_planClean fun _ => rfl, verdictOn, if_pos hneeds]
  simp [hid]

/-- The entry of the unit is still there, so that it can be deleted. -/
lemma tread_of_applying (h : Clearable t src dst) (hp : IsPivotOf dst j.pivot k e)
    (hdst : dst.Without gone w.stores.2) (hthere : k ∉ gone) (hledger : l.Untroubled)
    (hphase : j.phase = .applying (.delete j.pivot.id))
    (hgoes : t.removes src dst j.pivot = true)
    (hstep : t.unitStep true now j l w = (.running j', l', w')) :
    t.Tread src dst gone j w (t.unitEvents true now j l w) j' l' w' := by
  obtain ⟨v, -, -, -, hkey⟩ := h.pivot hp
  have hdeletes : t.deletes src dst e = true := removes_eq h hp ▸ hgoes
  obtain ⟨⟨horphan, hverdict⟩, -⟩ : (isOrphan src dst e = true ∧ t.verdictOn e = .ok true) ∧
      t.config.dryRun.suppresses .delete = false := by simpa [deletes] using hdeletes
  obtain ⟨s, happly⟩ : ∃ s, w.stores.2.apply (.delete j.pivot.id)
      (w.epoch.addMilliseconds now) = .ok s := by
    have hcontains : w.stores.2.entries.contains (Text.fold j.pivot.id) = true := by
      rw [← MemoryStore.contains_records, TextMap.contains, hdst.get?_records, ← hkey,
        if_neg hthere, hp.entry]
      rfl
    rw [MemoryStore.apply_delete _ _ (hdst.connectionLost.trans h.destination), if_pos hcontains]
    exact ⟨_, rfl⟩
  simp only [unitStep, hphase, carryOut, apply_destination h.joins, happly, checkApplied,
    conclude, Prod.mk.injEq, Progress.running.injEq] at hstep
  obtain ⟨rfl, rfl, rfl⟩ := hstep
  refine .settle rfl rfl ?_ ⟨hledger.failure, hledger.cancelled, hledger.late⟩ rfl ?_
  · simp [story_eq h hp, Job.sofar, hphase, storyOf, horphan, hverdict, hdeletes, unitEvents,
      apply_destination h.joins, happly, checkApplied]
  · rw [if_pos hgoes]
    exact hdst.delete happly

/-- What a step of a unit is that comes in time, as long as its entry is still there. -/
lemma tread_of_step (h : Clearable t src dst) (hp : IsPivotOf dst j.pivot k e)
    (hsrc : w.stores.1 = src) (hdst : dst.Without gone w.stores.2) (hthere : k ∉ gone)
    (hledger : l.Untroubled) (hlate : l'.late = false) (hdoomed : t.Doomed src dst j)
    (hstep : t.unitStep true now j l w = (.running j', l', w')) :
    t.Tread src dst gone j w (t.unitEvents true now j l w) j' l' w' := by
  cases hphase : j.phase with
  | waiting => exact tread_of_waiting hledger hlate hphase hstep
  | admitted => exact tread_of_admitted hledger hphase hstep
  | counted => exact tread_of_counted h.joins hledger hphase hstep
  | sourceAsked => exact tread_of_sourceAsked h hp hsrc hdst hledger hphase hstep
  | destinationAsked known =>
    obtain ⟨hneeds, hfound⟩ : t.reconciler.deleteNeedsDestination = true ∧
        src.found? j.pivot = none := by simpa [Doomed, hphase] using hdoomed
    exact tread_of_destinationAsked h hp hdst hthere hledger hphase hneeds hfound hstep
  | applying c =>
    obtain ⟨rfl, hgoes⟩ : c = .delete j.pivot.id ∧ t.removes src dst j.pivot = true := by
      simpa [Doomed, hphase] using hdoomed
    exact tread_of_applying h hp hdst hthere hledger hphase hgoes hstep
  | lost => simp [Doomed, hphase] at hdoomed
  | ended => simp [unitStep, hphase] at hstep

end Memory

end Task

/-! ## The run of a clean pass -/

/-- What has happened to the unit of a worker that is not yet through. -/
def Worker.sofar : Worker Job → List Event
  | .running j => j.sofar
  | _ => []

namespace Pass

variable {t : Task (MemoryStore × MemoryStore)} {src dst : MemoryStore} {pivots : List Pivot}
  {now : Nat} {p : Pass} {w : World (MemoryStore × MemoryStore)}
  {z : Pass × World (MemoryStore × MemoryStore)} {events log : List Event}

/-- The pivots that a destination listed. -/
structure Lists (dst : MemoryStore) (pivots : List Pivot) : Prop where
  listed : ∀ q ∈ pivots, ∃ k e, Task.IsPivotOf dst q k e
  distinct : pivots.Pairwise fun q q' => Text.fold q.id ≠ Text.fold q'.id

/-- The keys that the units of pivots take away. -/
def keysGone (t : Task (MemoryStore × MemoryStore)) (src dst : MemoryStore) (done : List Pivot) :
    List String :=
  (done.filter (t.removes src dst)).map fun q => Text.fold q.id

/-- Where a clean pass stands: some pivots are through, in their order, and their stories are the
log but for what has happened to the unit under way; and the destination has lost just the keys
that they take away. -/
structure Books (t : Task (MemoryStore × MemoryStore)) (src dst : MemoryStore)
    (pivots : List Pivot) (log : List Event) (done : List Pivot)
    (x : Pass × World (MemoryStore × MemoryStore)) : Prop where
  split : done ++ x.1.unsettled = pivots
  log : log = done.flatMap (t.story src dst) ++ x.1.pool.workers.flatMap Worker.sofar
  destination : dst.Without (keysGone t src dst done) x.2.stores.2

/-- The invariant of a clean pass that nothing breaks off. -/
structure Clears (t : Task (MemoryStore × MemoryStore)) (src dst : MemoryStore)
    (pivots : List Pivot) (log : List Event) (x : Pass × World (MemoryStore × MemoryStore)) :
    Prop where
  clean : x.1.isClean = true
  single : ∃ worker, x.1.pool.workers = [worker]
  stage : x.1.pool.stage = .accepting ∨ x.1.pool.stage = .awaiting none ∨
    x.1.pool.stage = .ended true
  ledger : x.1.ledger.Untroubled
  source : x.2.stores.1 = src
  doomed : ∀ j, .running j ∈ x.1.pool.workers → t.Doomed src dst j
  books : ∃ done, Books t src dst pivots log done x

lemma Clears.unbroken (h : Clears t src dst pivots log (p, w)) : p.Unbroken := by
  refine ⟨h.ledger.failure, h.ledger.late, fun deadline hdraining => ?_, fun hended => ?_⟩
  · rcases h.stage with hs | hs | hs <;> simp [show p.pool.stage = _ from hs] at hdraining
  · rcases h.stage with hs | hs | hs <;> simp [show p.pool.stage = _ from hs] at hended

lemma clears_of_start {config : TaskConfig} (hw : w.stores = (src, dst)) :
    Clears t src dst pivots [] (.cleaning config pivots now, w) := by
  refine ⟨rfl, ⟨.idle, rfl⟩, Or.inl rfl, ⟨rfl, rfl, rfl⟩, by rw [hw], ?_, [], ?_, ?_, ?_⟩
  · intro j hj
    have hidle := (isNew_ofKind config .clean pivots now).workers _ hj
    simp at hidle
  · simp [unsettled, cleaning, Pool.new, Worker.unsettled]
  · simp [cleaning, Pool.new, Worker.sofar]
  · rw [hw]
    exact dst.without_nil

/-- The books of a pass in terms of its worker. -/
lemma Clears.opened (h : Clears t src dst pivots log (p, w)) {k : Nat} {x : Worker Job}
    (hx : p.pool.workers[k]? = some x) :
    ∃ done, done ++ (x.unsettled ++ (p.pool.queue.map (·.pivot) ++ p.pending)) = pivots ∧
      log = done.flatMap (t.story src dst) ++ x.sofar ∧
      dst.Without (keysGone t src dst done) w.stores.2 := by
  obtain ⟨worker, hsingle⟩ := h.single
  have hsingle : p.pool.workers = [worker] := hsingle
  obtain rfl : x = worker := by
    have hmem := List.mem_of_getElem? hx
    rw [hsingle] at hmem
    exact List.mem_singleton.1 hmem
  obtain ⟨done, hsplit, hlog, hdestination⟩ := h.books
  exact ⟨done, by simpa [unsettled, hsingle] using hsplit, by simpa [hsingle] using hlog,
    hdestination⟩

/-- The pass has no other worker. -/
lemma Clears.workers_set (h : Clears t src dst pivots log (p, w)) {k : Nat} {x : Worker Job}
    (hx : p.pool.workers[k]? = some x) (y : Worker Job) : p.pool.workers.set k y = [y] := by
  obtain ⟨worker, hsingle⟩ := h.single
  have hsingle : p.pool.workers = [worker] := hsingle
  cases k with
  | zero => simp [hsingle]
  | succ k => simp [hsingle] at hx

/-- The worker takes up something else. -/
lemma Clears.exchange (h : Clears t src dst pivots log (p, w)) (done : List Pivot)
    {pool : Pool Job} {k : Nat} {x y : Worker Job} (hx : p.pool.workers[k]? = some x) {l : Ledger}
    {w' : World (MemoryStore × MemoryStore)} {log' : List Event}
    (hworkers : pool.workers = p.pool.workers.set k y) (hstage : pool.stage = p.pool.stage)
    (hledger : l.Untroubled) (hsource : w'.stores.1 = src)
    (hdoomed : ∀ j, y = .running j → t.Doomed src dst j)
    (hsplit : done ++ (y.unsettled ++ (pool.queue.map (·.pivot) ++ p.pending)) = pivots)
    (hlog : log' = done.flatMap (t.story src dst) ++ y.sofar)
    (hdestination : dst.Without (keysGone t src dst done) w'.stores.2) :
    Clears t src dst pivots log' ({ p with pool := pool, ledger := l }, w') := by
  have hset : pool.workers = [y] := hworkers.trans (h.workers_set hx y)
  refine ⟨h.clean, ⟨y, hset⟩, ?_, hledger, hsource, ?_, done, ?_, ?_, hdestination⟩
  · show pool.stage = _ ∨ pool.stage = _ ∨ pool.stage = _
    rw [hstage]
    exact h.stage
  · intro j hj
    have hj : .running j ∈ pool.workers := hj
    rw [hset] at hj
    exact hdoomed j (List.mem_singleton.1 hj).symm
  · simpa [unsettled, hset] using hsplit
  · simpa [hset] using hlog

/-- The keys of the pivots that are through do not include that of a later one. -/
lemma Lists.notMem_keysGone {done rest : List Pivot} {q : Pivot}
    (h : Lists dst (done ++ q :: rest)) : Text.fold q.id ∉ keysGone t src dst done := by
  intro hmem
  obtain ⟨q', hq', heq⟩ := List.mem_map.1 hmem
  have hdone := (List.mem_filter.1 hq').1
  exact (List.pairwise_append.1 h.distinct).2.2 q' hdone q List.mem_cons_self heq

lemma mem_keysGone_append {done : List Pivot} {q : Pivot} {k : String} :
    k ∈ (if t.removes src dst q then Text.fold q.id :: keysGone t src dst done
      else keysGone t src dst done) ↔ k ∈ keysGone t src dst (done ++ [q]) := by
  have happend : keysGone t src dst (done ++ [q]) = keysGone t src dst done ++
      if t.removes src dst q then [Text.fold q.id] else [] := by
    cases hremoves : t.removes src dst q <;> simp [keysGone, hremoves]
  rw [happend, List.mem_append]
  split
  · rw [List.mem_cons, List.mem_singleton]
    exact or_comm
  · simp

/-- The unit under way makes a step, and does not come too late. -/
lemma Clears.step (hsetting : Task.Clearable t src dst) (hlists : Lists dst pivots)
    (h : Clears t src dst pivots log (p, w)) {k : Nat} {j j' : Job} {l' : Ledger}
    {w' : World (MemoryStore × MemoryStore)}
    (hrunning : p.pool.workers[k]? = some (.running j)) (hlate : l'.late = false)
    (hstep : t.unitStep p.isClean now j p.ledger w = (.running j', l', w')) :
    Clears t src dst pivots (log ++ t.unitEvents p.isClean now j p.ledger w)
      ({ p with pool := p.pool.setWorker k (.running j'), ledger := l' }, w') := by
  have hopen : j.phase ≠ .ended := by
    intro hended
    simp [Task.unitStep, hended] at hstep
  have hevents : t.unitEvents p.isClean now j p.ledger w = t.unitEvents true now j p.ledger w := by
    rw [show p.isClean = true from h.clean]
  rw [show p.isClean = true from h.clean] at hstep
  rw [hevents]
  obtain ⟨done, hsplit, hlog, hdestination⟩ := h.opened hrunning
  have hunsettled : (Worker.running j).unsettled = [j.pivot] := by
    simp [Worker.unsettled, Job.unsettled, hopen]
  rw [hunsettled, List.singleton_append] at hsplit
  -- The pivot of the unit comes after those that are through, so its entry is still there.
  obtain ⟨key, e, hp⟩ := hlists.listed j.pivot
    (hsplit ▸ List.mem_append_right _ List.mem_cons_self)
  obtain ⟨-, -, -, -, hkey⟩ := hsetting.pivot hp
  have hthere : key ∉ keysGone t src dst done := by
    rw [hkey]
    exact (hsplit ▸ hlists : Lists dst (done ++ j.pivot :: _)).notMem_keysGone
  have htread := Task.tread_of_step hsetting hp h.source hdestination hthere h.ledger hlate
    (h.doomed j (List.mem_of_getElem? hrunning)) hstep
  cases htread with
  | go hpivot hopen' hsofar hdoomed hledger hstores =>
    refine h.exchange done (y := .running j') hrunning rfl rfl
      hledger (hstores ▸ h.source) ?_ ?_ ?_ (hstores ▸ hdestination)
    · intro i hi
      obtain rfl := Worker.running.inj hi
      exact hdoomed
    · rw [show (Worker.running j').unsettled = [j.pivot] by
        simp [Worker.unsettled, Job.unsettled, hopen', hpivot]]
      exact hsplit
    · rw [hlog, List.append_assoc]
      exact congrArg _ hsofar.symm
  | settle hpivot hended hstory hledger hsource hdestination' =>
    refine h.exchange (done ++ [j.pivot]) (y := .running j') hrunning rfl rfl hledger
      (hsource.trans h.source) ?_ ?_ ?_ (hdestination'.congr fun k => mem_keysGone_append)
    · intro i hi
      obtain rfl := Worker.running.inj hi
      simp [Task.Doomed, hended]
    · rw [show (Worker.running j').unsettled = [] by
        simp [Worker.unsettled, Job.unsettled, hended]]
      simpa [Pool.setWorker] using hsplit
    · have hnone : (Worker.running j').sofar = [] := by simp [Worker.sofar, Job.sofar, hended]
      rw [hlog, hnone, List.append_nil, List.flatMap_append, List.flatMap_singleton, hstory,
        List.append_assoc]
      rfl

/-- A unit has come too late, and nothing begins any more. -/
structure Overdue (p : Pass) : Prop where
  late : p.ledger.late = true
  cancelled : p.ledger.cancelled = true
  failure : p.ledger.failure = none
  queued : p.IsQueued
  through : ∀ j, .running j ∈ p.pool.workers → j.phase = .waiting ∨ j.phase = .ended

/-- No unit of an overdue pass goes on. -/
lemma Act.overdue (h : Act t now p w events z) (hp : p.Overdue) : z.1.Overdue := by
  have hqueued := h.queued hp.queued
  cases h with
  | submit | await | close | expire | giveUp =>
    exact ⟨hp.late, hp.cancelled, hp.failure, hqueued, hp.through⟩
  | drop _ hpool _ =>
    rcases hpool with rfl | ⟨-, rfl⟩ <;>
      exact ⟨hp.late, hp.cancelled, hp.failure, hqueued, hp.through⟩
  | stop _ _ =>
    exact ⟨hp.late, hp.cancelled, hp.failure, hqueued, forall_running_set hp.through (by simp)⟩
  | take _ _ hqueue =>
    refine ⟨hp.late, hp.cancelled, hp.failure, hqueued, forall_running_set hp.through ?_⟩
    intro j hj
    obtain rfl := Worker.running.inj hj
    exact Or.inl (hp.queued _ (hqueue ▸ List.mem_cons_self))
  | go hrunning hstep =>
    rcases hp.through _ (List.mem_of_getElem? hrunning) with hphase | hphase
    · simp [Task.unitStep, hphase, Task.enter, hp.cancelled] at hstep
    · simp [Task.unitStep, hphase] at hstep
  | leave _ _ =>
    refine ⟨hp.late, hp.cancelled, hp.failure, hqueued, ?_⟩
    split <;> exact forall_running_set hp.through (by simp)

/-- The single worker has the unit that has come too late. -/
lemma Clears.overdue (h : Clears t src dst pivots log (p, w)) (hqueued : p.IsQueued) {k : Nat}
    {j j' : Job} {l' : Ledger} {w' : World (MemoryStore × MemoryStore)}
    (hrunning : p.pool.workers[k]? = some (.running j)) (hlate : l'.late = true)
    (hstep : t.unitStep p.isClean now j p.ledger w = (.running j', l', w')) :
    Overdue { p with pool := p.pool.setWorker k (.running j'), ledger := l' } := by
  rcases (Task.doing_of_step hstep).late_cases with hsame | ⟨-, -, hended, rfl⟩
  · rw [hlate, show p.ledger.late = false from h.ledger.late] at hsame
    simp at hsame
  · refine ⟨rfl, rfl, h.ledger.failure, hqueued, fun i hi => ?_⟩
    have hi : .running i ∈ p.pool.workers.set k (.running j') := hi
    rw [h.workers_set hrunning, List.mem_singleton] at hi
    obtain rfl := Worker.running.inj hi
    exact Or.inr hended

lemma Act.clears (hsetting : Task.Clearable t src dst) (hlists : Lists dst pivots)
    (h : Act t now p w events z) (hbooked : Booked t pivots log p)
    (hp : Clears t src dst pivots log (p, w)) :
    Clears t src dst pivots (log ++ events) z ∨ z.1.Overdue := by
  have hintact := hbooked.intact hp.unbroken
  by_cases hlate : z.1.ledger.late = true
  · cases h with
    | go hrunning hstep =>
      exact Or.inr (hp.overdue hbooked.balanced.queued hrunning hlate hstep)
    | _ => exact absurd hp.ledger.late (by simp [show p.ledger.late = true from hlate])
  have hlate : z.1.ledger.late = false := Bool.eq_false_iff.2 hlate
  refine Or.inl ?_
  cases h with
  | submit hpending _ _ =>
    obtain ⟨done, hsplit, hlog, hdestination⟩ := hp.books
    rw [List.append_nil]
    refine ⟨hp.clean, hp.single, hp.stage, hp.ledger, hp.source, hp.doomed, done, ?_, hlog,
      hdestination⟩
    simpa [unsettled, hpending, Job.new] using hsplit
  | drop hpending _ hwhy => exact absurd hwhy (hintact.accepts hpending)
  | await hpending hstage =>
    obtain ⟨done, hsplit, hlog, hdestination⟩ := hp.books
    rw [List.append_nil]
    refine ⟨hp.clean, hp.single, Or.inr (Or.inl ?_), hp.ledger, hp.source, hp.doomed, done,
      hsplit, hlog, hdestination⟩
    simp [limit, show p.isClean = true from hp.clean]
  | close _ _ =>
    obtain ⟨done, hsplit, hlog, hdestination⟩ := hp.books
    rw [List.append_nil]
    exact ⟨hp.clean, hp.single, Or.inr (Or.inr rfl), hp.ledger, hp.source, hp.doomed, done,
      hsplit, hlog, hdestination⟩
  | expire hstage _ =>
    rcases hp.stage with hs | hs | hs <;> simp [show p.pool.stage = _ from hs] at hstage
  | giveUp hstage =>
    rcases hp.stage with hs | hs | hs <;> simp [show p.pool.stage = _ from hs] at hstage
  | stop hidle _ =>
    obtain ⟨done, hsplit, hlog, hdestination⟩ := hp.opened hidle
    rw [List.append_nil]
    exact hp.exchange done hidle rfl rfl hp.ledger hp.source (by simp) hsplit hlog hdestination
  | @take k j rest hidle _ hqueue =>
    obtain ⟨done, hsplit, hlog, hdestination⟩ := hp.opened hidle
    have hwaiting := hbooked.balanced.queued j (by rw [hqueue]; exact List.mem_cons_self)
    rw [List.append_nil]
    refine hp.exchange done (y := .running j) hidle rfl rfl hp.ledger hp.source ?_ ?_ ?_
      hdestination
    · intro i hi
      obtain rfl := Worker.running.inj hi
      simp [Task.Doomed, hwaiting]
    · simpa [Worker.unsettled, Job.unsettled, hwaiting, hqueue, Pool.setWorker] using hsplit
    · simpa [Worker.sofar, Job.sofar, hwaiting] using hlog
  | go hrunning hstep => exact hp.step hsetting hlists hrunning hlate hstep
  | @leave k j hrunning hphase =>
    have hended : j.phase = .ended := by
      rcases hphase with hphase | ⟨-, hcancelled⟩
      · exact hphase
      · simp [hintact.uncancelled.ledger] at hcancelled
    obtain ⟨done, hsplit, hlog, hdestination⟩ := hp.opened hrunning
    simp only [hintact.uncancelled.ledger, Bool.false_eq_true, if_false, List.append_nil]
    refine hp.exchange done (y := .idle) hrunning rfl rfl hp.ledger hp.source (by simp) ?_ ?_
      hdestination
    · simpa [Worker.unsettled, Job.unsettled, hended, Pool.setWorker] using hsplit
    · simpa [Worker.sofar, Job.sofar, hended] using hlog

lemma History.clears {config : TaskConfig} {start : Nat} (hsetting : Task.Clearable t src dst)
    (hlists : Lists dst pivots) (hw : w.stores = (src, dst))
    (h : History t (.cleaning config pivots start, w) log z) :
    Clears t src dst pivots log z ∨ z.1.Overdue := by
  have hboth : Booked t pivots log z.1 ∧ (Clears t src dst pivots log z ∨ z.1.Overdue) := by
    refine h.keeps (I := fun log z => Booked t pivots log z.1 ∧
      (Clears t src dst pivots log z ∨ z.1.Overdue))
      ⟨booked_of_isNew (isNew_ofKind config .clean pivots start), Or.inl (clears_of_start hw)⟩ ?_
    rintro log events p w z now ⟨hbooked, hclears | hoverdue⟩ hact
    · exact ⟨hact.booked hbooked, hact.clears hsetting hlists hbooked hclears⟩
    · exact ⟨hact.booked hbooked, Or.inr (hact.overdue hoverdue)⟩
  exact hboth.2

/-! ## The clock

Stores in memory answer at once, so that the clock of the engine stands still as long as it runs a
clean pass, and no unit comes too late. -/

/-- A clean pass in which nothing waits for a later time, and whose deadline has not come. -/
structure Prompt (now : Nat) (p : Pass) : Prop where
  clean : p.isClean = true
  stage : ∀ d, p.pool.stage ≠ .awaiting (some d) ∧ p.pool.stage ≠ .draining d
  queued : ∀ j ∈ p.pool.queue, j.wake ≤ now
  running : ∀ j, .running j ∈ p.pool.workers → j.wake ≤ now
  early : isDue p.ledger.deadline now = false
  late : p.ledger.late = false

lemma prompt_of_start (hlimit : 0 < t.config.timeLimit) :
    Prompt now (.cleaning t.config pivots now) := by
  have hnew := isNew_ofKind t.config .clean pivots now
  refine ⟨rfl, by simp [cleaning, Pool.new], by simp [cleaning, Pool.new], fun j hj => ?_, ?_, rfl⟩
  · simpa using hnew.workers _ hj
  · have hearly : ¬now + t.config.timeLimit ≤ now := by omega
    exact decide_eq_false hearly

/-- A unit between two stores in memory never waits. -/
lemma wake_of_doing (ht : t.Joins src dst) {j j' : Job} {l l' : Ledger}
    {w' : World (MemoryStore × MemoryStore)}
    (h : t.Doing now j l w events (.running j', l', w')) (hj : j.wake ≤ now) : j'.wake ≤ now := by
  cases h with
  | ask _ _ hwake =>
    rcases hwake with rfl | ⟨stores, rfl⟩
    · simp [Task.requestFetch_source ht]
    · simp [Task.requestFetch_destination ht]
  | plan => exact Nat.le_refl _
  | _ => exact hj

lemma Act.prompt (ht : t.Joins src dst) (h : Act t now p w events z) (hp : p.Prompt now) :
    z.1.Prompt now := by
  have hearly : isDue z.1.ledger.deadline now = false := by
    rw [h.ledger, Ledger.deadline_foldl_note]
    exact hp.early
  cases h with
  | submit _ _ _ =>
    refine ⟨hp.clean, hp.stage, fun j hj => ?_, hp.running, hearly, hp.late⟩
    rcases List.mem_append.1 hj with hj | hj
    · exact hp.queued j hj
    · rw [List.mem_singleton.1 hj]
      exact Nat.zero_le _
  | drop _ hpool _ =>
    rcases hpool with rfl | ⟨-, rfl⟩ <;>
      exact ⟨hp.clean, hp.stage, hp.queued, hp.running, hearly, hp.late⟩
  | await _ _ =>
    refine ⟨hp.clean, fun d => ?_, hp.queued, hp.running, hearly, hp.late⟩
    simp [limit, hp.clean]
  | close _ _ => exact ⟨hp.clean, by simp, hp.queued, hp.running, hearly, hp.late⟩
  | expire hstage _ => exact absurd hstage (hp.stage _).1
  | giveUp hstage => exact absurd hstage (hp.stage _).2
  | stop _ _ =>
    exact ⟨hp.clean, hp.stage, hp.queued, forall_running_set hp.running (by simp), hearly, hp.late⟩
  | take _ _ hqueue =>
    have hqueued : ∀ j ∈ p.pool.queue, j.wake ≤ now := hp.queued
    rw [hqueue, List.forall_mem_cons] at hqueued
    refine ⟨hp.clean, hp.stage, hqueued.2, forall_running_set hp.running ?_, hearly, hp.late⟩
    intro j hj
    obtain rfl := Worker.running.inj hj
    exact hqueued.1
  | go hrunning hstep =>
    have hdoing := Task.doing_of_step hstep
    refine ⟨hp.clean, hp.stage, hp.queued, forall_running_set hp.running ?_, hearly, ?_⟩
    · intro j hj
      obtain rfl := Worker.running.inj hj
      exact wake_of_doing ht hdoing (hp.running _ (List.mem_of_getElem? hrunning))
    · rcases hdoing.late_cases with hsame | ⟨-, hdue, -⟩
      · exact hsame.trans hp.late
      · simp [hp.early] at hdue
  | leave _ _ =>
    split <;>
      exact ⟨hp.clean, hp.stage, hp.queued, forall_running_set hp.running (by simp), hearly,
        hp.late⟩

/-- Nothing of a prompt pass waits for a later time. -/
lemma Prompt.wake_le (hp : p.Prompt now) {wake : Nat} (hwake : p.wake? t = some wake) :
    wake ≤ now := by
  rcases eq_of_earlier_eq_some hwake with hdeadline | hunit
  · split at hdeadline
    next deadline hstage => exact absurd (hdeadline ▸ hstage) (hp.stage _).1
    next deadline hstage => exact absurd hstage (hp.stage _).2
    · simp at hdeadline
  · obtain ⟨x, hx, hunit⟩ := List.mem_map.1 (mem_of_earliest_eq_some hunit)
    cases x with
    | running j =>
      obtain rfl : j.wake = wake := by simpa [Worker.unit?, Task.units] using hunit
      exact hp.running j hx
    | _ => simp [Worker.unit?] at hunit

/-- The engine runs a clean pass without its clock moving, and so in time. -/
lemma late_of_awaited (ht : t.Joins src dst) (hlimit : 0 < t.config.timeLimit) {start : Nat}
    (hstate : (Engine.awaited t (.cleaning t.config pivots start) w start).state.passes = [p]) :
    p.ledger.late = false := by
  obtain ⟨p', w', hpassed, hprompt⟩ : ∃ p' w',
      (Engine.awaited t (.cleaning t.config pivots start) w start).state = ⟨[p'], w'⟩ ∧
        p'.Prompt start := by
    refine Process.run_keeps_now
      (I := fun e : Engine (MemoryStore × MemoryStore) => ∃ p' w', e = ⟨[p'], w'⟩ ∧
        p'.Prompt start) ?_ ?_ ⟨_, w, rfl, prompt_of_start hlimit⟩
    · rintro _ e ⟨p, w, rfl, hprompt⟩ hstep
      obtain ⟨p', w', rfl, hp⟩ := Engine.step?_single hstep
      obtain ⟨events, hevents⟩ := (turn_of_step? hp).exists_happens
      exact ⟨p', w', rfl, (act_of_happens hevents).prompt ht hprompt⟩
    · rintro _ wake ⟨p, w, rfl, hprompt⟩ hwake
      refine hprompt.wake_le (t := t) ?_
      rcases eq_of_earlier_eq_some (show earlier (p.wake? t) none = some wake from hwake) with h | h
      · exact h
      · simp at h
  rw [hpassed] at hstate
  obtain rfl := (List.cons.inj hstate).1
  exact hprompt.late

/-! ## The outcome -/

/-- What a clean pass from a source to a destination leaves. -/
structure Cleared (t : Task (MemoryStore × MemoryStore)) (src dst : MemoryStore)
    (pivots : List Pivot) (log : List Event) (w' : World (MemoryStore × MemoryStore))
    (r : PassReport) : Prop where
  completed : r.status = .completed
  listed : dst.list = .ok pivots
  source : w'.stores.1 = src
  entries : ∀ k entry, w'.stores.2.entries.get? k = some entry ↔
    dst.entries.get? k = some entry ∧ t.deletes src dst entry.entity = false
  order : log.filterMap Event.applied? =
    (pivots.filter (t.removes src dst)).map fun q => .delete q.id
  errored : r.counters.errored = dst.entities.countP (t.fails src dst)

/-- A destination that is up lists one pivot for every entry with a pivot value. -/
lemma lists_of_list (hsetting : Task.Clearable t src dst) (hlist : dst.list = .ok pivots) :
    Lists dst pivots := by
  refine ⟨fun q hq => ?_, ?_⟩
  · obtain ⟨k, entry, hentry, hpivot⟩ := (MemoryStore.mem_list_iff hlist).1 hq
    exact ⟨k, entry.entity, by simp [MemoryStore.records, hentry], hpivot⟩
  · obtain ⟨listed, hlisted, hperm⟩ := MemoryStore.exists_list hsetting.destination
    obtain rfl : listed = pivots := Except.ok.inj (hlisted.symm.trans hlist)
    have hsymm : ∀ {q q' : Pivot}, Text.fold q.id ≠ Text.fold q'.id →
        Text.fold q'.id ≠ Text.fold q.id := fun hne => hne.symm
    rw [hperm.pairwise_iff hsymm, MemoryStore.pivots, MemoryStore.entities_eq, TextMap.values,
      List.filterMap_map, List.pairwise_filterMap]
    refine dst.records.ascending.imp_of_mem fun {a b} ha hb hlt q hq q' hq' => ?_
    obtain ⟨-, -, -, -, hkey⟩ := hsetting.pivot ⟨(TextMap.mem_entries_iff _).1 ha, hq⟩
    obtain ⟨-, -, -, -, hkey'⟩ := hsetting.pivot ⟨(TextMap.mem_entries_iff _).1 hb, hq'⟩
    rw [← hkey, ← hkey']
    exact fun heq => String.lt_irrefl _ (heq ▸ hlt)

/-- What stays of the destination, entry by entry. -/
lemma entries_of_without (hsetting : Task.Clearable t src dst) (hlist : dst.list = .ok pivots)
    {s : MemoryStore} (hs : dst.Without (keysGone t src dst pivots) s) (k : String)
    (entry : StoredEntry) : s.entries.get? k = some entry ↔
      dst.entries.get? k = some entry ∧ t.deletes src dst entry.entity = false := by
  have hmem : ∀ (hentry : dst.entries.get? k = some entry),
      k ∈ keysGone t src dst pivots ↔ t.deletes src dst entry.entity = true := by
    intro hentry
    have hget : dst.records.get? k = some entry.entity := by simp [MemoryStore.records, hentry]
    simp only [keysGone, List.mem_map, List.mem_filter]
    constructor
    · rintro ⟨q, ⟨hq, hremoves⟩, hk⟩
      obtain ⟨k', e, hp⟩ := (lists_of_list hsetting hlist).listed q hq
      obtain ⟨-, -, -, -, hk'⟩ := hsetting.pivot hp
      obtain rfl : k' = k := hk'.trans hk
      obtain rfl : entry.entity = e := Option.some.inj (hget.symm.trans hp.entry)
      rwa [Task.removes_eq hsetting hp] at hremoves
    · intro hdeletes
      obtain ⟨⟨horphan, -⟩, -⟩ : (Task.isOrphan src dst entry.entity = true ∧
          t.verdictOn entry.entity = .ok true) ∧ t.config.dryRun.suppresses .delete = false := by
        simpa [Task.deletes] using hdeletes
      obtain ⟨v, hv, -⟩ := (Option.any_eq_true _ _).1 horphan
      have hp : Task.IsPivotOf dst (dst.pivotFor (entry.entity.identifier.getD v) v) k
          entry.entity := ⟨hget, MemoryStore.pivotOf?_eq_some_iff.2 ⟨v, hv, rfl⟩⟩
      obtain ⟨-, -, -, -, hk⟩ := hsetting.pivot hp
      refine ⟨_, ⟨(MemoryStore.mem_list_iff hlist).2 ⟨k, entry, hentry, hp.pivot⟩, ?_⟩, hk.symm⟩
      rw [Task.removes_eq hsetting hp]
      exact hdeletes
  rw [hs.entries]
  constructor
  · intro hthere
    split at hthere
    · simp at hthere
    next hnot =>
      refine ⟨hthere, ?_⟩
      rw [hmem hthere] at hnot
      simpa using hnot
  · rintro ⟨hentry, hkept⟩
    rw [if_neg (by rw [hmem hentry, hkept]; exact Bool.false_ne_true)]
    exact hentry

/-- The changes that a story applies. -/
lemma applied?_story (q : Pivot) : (t.story src dst q).filterMap Event.applied? =
    if t.removes src dst q then [.delete q.id] else [] := by
  have hstoryOf : ∀ e, (t.storyOf src dst q e).filterMap Event.applied? =
      if t.deletes src dst e then [.delete q.id] else [] := by
    intro e
    rw [Task.storyOf]
    by_cases horphan : Task.isOrphan src dst e = true
    · cases hverdict : t.verdictOn e with
      | error error => simp [Task.deletes, horphan, hverdict, Event.applied?]
      | ok allowed =>
        by_cases hdeletes : t.deletes src dst e = true
        · simp only [if_pos horphan, if_pos hdeletes]
          rfl
        · simp [horphan, hdeletes, Event.applied?]
    · simp [Task.deletes, horphan, Event.applied?]
  cases hlisted : Task.listed? dst q with
  | none => simp [Task.story, Task.removes, hlisted]
  | some e => simp [Task.story, Task.removes, hlisted, hstoryOf]

lemma filterMap_stories : (pivots.flatMap (t.story src dst)).filterMap Event.applied? =
    (pivots.filter (t.removes src dst)).map fun q => .delete q.id := by
  induction pivots with
  | nil => rfl
  | cons q rest ih =>
    rw [List.flatMap_cons, List.filterMap_append, applied?_story, ih, List.filter_cons]
    split <;> rfl

/-- A story fails once if the condition has no verdict on its orphan, and never else. -/
lemma countP_story (hsetting : Task.Clearable t src dst) (q : Pivot) :
    (t.story src dst q).countP Event.isFailed =
      if (Task.listed? dst q).any (t.fails src dst) then 1 else 0 := by
  have hstoryOf : ∀ e ∈ dst.entities, (t.storyOf src dst q e).countP Event.isFailed =
      if t.fails src dst e then 1 else 0 := by
    intro e he
    rw [Task.storyOf]
    by_cases horphan : Task.isOrphan src dst e = true
    · cases hverdict : t.verdictOn e with
      | error error =>
        simp [Task.fails, horphan, hverdict, Except.toBool, hsetting.loss e he error hverdict]
      | ok allowed =>
        by_cases hdeletes : t.deletes src dst e = true <;>
          simp [Task.fails, horphan, hverdict, hdeletes, Except.toBool]
    · simp [Task.fails, horphan]
  cases hlisted : Task.listed? dst q with
  | none => simp [Task.story, hlisted]
  | some e =>
    obtain ⟨⟨k, e'⟩, hfound, rfl⟩ := Option.map_eq_some_iff.1 hlisted
    have he := MemoryStore.mem_entities_iff.2 ⟨k, MemoryStore.get?_of_found? hfound⟩
    simp [Task.story, hlisted, hstoryOf e' he]

/-- The stories of the listed pivots fail as often as there are orphans without a verdict. -/
lemma countP_stories (hsetting : Task.Clearable t src dst) (hlist : dst.list = .ok pivots) :
    (pivots.flatMap (t.story src dst)).countP Event.isFailed =
      dst.entities.countP (t.fails src dst) := by
  have hstories : ∀ qs : List Pivot, (qs.flatMap (t.story src dst)).countP Event.isFailed =
      qs.countP fun q => (Task.listed? dst q).any (t.fails src dst) := by
    intro qs
    induction qs with
    | nil => rfl
    | cons q rest ih =>
      rw [List.flatMap_cons, List.countP_append, countP_story hsetting, ih, List.countP_cons,
        Nat.add_comm]
  obtain ⟨listed, hlisted, hperm⟩ := MemoryStore.exists_list hsetting.destination
  obtain rfl : listed = pivots := Except.ok.inj (hlisted.symm.trans hlist)
  rw [hstories, hperm.countP_eq, MemoryStore.pivots, List.countP_filterMap]
  refine List.countP_congr fun e he => ?_
  obtain ⟨k, hget⟩ := MemoryStore.mem_entities_iff.1 he
  cases hpivot : dst.pivotOf? e with
  | none =>
    have hnone : e.first? dst.pivotAttribute = none := by
      simpa [MemoryStore.pivotOf?] using hpivot
    simp [Task.fails, Task.isOrphan, hnone]
  | some q =>
    have hfound := hsetting.found?_eq ⟨hget, hpivot⟩ dst.without_nil List.not_mem_nil
    simp [Task.listed?, hfound]

/-- A run of a clean pass that has come to its end. -/
lemma cleared_of_history (hsetting : Task.Clearable t src dst) (hw : w.stores = (src, dst))
    (hlist : dst.list = .ok pivots) {start time : Nat} {w' : World (MemoryStore × MemoryStore)}
    {r : PassReport} (hhistory : History t (.cleaning t.config pivots start, w) log (p, w'))
    (hreport : p.report? t.config time = some r)
    (hwhole : p.ledger.late = true → r.status ≠ .incomplete) :
    Cleared t src dst pivots log w' r := by
  have hclears : Clears t src dst pivots log (p, w') := by
    rcases hhistory.clears hsetting (lists_of_list hsetting hlist) hw with hclears | hoverdue
    · exact hclears
    · exact absurd (incomplete_of_late hreport hoverdue.failure hoverdue.late)
        (hwhole hoverdue.late)
  have hnew := isNew_ofKind t.config .clean pivots start
  obtain ⟨complete, houtcome, -⟩ := Option.map_eq_some_iff.1 hreport
  have hstage : p.pool.stage = .ended true := by
    rcases hclears.stage with hs | hs | hs
    · simp [Pool.outcome?, show p.pool.stage = _ from hs] at houtcome
    · simp [Pool.outcome?, show p.pool.stage = _ from hs] at houtcome
    · exact hs
  -- Nothing is left to do, so that every pivot is through.
  obtain ⟨hstopped, hqueue, hpending⟩ : (∀ x ∈ p.pool.workers, x = .stopped) ∧
      p.pool.queue = [] ∧ p.pending = [] :=
    ((hhistory.booked hnew).intact hclears.unbroken).finished hstage
  obtain ⟨worker, hsingle⟩ := hclears.single
  obtain rfl : worker = .stopped := hstopped worker (by simp [show p.pool.workers = _ from hsingle])
  obtain ⟨done, hsplit, hlog, hdestination⟩ := hclears.books
  obtain rfl : done = pivots := by
    simpa [unsettled, hqueue, hpending, show p.pool.workers = _ from hsingle, Worker.unsettled]
      using hsplit
  have hlog : log = done.flatMap (t.story src dst) := by
    simpa [show p.pool.workers = _ from hsingle, Worker.sofar] using hlog
  refine ⟨(status_of_report? hreport).2 ⟨hclears.ledger.failure, hclears.ledger.late, hstage⟩,
    hlist, hclears.source, entries_of_without hsetting hlist hdestination, ?_, ?_⟩
  · rw [hlog, filterMap_stories]
  · rw [counters_of_report? hreport, (hhistory.tallies hnew).errored, hlog,
      countP_stories hsetting hlist]

lemma scope_of_list (hjoins : t.Joins src dst) (hw : w.stores = (src, dst))
    (hlist : dst.list = .ok pivots) (handed : List Pivot) :
    t.scope handed .clean w = (.ok pivots, w) := by
  obtain ⟨stores, audit, calls, epoch⟩ := w
  obtain rfl : stores = (src, dst) := hw
  simp [Task.scope, hjoins.destination, Adapter.second, Adapter.within, Adapter.within.onPart,
    MemoryStore.adapter, hlist, Except.mapError]

/-- **A clean pass deletes exactly the orphans.**  From any source and any destination that comes
about by insertions and changes, whose entries all have an identifier and share no pivot value up
to case, under any policy, evaluator and dry run and with no connection lost: a clean pass that the
engine runs, with a time limit that is not zero (`TaskConfig.validate` refuses zero), and any clean
pass that its time limit does not cut short completes, keeps exactly the entries that are not
orphans with a verdict for their deletion, unchanged, deletes the others in the order in which the
destination listed their pivots, and counts as errored exactly the orphans on which the condition
has no verdict. -/
theorem cleared_of_conducted (hsetting : t.Clearable src dst) (hw : w.stores = (src, dst)) :
    (0 < t.config.timeLimit → ∀ start, ∃ pivots log, Cleared t src dst pivots log
      (Engine.clean t ⟨start, ⟨[], w⟩⟩).2.state.world (Engine.clean t ⟨start, ⟨[], w⟩⟩).1) ∧
    ∀ {pivots log workers w' r}, Conducted t .clean [] w pivots log workers w' r →
      r.status ≠ .incomplete → Cleared t src dst pivots log w' r := by
  obtain ⟨listed, hlist, -⟩ := MemoryStore.exists_list hsetting.destination
  have hscope := scope_of_list hsetting.joins hw hlist []
  refine ⟨fun hlimit start => ?_, fun {pivots log workers w' r} hconducted hwhole => ?_⟩
  · obtain ⟨log, p, time, hpasses, hhistory, hreport⟩ :=
      Engine.runPass_reports t (.cleaning t.config listed start) w start
    refine ⟨listed, log, ?_⟩
    rw [Engine.clean_eq_conduct, Engine.conduct, hscope]
    refine cleared_of_history hsetting hw hlist hhistory hreport fun hlate => ?_
    simp [late_of_awaited hsetting.joins hlimit hpasses] at hlate
  · cases hconducted with
    | early hfailed => simp [hscope] at hfailed
    | whole hlisted hhistory hreport =>
      obtain ⟨hpivots, rfl⟩ := Prod.mk.inj (hscope.symm.trans hlisted)
      obtain rfl := Except.ok.inj hpivots
      exact cleared_of_history hsetting hw hlist hhistory hreport fun _ => hwhole

/-! Of three badges, one has a holder on the roster; the second goes, and whether the third may go
cannot be told. -/

def roster : MemoryStore :=
  (MemoryStore.new "roster" "uid").insertAll
    [(Entity.putAll (.named "uid=1") [("uid", [.string "1"])], ⟨0⟩)]

def badges : MemoryStore :=
  (MemoryStore.new "badges" "uid").insertAll
    [(Entity.putAll (.named "uid=1") [("uid", [.string "1"])], ⟨0⟩),
      (Entity.putAll (.named "uid=2") [("uid", [.string "2"])], ⟨0⟩),
      (Entity.putAll (.named "uid=3") [("uid", [.string "3"])], ⟨0⟩)]

def withdrawal : Task (MemoryStore × MemoryStore) :=
  ⟨{ TaskConfig.new "withdrawal" with
      policy := { Policy.empty with
        conditions := { Conditions.always with delete := .expression "destination.uid != 3" } } },
    (MemoryStore.adapter "roster" true).first, (MemoryStore.adapter "badges" true).second,
    { evalBool := fun expression bindings =>
        if (bindings.destination.bind (·.identifier)) = some "uid=3" then
          .error (.evaluation expression "not a number")
        else .ok true
      evalTexts := fun expression _ => .error (.evaluation expression "not a text") }⟩

theorem cleared_of_badges :
    badges.entities.map (withdrawal.deletes roster badges) = [false, true, false] ∧
    badges.entities.map (withdrawal.fails roster badges) = [false, false, true] ∧
    ∃ pivots log workers w' r,
      Conducted withdrawal .clean [] ⟨(roster, badges), [], [], ⟨0⟩⟩ pivots log workers w' r ∧
      r.status ≠ .incomplete ∧ Cleared withdrawal roster badges pivots log w' r := by
  have hverdicts : ∀ e ∈ badges.entities, (match withdrawal.verdictOn e with
      | .error error => !error.isConnectionLost
      | .ok _ => true) = true := by
    decide +kernel
  have hsetting : withdrawal.Clearable roster badges :=
    { joins := ⟨rfl, rfl⟩
      reachable := (MemoryStore.Filled.insertAll (.empty rfl) _).reachable
      identified := by decide +kernel
      distinct := by decide +kernel
      source := rfl
      destination := rfl
      loss := fun e he error herror => by simpa [herror] using hverdicts e he }
  refine ⟨by decide +kernel, by decide +kernel, ?_⟩
  obtain ⟨hruns, hcleared⟩ :=
    cleared_of_conducted hsetting (w := ⟨(roster, badges), [], [], ⟨0⟩⟩) rfl
  obtain ⟨_, _, hengine⟩ := hruns (by decide) 0
  obtain ⟨pivots, log, workers, hconducted⟩ :=
    Engine.conducted_of_conduct withdrawal .clean [] ⟨(roster, badges), [], [], ⟨0⟩⟩ 0
  rw [← Engine.clean_eq_conduct] at hconducted
  have hwhole : (Engine.clean withdrawal ⟨0, ⟨[], ⟨(roster, badges), [], [], ⟨0⟩⟩⟩⟩).1.status ≠
      .incomplete := by
    rw [hengine.completed]
    simp
  exact ⟨pivots, log, workers, _, _, hconducted, hwhole, hcleared hconducted hwhole⟩

end Pass

end StoreSync
