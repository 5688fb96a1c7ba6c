import Mathlib.Data.List.Pairwise
import StoreSync.Proofs.Counterparts
import StoreSync.Proofs.Schedules

/-!
# Convergence of sync passes

A task with a plain policy settles: two passes, in whatever order and on whatever schedules, leave
nothing for a third one (`Pass.third_sync_changes_nothing`).

* `Task.independent_of_lists` — the pivots of an aligned destination are independent, so that a pass
  leaves what the fates of its pivots say;
* `Task.Enacted.aligned` — the destination is aligned again after a pass;
* `Task.Enacted.linked`, `Task.Enacted.rested` — after the first pass every counterpart is in its
  place, after the second one it is also up to date;
* `Task.Rested.fate_eq` — then nothing more is to be done.
-/

namespace StoreSync

open MemoryStore (Aligned)

namespace Task

variable {σ : Type} {t : Task σ} {src dst : MemoryStore} {s s' : Entity} {id v id' v' : String}
  {e : Entity} {c : Change} {m : TextMap Entity} {ps : List Pivot}

/-- A change that is applied for a source entry leaves the entity that comes in its place. -/
lemma Brings.leaves (haligned : Aligned src dst.records) (hbrings : t.Brings src dst s id v e)
    (hchange : t.change? src dst (src.pivotFor id v) = some c) :
    c.leaves ((dst.found? (src.pivotFor id v)).map (·.2)) = some e ∧
      ∀ k ∈ c.aim?, k = Text.fold id := by
  rcases hbrings.outcome with ⟨hfate, -⟩ | ⟨c', m', hfate, henact, hget, hkey, haim, -⟩
  · rw [change?_of_fate_unchanged hfate] at hchange
    simp at hchange
  · have hchange' := change?_of_fate (Or.inl hfate)
    obtain rfl : c = c' := Option.some.inj (hchange.symm.trans hchange')
    refine ⟨?_, haim⟩
    rw [← leaves_of_change? haligned.keyed hchange]
    exact Change.leaves_of_get?_enact henact hkey hget

/-- The pivots of different source entries are independent. -/
theorem independent_of_lists (ht : t.Follows src)
    (hpivot : dst.pivotAttribute = src.pivotAttribute) (haligned : Aligned src dst.records)
    (h : src.Lists s id v) (h' : src.Lists s' id' v') (hne : Text.fold id ≠ Text.fold id') :
    t.Independent src dst (src.pivotFor id v) (src.pivotFor id' v') := by
  have hvalues : Text.fold v ≠ Text.fold v' := fun hfold =>
    hne (ht.source.apart s id v s' id' v' h h' hfold)
  obtain ⟨e, hbrings⟩ := exists_brings ht hpivot haligned h
  constructor
  · intro k hk hk'
    obtain ⟨⟨k₁, e₁⟩, hfound, rfl⟩ := Option.map_eq_some_iff.1 hk
    obtain ⟨⟨k₂, e₂⟩, hfound', heq⟩ := Option.map_eq_some_iff.1 hk'
    obtain ⟨hget, w, hw, hfold⟩ := (MemoryStore.found?_eq_some_iff haligned hpivot h).1 hfound
    obtain ⟨hget', w', hw', hfold'⟩ := (MemoryStore.found?_eq_some_iff haligned hpivot h').1 hfound'
    rw [show k₂ = k₁ from heq, hget] at hget'
    obtain rfl := Option.some.inj hget'
    exact hvalues (hfold.symm.trans ((haligned.one _ _ hget w hw w' hw').trans hfold'))
  · intro c hc e' he'
    obtain ⟨hleaves, -⟩ := hbrings.leaves haligned hc
    obtain rfl : e' = e := Option.some.inj (he'.symm.trans hleaves)
    rw [MemoryStore.wanted_pivotFor, ← Bool.not_eq_true,
      MemoryStore.carries_iff h'.asciiPivot h'.pivot.counts, hpivot]
    rintro ⟨w, hw, hfold⟩
    exact hvalues ((hbrings.same w hw).symm.trans hfold)
  · intro c hc k hk hthere
    obtain rfl := (hbrings.leaves haligned hc).2 k hk
    rw [← MemoryStore.contains_records] at hthere
    obtain ⟨d, hd⟩ := Option.isSome_iff_exists.1 hthere
    rw [MemoryStore.foundKey?, (MemoryStore.found?_eq_some_iff haligned hpivot h).2
      ⟨hd, haligned.placed s id v d h hd⟩]
    rfl
  · intro c hc c' hc' k hk hk'
    obtain ⟨e', hbrings'⟩ := exists_brings ht hpivot haligned h'
    have hplace := (hbrings.leaves haligned hc).2 k hk
    have hplace' := (hbrings'.leaves haligned hc').2 k hk'
    exact hne (hplace.symm.trans hplace')

end Task

/-! ## The pivots of the source -/

namespace MemoryStore

variable {src : MemoryStore}

lemma mem_pivots (hsrc : src.Source) {p : Pivot} (hp : p ∈ src.pivots) :
    ∃ s id v, src.Lists s id v ∧ p = src.pivotFor id v := by
  obtain ⟨s, hs, hpivot⟩ := List.mem_filterMap.1 hp
  obtain ⟨k, hget⟩ := mem_entities_iff.1 hs
  obtain ⟨id, v, -, h⟩ := hsrc.listed k s hget
  rw [pivotOf?_of_lists h] at hpivot
  exact ⟨s, id, v, h, (Option.some.inj hpivot).symm⟩

lemma pivotFor_mem {s : Entity} {id v : String} (h : src.Lists s id v) :
    src.pivotFor id v ∈ src.pivots :=
  List.mem_filterMap.2 ⟨s, mem_entities_iff.2 ⟨_, h.entry⟩, pivotOf?_of_lists h⟩

lemma length_pivots (hsrc : src.Source) : src.pivots.length = src.entities.length := by
  refine List.filterMap_length_eq_length.2 fun s hs => ?_
  obtain ⟨k, hget⟩ := mem_entities_iff.1 hs
  obtain ⟨id, v, -, h⟩ := hsrc.listed k s hget
  rw [pivotOf?_of_lists h]
  rfl

/-- Whatever holds between the pivots of different entries holds throughout the list. -/
lemma pairwise_pivots (hsrc : src.Source) {R : Pivot → Pivot → Prop}
    (h : ∀ s id v s' id' v', src.Lists s id v → src.Lists s' id' v' →
      Text.fold id ≠ Text.fold id' → R (src.pivotFor id v) (src.pivotFor id' v')) :
    src.pivots.Pairwise R := by
  rw [pivots, entities_eq, TextMap.values, List.pairwise_filterMap, List.pairwise_map]
  refine src.records.ascending.imp_of_mem fun {a b} ha hb hlt p hp q hq => ?_
  obtain ⟨id, v, hkey, hlists⟩ := hsrc.listed a.1 a.2 ((TextMap.mem_entries_iff _).1 ha)
  obtain ⟨id', v', hkey', hlists'⟩ := hsrc.listed b.1 b.2 ((TextMap.mem_entries_iff _).1 hb)
  rw [pivotOf?_of_lists hlists] at hp
  rw [pivotOf?_of_lists hlists'] at hq
  rw [← Option.some.inj hp, ← Option.some.inj hq]
  refine h _ id v _ id' v' hlists hlists' fun heq => ?_
  rw [hkey, hkey', heq] at hlt
  exact String.lt_irrefl _ hlt

end MemoryStore

/-! ## The destination after a pass -/

namespace Task

variable {σ : Type} {t : Task σ} {src dst : MemoryStore} {s : Entity} {id v : String}
  {e : Entity} {m : TextMap Entity} {ps : List Pivot}

/-- A source entry has its counterpart in its place. -/
lemma Enacted.get?_place (ht : t.Follows src) (hpivot : dst.pivotAttribute = src.pivotAttribute)
    (haligned : Aligned src dst.records) (hps : ps.Perm src.pivots)
    (henacted : t.Enacted src dst ps m) (h : src.Lists s id v)
    (hbrings : t.Brings src dst s id v e) : m.get? (Text.fold id) = some e := by
  have hmem : src.pivotFor id v ∈ ps := hps.mem_iff.2 (MemoryStore.pivotFor_mem h)
  rcases hbrings.outcome with ⟨hfate, hget⟩ | ⟨c, m', hfate, henact, hget, hkey, -, -⟩
  · rw [henacted.rest, hget]
    intro q hq c hfate'
    obtain ⟨s', id', v', h', rfl⟩ := MemoryStore.mem_pivots ht.source (hps.mem_iff.1 hq)
    by_cases hsame : Text.fold id' = Text.fold id
    · obtain ⟨-, rfl, rfl⟩ := h'.eq h hsame
      rw [hfate] at hfate'
      simp at hfate'
    · have hfound : dst.foundKey? (src.pivotFor id v) = some (Text.fold id) := by
        rw [MemoryStore.foundKey?, (MemoryStore.found?_eq_some_iff haligned hpivot h).2
          ⟨hget, haligned.placed s id v e h hget⟩]
        rfl
      exact (independent_of_lists ht hpivot haligned h' h hsame).foundKey?_notMem haligned.keyed
        (change?_of_fate (Or.inl hfate')) hfound
  · rw [henacted.own _ hmem c hfate m' henact _ hkey, hget]

/-- Every other entity is one that was there before and that no source entry is about. -/
lemma Enacted.get?_other (ht : t.Follows src) (hpivot : dst.pivotAttribute = src.pivotAttribute)
    (haligned : Aligned src dst.records) (hps : ps.Perm src.pivots)
    (henacted : t.Enacted src dst ps m) {k : String} (hget : m.get? k = some e)
    (hother : ∀ s id v, src.Lists s id v → k ≠ Text.fold id) :
    dst.records.get? k = some e ∧ ∀ s id v, src.Lists s id v →
      ∀ w ∈ e.heldTexts src.pivotAttribute, Text.fold w ≠ Text.fold v := by
  have hgone : ∀ s id v c, src.Lists s id v →
      t.fate src dst (src.pivotFor id v) = .applied c → k ∉ c.keys := by
    intro s id v c h hfate hk
    obtain ⟨e', hbrings⟩ := exists_brings ht hpivot haligned h
    rcases hbrings.outcome with ⟨hfate', -⟩ | ⟨c', m', hfate', henact, -, -, -, hnone⟩
    · rw [hfate] at hfate'
      simp at hfate'
    · obtain rfl : c = c' := Fate.applied.inj (hfate.symm.trans hfate')
      have hmem := hps.mem_iff.2 (MemoryStore.pivotFor_mem h)
      rw [henacted.own _ hmem c hfate m' henact k hk, hnone k hk (hother s id v h)] at hget
      simp at hget
  have hget' : dst.records.get? k = some e := by
    rw [← henacted.rest, hget]
    intro q hq c hfate
    obtain ⟨s', id', v', h', rfl⟩ := MemoryStore.mem_pivots ht.source (hps.mem_iff.1 hq)
    exact hgone s' id' v' c h' hfate
  refine ⟨hget', fun s id v h w hw hfold => ?_⟩
  have hfound := (MemoryStore.found?_eq_some_iff haligned hpivot h).2 ⟨hget', w, hw, hfold⟩
  obtain ⟨e', hbrings⟩ := exists_brings ht hpivot haligned h
  rcases hbrings.outcome with ⟨-, hplace⟩ | ⟨c, m', hfate, -⟩
  · obtain ⟨w', hw', hfold'⟩ := haligned.placed s id v e' h hplace
    exact hother s id v h
      (haligned.apart _ _ e e' hget' hplace w hw w' hw' (hfold.trans hfold'.symm))
  · refine hgone s id v c h hfate ?_
    have hchange := change?_of_fate (Or.inl hfate)
    rcases shape_of_change? hchange with ⟨hnone, -⟩ | ⟨k', d, i, hfound', hi, hchange'⟩
    · rw [hfound] at hnone
      simp at hnone
    · rw [hfound] at hfound'
      obtain ⟨rfl, rfl⟩ : k = k' ∧ e = d := by simpa using hfound'
      rw [haligned.keyed k e i hget' hi]
      rcases hchange' with ⟨ops, rfl⟩ | ⟨new, rfl⟩
      · exact List.mem_cons_self
      · exact List.mem_cons_self

/-- A sync pass leaves an aligned destination behind. -/
theorem Enacted.aligned (ht : t.Follows src) (hpivot : dst.pivotAttribute = src.pivotAttribute)
    (haligned : Aligned src dst.records) (hps : ps.Perm src.pivots)
    (henacted : t.Enacted src dst ps m) : Aligned src m := by
  have hcases : ∀ k e, m.get? k = some e →
      (∃ s id v, src.Lists s id v ∧ k = Text.fold id ∧ t.Brings src dst s id v e) ∨
      (dst.records.get? k = some e ∧ ∀ s id v, src.Lists s id v →
        ∀ w ∈ e.heldTexts src.pivotAttribute, Text.fold w ≠ Text.fold v) := by
    intro k e hget
    by_cases hplace : ∃ s id v, src.Lists s id v ∧ k = Text.fold id
    · obtain ⟨s, id, v, h, rfl⟩ := hplace
      obtain ⟨e', hbrings⟩ := exists_brings ht hpivot haligned h
      rw [henacted.get?_place ht hpivot haligned hps h hbrings] at hget
      obtain rfl := Option.some.inj hget
      exact Or.inl ⟨s, id, v, h, rfl, hbrings⟩
    · refine Or.inr (henacted.get?_other ht hpivot haligned hps hget fun s id v h heq => ?_)
      exact hplace ⟨s, id, v, h, heq⟩
  constructor
  · intro k e hget
    rcases hcases k e hget with ⟨s, id, v, h, rfl, hbrings⟩ | ⟨hget', -⟩
    · obtain ⟨i, hi, hfold⟩ := hbrings.identifier
      exact ⟨i, hi, hfold.symm⟩
    · exact haligned.named k e hget'
  · intro k e hget w hw w' hw'
    rcases hcases k e hget with ⟨s, id, v, h, rfl, hbrings⟩ | ⟨hget', -⟩
    · exact (hbrings.same w hw).trans (hbrings.same w' hw').symm
    · exact haligned.one k e hget' w hw w' hw'
  · intro k k' e e' hget hget' w hw w' hw' hfold
    rcases hcases k e hget with ⟨s, id, v, h, rfl, hbrings⟩ | ⟨hdst, hnot⟩
    · have hwv := hbrings.same w hw
      rcases hcases k' e' hget' with ⟨s', id', v', h', rfl, hbrings'⟩ | ⟨-, hnot'⟩
      · refine ht.source.apart s id v s' id' v' h h' ?_
        exact hwv.symm.trans (hfold.trans (hbrings'.same w' hw'))
      · exact absurd (hfold.symm.trans hwv) (hnot' s id v h w' hw')
    · rcases hcases k' e' hget' with ⟨s', id', v', h', rfl, hbrings'⟩ | ⟨hdst', -⟩
      · exact absurd (hfold.trans (hbrings'.same w' hw')) (hnot s' id' v' h' w hw)
      · exact haligned.apart k k' e e' hdst hdst' w hw w' hw' hfold
  · intro s id v e h hget
    obtain ⟨e', hbrings⟩ := exists_brings ht hpivot haligned h
    rw [henacted.get?_place ht hpivot haligned hps h hbrings] at hget
    obtain rfl := Option.some.inj hget
    obtain ⟨w, hw⟩ := hbrings.held
    exact ⟨w, hw, hbrings.same w hw⟩

/-! ## Three passes -/

/-- Every source entry has a counterpart in its place. -/
def Linked (src : MemoryStore) (m : TextMap Entity) : Prop :=
  ∀ s id v, src.Lists s id v → ∃ d, m.get? (Text.fold id) = some d

/-- Every source entry has a counterpart in its place, and nothing is left to be updated. -/
def Rested (t : Task σ) (src : MemoryStore) (m : TextMap Entity) : Prop :=
  ∀ s id v, src.Lists s id v →
    ∃ d, m.get? (Text.fold id) = some d ∧ t.reconciler.Settled s d

/-- The first pass puts every counterpart in its place. -/
lemma Enacted.linked (ht : t.Follows src) (hpivot : dst.pivotAttribute = src.pivotAttribute)
    (haligned : Aligned src dst.records) (hps : ps.Perm src.pivots)
    (henacted : t.Enacted src dst ps m) : Linked src m := by
  intro s id v h
  obtain ⟨e, hbrings⟩ := exists_brings ht hpivot haligned h
  exact ⟨e, henacted.get?_place ht hpivot haligned hps h hbrings⟩

/-- The second pass updates what is in its place. -/
lemma Enacted.rested (ht : t.Follows src) (hpivot : dst.pivotAttribute = src.pivotAttribute)
    (haligned : Aligned src dst.records) (hps : ps.Perm src.pivots)
    (henacted : t.Enacted src dst ps m) (hlinked : Linked src dst.records) : t.Rested src m := by
  intro s id v h
  obtain ⟨e, hbrings⟩ := exists_brings ht hpivot haligned h
  obtain ⟨d, hd⟩ := hlinked s id v h
  exact ⟨e, henacted.get?_place ht hpivot haligned hps h hbrings, hbrings.settled d hd⟩

/-- After that no source entry calls for a change. -/
lemma Rested.fate_eq (ht : t.Follows src) (hpivot : dst.pivotAttribute = src.pivotAttribute)
    (haligned : Aligned src dst.records) (hrested : t.Rested src dst.records) {p : Pivot}
    (hp : p ∈ src.pivots) : t.fate src dst p = .unchanged := by
  obtain ⟨s, id, v, h, rfl⟩ := MemoryStore.mem_pivots ht.source hp
  obtain ⟨e, hbrings⟩ := exists_brings ht hpivot haligned h
  obtain ⟨d, hd, hsettled⟩ := hrested s id v h
  exact hbrings.rests d hd hsettled

lemma Enacted.eq_of_unchanged (henacted : t.Enacted src dst ps m)
    (h : ∀ p ∈ ps, t.fate src dst p = .unchanged) : m = dst.records := by
  refine TextMap.ext_get? fun k => henacted.rest k fun p hp c hfate => ?_
  rw [h p hp] at hfate
  simp at hfate

/-- Units without a change are only counted as seen. -/
lemma foldl_marks_of_unchanged (h : ∀ p ∈ ps, t.fate src dst p = .unchanged) (n : Counters) :
    (t.marks src dst ps).foldl Mark.count n = { n with seen := n.seen + ps.length } ∧
      (t.marks src dst ps).filterMap (Mark.record? t.config.name) = [] := by
  induction ps generalizing n with
  | nil => exact ⟨rfl, rfl⟩
  | cons p rest ih =>
    obtain ⟨hcount, hrecords⟩ := ih (fun q hq => h q (List.mem_cons_of_mem _ hq)) n.recordSeen
    simp only [marks_cons, h p List.mem_cons_self, Fate.marks, List.singleton_append,
      List.foldl_cons, List.filterMap_cons, Mark.record?, hrecords, Mark.count, hcount]
    refine ⟨?_, trivial⟩
    simp only [Counters.recordSeen, List.length_cons]
    congr 1
    omega

end Task

namespace Pass

variable {t : Task (MemoryStore × MemoryStore)} {src dst : MemoryStore}
  {w w' : World (MemoryStore × MemoryStore)} {r : PassReport}

/-- A sync pass that the time limit does not end: the source is listed, and units for its pivots,
in any order, are run on any schedule until the pass reports. -/
def Syncs (t : Task (MemoryStore × MemoryStore)) (w w' : World (MemoryStore × MemoryStore))
    (r : PassReport) : Prop :=
  ∃ (listed pivots : List Pivot) (now time : Nat) (p : Pass),
    (t.source.list w.stores).1 = .ok listed ∧ listed ≠ [] ∧ pivots.Perm listed ∧
    Run t InTime (.reconciling t.config .full pivots now,
      { w with stores := (t.source.list w.stores).2 }) (p, w') ∧
    p.report? t.config time = some r

/-- The state between sync passes. -/
structure Poised (t : Task (MemoryStore × MemoryStore)) (src dst : MemoryStore)
    (w : World (MemoryStore × MemoryStore)) : Prop where
  source : w.stores.1 = src
  destination : ∃ entries n, w.stores.2 = { dst with entries := entries, applied := n }
  aligned : Aligned src w.stores.2.records

/-- What a task and its two stores need for sync passes to converge. -/
structure Matched (t : Task (MemoryStore × MemoryStore)) (src dst : MemoryStore) : Prop where
  joins : t.Joins src dst
  plain : t.Plain
  source : src.connectionLost = false
  destination : dst.connectionLost = false
  pivotAttribute : dst.pivotAttribute = src.pivotAttribute
  filled : src.Filled
  filled' : dst.Filled
  nonempty : src.entities ≠ []
  /-- A source entry has an identifier and exactly one pivot value, and its names, its identifier
  and its pivot value are ASCII. -/
  entry : ∀ s ∈ src.entities, s.Built ∧ Reconciler.AsciiNames t.config.policy s ∧
    (∃ id, s.identifier = some id ∧ Text.IsAscii id) ∧
    ∃ v, s.HasOnly src.pivotAttribute v ∧ Text.IsAscii v
  /-- A destination entry with a pivot attribute has an identifier and exactly one pivot value. -/
  counterpart : ∀ e ∈ dst.entities, e.attribute? src.pivotAttribute ≠ none →
    e.identifier ≠ none ∧ ∃ v, e.HasOnly src.pivotAttribute v
  apart : src.entities.Pairwise (Entity.DifferIn src.pivotAttribute)
  apart' : dst.entities.Pairwise (Entity.DifferIn src.pivotAttribute)
  /-- A destination entry with the identifier of a source entry has its pivot value. -/
  place : ∀ s ∈ src.entities, ∀ e ∈ dst.entities, ∀ id id', s.identifier = some id →
    e.identifier = some id' → Text.fold id = Text.fold id' →
    ∃ v v', s.HasOnly src.pivotAttribute v ∧ e.HasOnly src.pivotAttribute v' ∧
      Text.fold v = Text.fold v'

lemma differIn_of_ne {s : MemoryStore} {name : String}
    (h : s.entities.Pairwise (Entity.DifferIn name)) {k k' : String} {e e' : Entity}
    (hget : s.records.get? k = some e) (hget' : s.records.get? k' = some e') (hne : k ≠ k') :
    e.DifferIn name e' := by
  rw [MemoryStore.entities_eq, TextMap.values, List.pairwise_map] at h
  have hsymm : Std.Symm fun a b : String × Entity => Entity.DifferIn name a.2 b.2 :=
    ⟨fun a b hab => symm_of (Entity.DifferIn name) hab⟩
  have hmem := (TextMap.mem_entries_iff _).2 hget
  have hmem' := (TextMap.mem_entries_iff _).2 hget'
  exact h.forall hmem hmem' fun heq => hne (congrArg Prod.fst heq)

lemma Matched.follows (h : Matched t src dst) : t.Follows src := by
  have hmem : ∀ {k e}, src.records.get? k = some e → e ∈ src.entities := fun hget =>
    MemoryStore.mem_entities_iff.2 ⟨_, hget⟩
  refine ⟨h.plain, ⟨?_, ?_⟩, ?_, ?_⟩
  · intro k s hget
    obtain ⟨-, -, ⟨id, hid, hascii⟩, v, honly, hascii'⟩ := h.entry s (hmem hget)
    have hkey : k = Text.fold id := by
      have := h.filled.entryKey? hget
      simpa [MemoryStore.entryKey?, hid, eq_comm] using this
    exact ⟨id, v, hkey, hkey ▸ hget, hid, honly, hascii, hascii'⟩
  · intro s id v s' id' v' hs hs' hfold
    by_contra hne
    exact differIn_of_ne h.apart hs.entry hs'.entry hne v v' hs.pivot hs'.pivot hfold
  · intro s id v hs
    exact (h.entry s (hmem hs.entry)).1
  · intro s id v hs
    exact (h.entry s (hmem hs.entry)).2.1

lemma Matched.aligned (h : Matched t src dst) : Aligned src dst.records := by
  have hmem : ∀ {k e}, dst.records.get? k = some e → e ∈ dst.entities := fun hget =>
    MemoryStore.mem_entities_iff.2 ⟨_, hget⟩
  have honly : ∀ {k e w}, dst.records.get? k = some e → w ∈ e.heldTexts src.pivotAttribute →
      e.HasOnly src.pivotAttribute w := by
    intro k e w hget hw
    have hthere : e.attribute? src.pivotAttribute ≠ none := by
      intro hnone
      rw [Entity.heldTexts_eq, hnone, Attribute.heldTexts_none] at hw
      exact hw
    obtain ⟨-, v, hv⟩ := h.counterpart e (hmem hget) hthere
    rw [hv.heldTexts_eq] at hw
    rw [show w = v from hw]
    exact hv
  have hnamed : ∀ {k e}, dst.records.get? k = some e →
      ∃ id, e.identifier = some id ∧ k = Text.fold id := by
    intro k e hget
    have hkey := h.filled'.entryKey? hget
    cases hid : e.identifier with
    | some id => exact ⟨id, rfl, by simpa [MemoryStore.entryKey?, hid, eq_comm] using hkey⟩
    | none =>
      have hthere : e.attribute? src.pivotAttribute ≠ none := by
        intro hnone
        simp [MemoryStore.entryKey?, hid, h.pivotAttribute, Entity.first?, hnone] at hkey
      exact absurd hid (h.counterpart e (hmem hget) hthere).1
  constructor
  · exact fun k e hget => hnamed hget
  · intro k e hget w hw w' hw'
    have hheld := (honly hget hw).heldTexts_eq
    rw [hheld] at hw'
    rw [show w' = w from hw']
  · intro k k' e e' hget hget' w hw w' hw' hfold
    by_contra hne
    exact differIn_of_ne h.apart' hget hget' hne w w' (honly hget hw) (honly hget' hw') hfold
  · intro s id v e hs hget
    obtain ⟨id', hid', hfold⟩ := hnamed hget
    have hs' : s ∈ src.entities := MemoryStore.mem_entities_iff.2 ⟨_, hs.entry⟩
    obtain ⟨v', w, hv', hw, hsame⟩ :=
      h.place s hs' e (hmem hget) id id' hs.identifier hid' hfold
    have hv : v' = v :=
      Option.some.inj (hv'.first?_eq.symm.trans hs.pivot.first?_eq)
    refine ⟨w, ?_, hv ▸ hsame.symm⟩
    rw [hw.heldTexts_eq]
    rfl

lemma Poised.pivotAttribute (h : Matched t src dst) (hw : Poised t src dst w) :
    w.stores.2.pivotAttribute = src.pivotAttribute := by
  obtain ⟨entries, n, hdst⟩ := hw.destination
  rw [hdst]
  exact h.pivotAttribute

/-- The pivots of an aligned destination do not disturb one another. -/
lemma Poised.undisturbed (h : Matched t src dst) (hw : Poised t src dst w) {pivots : List Pivot}
    (hperm : pivots.Perm src.pivots) : Undisturbed t src w.stores.2 pivots := by
  have hfollows := h.follows
  have hpivot := hw.pivotAttribute h
  have hindependent : src.pivots.Pairwise fun p q =>
      t.Independent src w.stores.2 p q ∧ t.Independent src w.stores.2 q p := by
    refine MemoryStore.pairwise_pivots hfollows.source fun s id v s' id' v' hs hs' hne => ?_
    exact ⟨Task.independent_of_lists hfollows hpivot hw.aligned hs hs' hne,
      Task.independent_of_lists hfollows hpivot hw.aligned hs' hs (Ne.symm hne)⟩
  obtain ⟨entries, n, hdst⟩ := hw.destination
  refine ⟨⟨h.joins.source, ?_⟩, hw.aligned.keyed, h.source, ?_, fun p hp e he => ?_, ?_⟩
  · rw [hdst]
    exact h.joins.destination
  · rw [hdst]
    exact h.destination
  · obtain ⟨s, id, v, hs, rfl⟩ := MemoryStore.mem_pivots hfollows.source (hperm.mem_iff.1 hp)
    obtain ⟨e', hbrings⟩ := Task.exists_brings hfollows hpivot hw.aligned hs
    have hfate : t.fate src w.stores.2 (src.pivotFor id v) = .failed e := by
      simp [Task.fate, he]
    rcases hbrings.outcome with ⟨hfate', -⟩ | ⟨c, m, hfate', -⟩ <;> simp [hfate] at hfate'
  · exact (hperm.pairwise_iff fun h => ⟨h.2, h.1⟩).2 hindependent

/-- Listing a source in memory does nothing to it. -/
lemma Poised.list_eq (h : Matched t src dst) (hw : Poised t src dst w) :
    t.source.list w.stores = (src.list, w.stores) := by
  rw [h.joins.source, ← hw.source]
  rfl

/-- What a sync pass has done. -/
lemma Syncs.concluded (h : Matched t src dst) (hw : Poised t src dst w) (hsync : Syncs t w w' r) :
    ∃ pivots, pivots.Perm src.pivots ∧ Concluded t src w.stores.2 pivots
      (w.audit.map AuditRecord.untimed) w' r := by
  obtain ⟨listed, pivots, now, time, p, hlist, -, hperm, hrun, hreport⟩ := hsync
  rw [hw.list_eq h] at hlist hrun
  obtain ⟨listed', hlisted', hperm'⟩ := MemoryStore.exists_list h.source
  obtain rfl : listed = listed' := by simpa [hlisted', eq_comm] using hlist
  have hpivots := hperm.trans hperm'
  have hstart := @sound_of_start t src w.stores.2 pivots now t.config .full w
    (by rw [← hw.source])
  exact ⟨pivots, hpivots, (hstart.run (hw.undisturbed h hpivots) hrun).concluded hreport⟩

/-- A sync pass leaves the destination aligned. -/
lemma Syncs.poised (h : Matched t src dst) (hw : Poised t src dst w) (hsync : Syncs t w w' r) :
    Poised t src dst w' := by
  obtain ⟨pivots, hperm, hend⟩ := hsync.concluded h hw
  obtain ⟨entries, n, hdst⟩ := hw.destination
  obtain ⟨entries', n', hdst'⟩ := hend.destination
  refine ⟨hend.source, ⟨entries', n', ?_⟩, ?_⟩
  · rw [hdst', hdst]
  · exact hend.enacted.aligned h.follows (hw.pivotAttribute h) hw.aligned hperm

/-- A sync pass can be run to its report. -/
lemma Poised.exists_syncs (h : Matched t src dst) (hlimit : 0 < t.config.timeLimitSeconds)
    (hw : Poised t src dst w) : ∃ w' r, Syncs t w w' r := by
  obtain ⟨listed, hlisted, hperm⟩ := MemoryStore.exists_list h.source
  have hne : listed ≠ [] := by
    rintro rfl
    have hlength := hperm.length_eq
    rw [MemoryStore.length_pivots h.follows.source] at hlength
    exact h.nonempty (List.length_eq_zero_iff.1 hlength.symm)
  have hpositive : 0 < t.config.timeLimit := by
    show 0 < t.config.timeLimitSeconds * 1000
    omega
  have hstart := @sound_of_start t src w.stores.2 listed 0 t.config .full w
    (by rw [← hw.source])
  obtain ⟨⟨p, w'⟩, hrun, hreport⟩ := hstart.exists_report (hw.undisturbed h hperm) hpositive
  obtain ⟨r, hr⟩ := Option.isSome_iff_exists.1 (hreport t.config 0)
  refine ⟨w', r, listed, listed, 0, 0, p, ?_, hne, .refl _, ?_, hr⟩
  · rw [hw.list_eq h, hlisted]
  · rw [hw.list_eq h]
    exact hrun

/-- **Sync passes converge in two passes.**  From stores that are matched, three sync passes can be
run one after the other, each in any order and on any schedule.  Whichever they are, the third one
completes without a change: it sees every source entry and attempts, applies and refuses nothing,
the destination is the one that the second pass has left, and nothing is written to the audit. -/
theorem third_sync_changes_nothing (h : Matched t src dst) (hstores : w.stores = (src, dst)) :
    (0 < t.config.timeLimitSeconds → ∃ w₁ r₁ w₂ r₂ w₃ r₃,
      Syncs t w w₁ r₁ ∧ Syncs t w₁ w₂ r₂ ∧ Syncs t w₂ w₃ r₃) ∧
    ∀ w₁ r₁ w₂ r₂ w₃ r₃, Syncs t w w₁ r₁ → Syncs t w₁ w₂ r₂ → Syncs t w₂ w₃ r₃ →
      r₃.status = .completed ∧
      r₃.counters = { Counters.zero with seen := src.entities.length } ∧
      w₃.stores.2.records = w₂.stores.2.records ∧
      (w₃.audit.map AuditRecord.untimed).Perm (w₂.audit.map AuditRecord.untimed) := by
  have hw : Poised t src dst w := by
    refine ⟨by rw [hstores], ⟨dst.entries, dst.applied, by rw [hstores]⟩, ?_⟩
    rw [hstores]
    exact h.aligned
  have hfollows := h.follows
  refine ⟨fun hlimit => ?_, fun w₁ r₁ w₂ r₂ w₃ r₃ hsync₁ hsync₂ hsync₃ => ?_⟩
  · obtain ⟨w₁, r₁, hsync₁⟩ := hw.exists_syncs h hlimit
    obtain ⟨w₂, r₂, hsync₂⟩ := (hsync₁.poised h hw).exists_syncs h hlimit
    obtain ⟨w₃, r₃, hsync₃⟩ := (hsync₂.poised h (hsync₁.poised h hw)).exists_syncs h hlimit
    exact ⟨w₁, r₁, w₂, r₂, w₃, r₃, hsync₁, hsync₂, hsync₃⟩
  · have hw₁ := hsync₁.poised h hw
    have hw₂ := hsync₂.poised h hw₁
    obtain ⟨pivots₁, hperm₁, hend₁⟩ := hsync₁.concluded h hw
    obtain ⟨pivots₂, hperm₂, hend₂⟩ := hsync₂.concluded h hw₁
    obtain ⟨pivots₃, hperm₃, hend₃⟩ := hsync₃.concluded h hw₂
    have hlinked := hend₁.enacted.linked hfollows (hw.pivotAttribute h) hw.aligned hperm₁
    have hrested := hend₂.enacted.rested hfollows (hw₁.pivotAttribute h) hw₁.aligned hperm₂ hlinked
    have hunchanged : ∀ p ∈ pivots₃, t.fate src w₂.stores.2 p = .unchanged := fun p hp =>
      hrested.fate_eq hfollows (hw₂.pivotAttribute h) hw₂.aligned (hperm₃.mem_iff.1 hp)
    obtain ⟨hcount, hrecords⟩ := Task.foldl_marks_of_unchanged hunchanged Counters.zero
    refine ⟨hend₃.status, ?_, hend₃.enacted.eq_of_unchanged hunchanged, ?_⟩
    · rw [hend₃.counters, hcount, hperm₃.length_eq, MemoryStore.length_pivots hfollows.source]
      simp [Counters.zero]
    · have haudit := hend₃.audit
      rwa [hrecords, List.append_nil] at haudit

lemma matched_staffing : Matched staffing staff directory := by
  have hstaff : staff.entities = [.putAll (.named "uid=1") [("mail", [.string "a@x"])],
      .putAll (.named "uid=2") [("mail", [.string "b@x"]), ("room", [.integer 7])],
      .putAll (.named "uid=3") [("mail", [.string "c@x"])]] := by decide +kernel
  have hdirectory : directory.entities =
      [.putAll (.named "UID=2") [("mail", [.string "B@x"]), ("room", [.string "8"])],
        .putAll (.named "uid=9") [("mail", [.string "c@x"])]] := by decide +kernel
  have honly : ∀ {e : Entity} {mail : String}, e.attribute? "mail" = some ⟨"mail", [.string mail]⟩ →
      mail ≠ "" → e.HasOnly "mail" mail :=
    fun ha hne => ⟨⟨_, _, ha, rfl, rfl⟩, hne⟩
  have hmail : ((Entity.named "uid=2").putAll
      [("mail", [.string "b@x"]), ("room", [.integer 7])]).HasOnly "mail" "b@x" :=
    honly (by decide +kernel) (by decide)
  have hmail' : ((Entity.named "UID=2").putAll
      [("mail", [.string "B@x"]), ("room", [.string "8"])]).HasOnly "mail" "B@x" :=
    honly (by decide +kernel) (by decide)
  constructor
  case joins => exact ⟨rfl, rfl⟩
  case plain => exact ⟨⟨by decide +kernel, rfl, rfl, rfl⟩, rfl⟩
  case source => rfl
  case destination => rfl
  case pivotAttribute => rfl
  case filled => exact .insertAll (.empty rfl) _
  case filled' => exact .insertAll (.empty rfl) _
  case nonempty => simp [hstaff]
  case entry =>
    rw [hstaff]
    simp only [List.forall_mem_cons, List.not_mem_nil, false_implies, implies_true, and_true]
    refine ⟨⟨.putAll (.named _) _, ?_, ⟨_, rfl, ?_⟩, "a@x", honly ?_ (by decide), ?_⟩,
      ⟨.putAll (.named _) _, ?_, ⟨_, rfl, ?_⟩, "b@x", hmail, ?_⟩,
      ⟨.putAll (.named _) _, ?_, ⟨_, rfl, ?_⟩, "c@x", honly ?_ (by decide), ?_⟩⟩
    case refine_1 | refine_5 | refine_8 =>
      exact ⟨by decide +kernel, by decide +kernel, by decide +kernel⟩
    all_goals decide +kernel
  case counterpart =>
    rw [hdirectory]
    simp only [List.forall_mem_cons, List.not_mem_nil, false_implies, implies_true, and_true]
    exact ⟨fun _ => ⟨by decide +kernel, _, hmail'⟩,
      fun _ => ⟨by decide +kernel, "c@x", honly (by decide +kernel) (by decide)⟩⟩
  case apart =>
    have hfolds : staff.entities.Pairwise fun e e' =>
      (e.first? "mail").map Text.fold ≠ (e'.first? "mail").map Text.fold := by decide +kernel
    exact hfolds.imp Entity.differIn_of_first?
  case apart' =>
    have hfolds : directory.entities.Pairwise fun e e' =>
      (e.first? "mail").map Text.fold ≠ (e'.first? "mail").map Text.fold := by decide +kernel
    exact hfolds.imp Entity.differIn_of_first?
  case place =>
    have hmeet : ∀ s ∈ staff.entities, ∀ e ∈ directory.entities,
        s.identifier.map Text.fold = e.identifier.map Text.fold →
        s = .putAll (.named "uid=2") [("mail", [.string "b@x"]), ("room", [.integer 7])] ∧
        e = .putAll (.named "UID=2") [("mail", [.string "B@x"]), ("room", [.string "8"])] := by
      decide +kernel
    intro s hs e he id id' hid hid' hfold
    obtain ⟨rfl, rfl⟩ := hmeet s hs e he (by rw [hid, hid', Option.map_some, hfold]; rfl)
    exact ⟨_, _, hmail, hmail', by decide +kernel⟩

theorem third_sync_of_staffing :
    ∃ w₁ r₁ w₂ r₂ w₃ r₃,
      Syncs staffing ⟨(staff, directory), [], [], ⟨0⟩⟩ w₁ r₁ ∧ Syncs staffing w₁ w₂ r₂ ∧
      Syncs staffing w₂ w₃ r₃ ∧ r₃.status = .completed ∧
      r₃.counters = { Counters.zero with seen := 3 } ∧
      w₃.stores.2.records = w₂.stores.2.records := by
  have hthird := @third_sync_changes_nothing staffing staff directory
    ⟨(staff, directory), [], [], ⟨0⟩⟩ matched_staffing rfl
  obtain ⟨w₁, r₁, w₂, r₂, w₃, r₃, hsync₁, hsync₂, hsync₃⟩ := hthird.1 (by decide)
  obtain ⟨hstatus, hcounters, hrecords, -⟩ := hthird.2 w₁ r₁ w₂ r₂ w₃ r₃ hsync₁ hsync₂ hsync₃
  exact ⟨w₁, r₁, w₂, r₂, w₃, r₃, hsync₁, hsync₂, hsync₃, hstatus, hcounters, hrecords⟩

end Pass

end StoreSync
