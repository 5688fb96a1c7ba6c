import Mathlib.Data.Set.Insert
import StoreSync.Proofs.Fates
import StoreSync.Proofs.Settling

/-!
# Counterparts in the destination

A source entry and the entity that stands for it in the destination are found through their pivot
values.  The destination is aligned with the source (`MemoryStore.Aligned`) when no two of its
entities share a pivot value and none takes the place of another entry's counterpart; then a fetch
for a source entry is decided (`MemoryStore.found?_eq_some_iff`), and so is its fate.

* `MemoryStore.Lists`, `MemoryStore.Source` — the entries of the source, each with its identifier
  and its only pivot value;
* `Task.Brings` — what a pass makes of one of them: the entity in its place and how it gets there;
* `Task.exists_brings` — every source entry is created, renamed, updated or left as it is.
-/

namespace StoreSync

namespace Entity

/-- The entity holds exactly one value under a name, and the value counts. -/
structure HasOnly (e : Entity) (name v : String) : Prop where
  holds : ∃ a w, e.attribute? name = some a ∧ a.values = [w] ∧ w.canonical = v
  counts : v ≠ ""

lemma HasOnly.heldTexts_eq {e : Entity} {name v : String} (h : e.HasOnly name v) :
    e.heldTexts name = {v} := by
  obtain ⟨⟨a, w, ha, hw, rfl⟩, hcounts⟩ := h
  rw [Entity.heldTexts_eq, ha]
  ext t
  rw [Attribute.mem_heldTexts_some, Attribute.texts, hw]
  simp only [List.map_cons, List.map_nil, List.mem_singleton, Set.mem_singleton_iff]
  constructor
  · rintro ⟨-, rfl⟩
    rfl
  · rintro rfl
    exact ⟨hcounts, rfl⟩

lemma HasOnly.first?_eq {e : Entity} {name v : String} (h : e.HasOnly name v) :
    e.first? name = some v := by
  obtain ⟨⟨a, w, ha, hw, rfl⟩, -⟩ := h
  simp [first?, ha, Attribute.first?, Attribute.texts, hw]

/-- The only values of two entities under a name, if they have them, do not agree up to case. -/
def DifferIn (name : String) (e e' : Entity) : Prop :=
  ∀ v v', e.HasOnly name v → e'.HasOnly name v' → Text.fold v ≠ Text.fold v'

lemma differIn_of_first? {e e' : Entity} {name : String}
    (h : (e.first? name).map Text.fold ≠ (e'.first? name).map Text.fold) : DifferIn name e e' := by
  intro v v' hv hv' heq
  rw [hv.first?_eq, hv'.first?_eq] at h
  exact h (congrArg some heq)

instance (name : String) : Std.Symm (DifferIn name) :=
  ⟨fun _ _ h v v' hv hv' heq => h v' v hv' hv heq.symm⟩

/-- The entities that come about through the operations on entities. -/
inductive Built : Entity → Prop
  | start (identifier newIdentifier : Option String) : Built ⟨identifier, newIdentifier, ∅⟩
  | identify {e : Entity} (h : Built e) (identifier newIdentifier : Option String) :
      Built { e with identifier := identifier, newIdentifier := newIdentifier }
  | set {e : Entity} (h : Built e) (a : Attribute) : Built (e.set a)
  | erase {e : Entity} (h : Built e) (name : String) : Built (e.erase name)
  | updateEntry {e : Entity} (h : Built e) (name : String) {f : Attribute → Attribute}
      (hf : ∀ a, (f a).name = a.name) : Built (e.updateEntry name f)
  | modify {e : Entity} (h : Built e) (name : String) {f : Attribute → Attribute}
      (hf : ∀ a, (f a).name = a.name) : Built (e.modify name f)

/-- An attribute stands under its folded name. -/
lemma Built.fold_name {e : Entity} (h : e.Built) {k : String} {a : Attribute}
    (ha : e.attributes.get? k = some a) : k = Text.fold a.name := by
  induction h generalizing k a with
  | start identifier newIdentifier => simp at ha
  | identify _ _ _ ih => exact ih ha
  | set _ b ih =>
    simp only [Entity.set, TextMap.get?_insert] at ha
    split at ha
    next heq => rw [← Option.some.inj ha, heq]
    · exact ih ha
  | erase _ name ih =>
    simp only [Entity.erase, TextMap.get?_erase] at ha
    split at ha
    · simp at ha
    · exact ih ha
  | @updateEntry e _ name f hf ih =>
    simp only [Entity.updateEntry, TextMap.get?_insert] at ha
    split at ha
    next heq =>
      obtain rfl := Option.some.inj ha
      rw [hf, ← heq]
      cases hold : e.attribute? name with
      | none => rfl
      | some b => exact ih hold
    · exact ih ha
  | @modify e _ name f hf ih =>
    unfold Entity.modify at ha
    split at ha
    next b hold =>
      simp only [TextMap.get?_insert] at ha
      split at ha
      next heq =>
        obtain rfl := Option.some.inj ha
        rw [hf, ← heq]
        exact ih hold
      · exact ih ha
    · exact ih ha

lemma Built.named (id : String) : (Entity.named id).Built := .start (some id) none

lemma Built.putAll {e : Entity} (h : e.Built) (attributes : List (String × List AttributeValue)) :
    (e.putAll attributes).Built := by
  unfold Entity.putAll
  induction attributes generalizing e with
  | nil => exact h
  | cons a rest ih => exact ih (h.set _)

end Entity

/-! ## The entries of the source -/

namespace MemoryStore

variable {src dst : MemoryStore} {s : Entity} {id v : String}

/-- A source entry with its identifier and its only pivot value. -/
structure Lists (src : MemoryStore) (s : Entity) (id v : String) : Prop where
  entry : src.records.get? (Text.fold id) = some s
  identifier : s.identifier = some id
  pivot : s.HasOnly src.pivotAttribute v
  asciiIdentifier : Text.IsAscii id
  asciiPivot : Text.IsAscii v

lemma pivotOf?_of_lists (h : src.Lists s id v) : src.pivotOf? s = some (src.pivotFor id v) := by
  simp [pivotOf?, h.pivot.first?_eq, h.identifier, pivotFor]

/-- An entity carries a text exactly if one of its values that count agrees with it up to case. -/
lemma carries_iff {e : Entity} (hv : Text.IsAscii v) (hne : v ≠ "") :
    dst.carries e v = true ↔
      ∃ w ∈ e.heldTexts dst.pivotAttribute, Text.fold w = Text.fold v := by
  have hsame : ∀ w, Text.sameFolded w v = true ↔ Text.fold w = Text.fold v := by
    intro w
    rw [Text.sameFolded_comm, Text.sameFolded_iff_fold_eq hv, eq_comm]
  have hcounts : ∀ w, Text.fold w = Text.fold v → w ≠ "" := by
    rintro w hfold rfl
    rw [Text.fold_of_ascii hv] at hfold
    have hlength := congrArg (fun t => t.toList.length) hfold
    simp only [Text.fold, Text.foldFrom, Text.asciiLower, String.toList_empty,
      String.toList_ofList, List.length_nil, List.length_map] at hlength
    exact hne (String.toList_inj.1 (List.length_eq_zero_iff.1 hlength.symm))
  simp only [carries, List.any_eq_true, hsame, Entity.values]
  rw [Entity.heldTexts_eq]
  cases ha : e.attribute? dst.pivotAttribute with
  | none => simp
  | some a =>
    simp only [Attribute.mem_heldTexts_some]
    constructor
    · rintro ⟨w, hw, hfold⟩
      exact ⟨w, ⟨hcounts w hfold, hw⟩, hfold⟩
    · rintro ⟨w, ⟨-, hw⟩, hfold⟩
      exact ⟨w, hw, hfold⟩

/-- Every source entry is listed, and no two of them under pivot values that agree up to case. -/
structure Source (src : MemoryStore) : Prop where
  listed : ∀ k s, src.records.get? k = some s → ∃ id v, k = Text.fold id ∧ src.Lists s id v
  apart : ∀ s id v s' id' v', src.Lists s id v → src.Lists s' id' v' →
    Text.fold v = Text.fold v' → Text.fold id = Text.fold id'

/-- Listed entries that agree in their identifiers up to case are the same. -/
lemma Lists.eq {s' : Entity} {id' v' : String} (h : src.Lists s id v) (h' : src.Lists s' id' v')
    (hfold : Text.fold id = Text.fold id') : s = s' ∧ id = id' ∧ v = v' := by
  have hs : s = s' := by
    have hentry := h.entry
    rw [hfold, h'.entry] at hentry
    exact (Option.some.inj hentry).symm
  subst hs
  refine ⟨rfl, Option.some.inj (h.identifier.symm.trans h'.identifier), ?_⟩
  exact Option.some.inj (h.pivot.first?_eq.symm.trans h'.pivot.first?_eq)

/-- A fetch from the source finds the entry that is listed under the pivot. -/
lemma found?_source (hsrc : src.Source) (h : src.Lists s id v) :
    src.found? (src.pivotFor id v) = some (Text.fold id, s) := by
  have hcarries : ∀ e, src.carries e v = true ↔
      ∃ w ∈ e.heldTexts src.pivotAttribute, Text.fold w = Text.fold v := fun e =>
    carries_iff h.asciiPivot h.pivot.counts
  cases hfound : src.found? (src.pivotFor id v) with
  | none =>
    have hnot := List.find?_eq_none.1 hfound (Text.fold id, s)
      ((TextMap.mem_entries_iff _).2 h.entry)
    rw [wanted_pivotFor, hcarries, h.pivot.heldTexts_eq] at hnot
    exact absurd ⟨v, rfl, rfl⟩ hnot
  | some found =>
    obtain ⟨k, e⟩ := found
    have hget := get?_of_found? hfound
    have hcarried := carries_of_found? hfound
    obtain ⟨id', v', rfl, h'⟩ := hsrc.listed k e hget
    rw [wanted_pivotFor, hcarries, h'.pivot.heldTexts_eq] at hcarried
    obtain ⟨w, rfl, hfold⟩ := hcarried
    have hid := hsrc.apart e id' w s id v h' h hfold
    obtain ⟨rfl, rfl, -⟩ := h'.eq h hid
    rfl

/-! ## The entries of the destination -/

/-- The entities of a destination as far as sync passes from a source depend on them: they have
identifiers, the pivot values of one entity agree up to case and those of two entities do not, and
the place of a source entry is free or taken by an entity with its pivot value. -/
structure Aligned (src : MemoryStore) (m : TextMap Entity) : Prop where
  named : ∀ k e, m.get? k = some e → ∃ id, e.identifier = some id ∧ k = Text.fold id
  one : ∀ k e, m.get? k = some e → ∀ w ∈ e.heldTexts src.pivotAttribute,
    ∀ w' ∈ e.heldTexts src.pivotAttribute, Text.fold w = Text.fold w'
  apart : ∀ k k' e e', m.get? k = some e → m.get? k' = some e' →
    ∀ w ∈ e.heldTexts src.pivotAttribute, ∀ w' ∈ e'.heldTexts src.pivotAttribute,
      Text.fold w = Text.fold w' → k = k'
  placed : ∀ s id v e, src.Lists s id v → m.get? (Text.fold id) = some e →
    ∃ w ∈ e.heldTexts src.pivotAttribute, Text.fold w = Text.fold v

lemma Aligned.keyed {m : TextMap Entity} (h : Aligned src m) : Keyed m := by
  intro k e id hget hid
  obtain ⟨id', hid', rfl⟩ := h.named k e hget
  rw [hid] at hid'
  rw [Option.some.inj hid']

/-- The destination has at most one entity with the pivot value of a source entry, and a fetch
finds it. -/
lemma found?_eq_some_iff (haligned : Aligned src dst.records)
    (hpivot : dst.pivotAttribute = src.pivotAttribute) (h : src.Lists s id v) {k : String}
    {e : Entity} :
    dst.found? (src.pivotFor id v) = some (k, e) ↔ dst.records.get? k = some e ∧
      ∃ w ∈ e.heldTexts src.pivotAttribute, Text.fold w = Text.fold v := by
  have hcarries : ∀ e, dst.carries e v = true ↔
      ∃ w ∈ e.heldTexts src.pivotAttribute, Text.fold w = Text.fold v := by
    intro e
    rw [carries_iff h.asciiPivot h.pivot.counts, hpivot]
  constructor
  · intro hfound
    have hcarried := carries_of_found? hfound
    rw [wanted_pivotFor, hcarries] at hcarried
    exact ⟨get?_of_found? hfound, hcarried⟩
  · rintro ⟨hget, w, hw, hfold⟩
    cases hfound : dst.found? (src.pivotFor id v) with
    | none =>
      have hnot := List.find?_eq_none.1 hfound (k, e) ((TextMap.mem_entries_iff _).2 hget)
      rw [wanted_pivotFor, hcarries] at hnot
      exact absurd ⟨w, hw, hfold⟩ hnot
    | some found =>
      obtain ⟨k', e'⟩ := found
      have hget' := get?_of_found? hfound
      have hcarried := carries_of_found? hfound
      rw [wanted_pivotFor, hcarries] at hcarried
      obtain ⟨w', hw', hfold'⟩ := hcarried
      obtain rfl : k' = k :=
        haligned.apart k' k e' e hget' hget w' hw' w hw (hfold'.trans hfold.symm)
      rw [hget] at hget'
      rw [Option.some.inj hget']

end MemoryStore

/-! ## The fate of a source entry -/

namespace Task

open MemoryStore (Lists Source Aligned pivotFor)

variable {σ : Type} {t : Task σ} {src dst : MemoryStore} {s : Entity} {id v : String}

/-- A task that has nothing evaluated and applies every kind of change. -/
structure Plain (t : Task σ) : Prop where
  policy : t.config.policy.Plain
  dryRun : t.config.dryRun = .none

lemma Plain.suppression? (h : t.Plain) (c : Change) : t.suppression? ⟨c, true⟩ = none := by
  cases hm : c.modification <;>
    simp [Task.suppression?, h.dryRun, DryRun.none, DryRun.suppresses, hm]

lemma change?_of_fate_unchanged {p : Pivot} (h : t.fate src dst p = .unchanged) :
    t.change? src dst p = none := by
  unfold fate at h
  unfold change?
  split at h
  next e he => simp [he]
  next hnone => simp [hnone]
  next planned hplanned =>
    split at h
    · simp at h
    · split at h <;> simp at h

/-- The plan for a listed source entry is made for the entry itself. -/
lemma foreseen_of_lists (hsrc : src.Source) (h : src.Lists s id v)
    (hid : ∀ k d, dst.found? (src.pivotFor id v) = some (k, d) → d.identifier.isSome = true) :
    t.foreseen src dst (src.pivotFor id v) = (t.reconciler.computeChange (some s)
      ((dst.found? (src.pivotFor id v)).map (·.2))).result := by
  have hcheck : t.checkDestination (src.pivotFor id v)
      (.ok ((dst.found? (src.pivotFor id v)).map (·.2))) =
        .ok ((dst.found? (src.pivotFor id v)).map (·.2)) := by
    cases hfound : dst.found? (src.pivotFor id v) with
    | none => rfl
    | some found => simp [checkDestination, hid _ _ hfound]
  have hprepare : t.reconciler.prepareSource s = pure s := by
    simp [Reconciler.prepareSource, h.identifier]
  simp [foreseen, hcheck, MemoryStore.found?_source hsrc h, planSync, hprepare, bind, Except.bind,
    Asked.andThen, pure, Asked.ok]

/-- A planned change that the destination takes is applied. -/
lemma fate_eq_applied (ht : t.Plain) {p : Pivot} {c : Change} {m : TextMap Entity}
    (hplan : t.foreseen src dst p = .ok (some ⟨c, true⟩)) (henact : c.enact dst.records = some m) :
    t.fate src dst p = .applied c := by
  simp [fate, hplan, ht.suppression?, henact]

/-- What a sync pass makes of a source entry: the entity that stands in its place afterwards, and
how it comes there. -/
structure Brings (t : Task σ) (src dst : MemoryStore) (s : Entity) (id v : String) (e : Entity) :
    Prop where
  identifier : ∃ i, e.identifier = some i ∧ Text.fold i = Text.fold id
  held : (e.heldTexts src.pivotAttribute).Nonempty
  same : ∀ w ∈ e.heldTexts src.pivotAttribute, Text.fold w = Text.fold v
  outcome : (t.fate src dst (src.pivotFor id v) = .unchanged ∧
      dst.records.get? (Text.fold id) = some e) ∨
    ∃ c m, t.fate src dst (src.pivotFor id v) = .applied c ∧ c.enact dst.records = some m ∧
      m.get? (Text.fold id) = some e ∧ Text.fold id ∈ c.keys ∧
      (∀ k ∈ c.aim?, k = Text.fold id) ∧ ∀ k ∈ c.keys, k ≠ Text.fold id → m.get? k = none
  settled : ∀ d, dst.records.get? (Text.fold id) = some d → t.reconciler.Settled s e
  rests : ∀ d, dst.records.get? (Text.fold id) = some d → t.reconciler.Settled s d →
    t.fate src dst (src.pivotFor id v) = .unchanged

/-- A plain task from a source whose entries are listed and have names in ASCII. -/
structure Follows (t : Task σ) (src : MemoryStore) : Prop where
  plain : t.Plain
  source : src.Source
  built : ∀ s id v, src.Lists s id v → s.Built
  ascii : ∀ s id v, src.Lists s id v → Reconciler.AsciiNames t.config.policy s

lemma inScope_pivotAttribute (ht : t.Follows src) (h : src.Lists s id v) :
    t.reconciler.InScope s src.pivotAttribute := by
  obtain ⟨⟨a, w, ha, -, -⟩, -⟩ := h.pivot
  have hname : Text.fold src.pivotAttribute = Text.fold a.name := (ht.built s id v h).fold_name ha
  have hmem : a.name ∈ ((some s).map Entity.attributeNames).getD [] :=
    List.mem_map_of_mem (TextMap.mem_values_iff.2 ⟨_, ha⟩)
  obtain ⟨n, hn, hsame⟩ := Policy.exists_mem_distinctNames
    (List.mem_append_left t.config.policy.attributes.keys hmem)
  have hscope : n ∈ t.config.policy.writeScope (some s) := by
    rw [Policy.writeScope, ht.plain.policy.scope]
    exact hn
  have hascii := (ht.ascii s id v h).writeScope.1 n hscope
  refine ⟨n, hscope, (Text.sameFolded_iff_fold_eq hascii).2 ?_⟩
  rw [hname]
  exact (Text.sameFolded_iff_fold_eq hascii).1 hsame

/-- A source entry without counterpart is created. -/
lemma brings_of_missing (ht : t.Follows src) (hpivot : dst.pivotAttribute = src.pivotAttribute)
    (haligned : Aligned src dst.records) (h : src.Lists s id v)
    (hfound : dst.found? (src.pivotFor id v) = none) : ∃ e, t.Brings src dst s id v e := by
  have hfree : dst.records.get? (Text.fold id) = none := by
    cases hget : dst.records.get? (Text.fold id) with
    | none => rfl
    | some e =>
      have hthere := (MemoryStore.found?_eq_some_iff haligned hpivot h).2
        ⟨hget, haligned.placed s id v e h hget⟩
      rw [hfound] at hthere
      simp at hthere
  obtain ⟨ops, hcreate, hheld⟩ := Reconciler.exists_planCreate (r := t.reconciler) ht.plain.policy
    (ht.ascii s id v h) h.identifier
  have hplan : t.foreseen src dst (src.pivotFor id v) = .ok (some ⟨.create id ops, true⟩) := by
    rw [foreseen_of_lists ht.source h (by simp [hfound]), hfound]
    simp only [Option.map_none, Reconciler.computeChange, Asked.result_bind_eq_ok]
    exact ⟨_, hcreate, rfl⟩
  have henact : (Change.create id ops).enact dst.records = some (dst.records.insert (Text.fold id)
      (Change.applyOperations ops (.named id))) := by
    simp only [Change.enact, Change.create, TextMap.contains, hfree]
    rfl
  have hpivotHeld :
      (Change.applyOperations ops (.named id)).heldTexts src.pivotAttribute = {v} := by
    rw [hheld _ (inScope_pivotAttribute ht h), h.pivot.heldTexts_eq]
  refine ⟨Change.applyOperations ops (.named id),
    ⟨id, Change.identifier_applyOperations ops _, rfl⟩, ?_, ?_,
    Or.inr ⟨_, _, fate_eq_applied ht.plain hplan henact, henact, ?_, ?_, ?_, ?_⟩, ?_, ?_⟩
  · rw [hpivotHeld]
    exact ⟨v, rfl⟩
  · rw [hpivotHeld]
    rintro w rfl
    rfl
  · exact TextMap.get?_insert_self ..
  · exact List.mem_cons_self
  · intro k hk
    simpa [Change.aim?, Change.create, eq_comm] using hk
  · intro k hk hne
    exact absurd (by simpa [Change.keys, Change.aim?, Change.create] using hk) hne
  · intro d hd
    simp [hfree] at hd
  · intro d hd
    simp [hfree] at hd

/-- A counterpart with another identifier is renamed. -/
lemma brings_of_renamed (ht : t.Follows src) (hpivot : dst.pivotAttribute = src.pivotAttribute)
    (haligned : Aligned src dst.records) (h : src.Lists s id v) {d : Entity} {old : String}
    (hfound : dst.found? (src.pivotFor id v) = some (Text.fold old, d))
    (hold : d.identifier = some old) (hne : Text.fold id ≠ Text.fold old) :
    ∃ e, t.Brings src dst s id v e := by
  obtain ⟨hget, w, hw, hfold⟩ := (MemoryStore.found?_eq_some_iff haligned hpivot h).1 hfound
  have hfree : dst.records.get? (Text.fold id) = none := by
    cases hthere : dst.records.get? (Text.fold id) with
    | none => rfl
    | some e =>
      obtain ⟨w', hw', hfold'⟩ := haligned.placed s id v e h hthere
      exact absurd (haligned.apart _ _ e d hthere hget w' hw' w hw (hfold'.trans hfold.symm)) hne
  have hclass : classify (some s) (some d) = some .rename := by
    have hdiffer : Text.sameFolded id old = false := by
      rw [← Bool.not_eq_true, Text.sameFolded_iff_fold_eq h.asciiIdentifier]
      exact hne
    simp [classify, h.identifier, hold, hdiffer]
  have hplan : t.foreseen src dst (src.pivotFor id v) = .ok (some ⟨.rename old id, true⟩) := by
    rw [foreseen_of_lists ht.source h (by simp [hfound, hold]), hfound]
    simp only [Option.map_some, Reconciler.computeChange, hclass, Asked.result_bind_eq_ok]
    exact ⟨_, Reconciler.exists_planRename (r := t.reconciler) ht.plain.policy hold h.identifier,
      rfl⟩
  have henact : (Change.rename old id).enact dst.records =
      some ((dst.records.erase (Text.fold old)).insert (Text.fold id)
        { d with identifier := some id }) := by
    simp [Change.enact, Change.rename, TextMap.contains, hfree, hget]
  refine ⟨{ d with identifier := some id }, ⟨id, rfl, rfl⟩, ⟨w, hw⟩, ?_,
    Or.inr ⟨_, _, fate_eq_applied ht.plain hplan henact, henact, ?_, ?_, ?_, ?_⟩, ?_, ?_⟩
  · intro w' hw'
    exact (haligned.one _ d hget w' hw' w hw).trans hfold
  · exact TextMap.get?_insert_self ..
  · simp [Change.keys, Change.aim?, Change.rename]
  · intro k hk
    simpa [Change.aim?, Change.rename, eq_comm] using hk
  · intro k hk hk'
    have hkold : k = Text.fold old := by
      simpa [Change.keys, Change.aim?, Change.rename, hk'] using hk
    rw [hkold, TextMap.get?_insert_of_ne _ hne, TextMap.get?_erase_self]
  · intro d hd
    simp [hfree] at hd
  · intro d hd
    simp [hfree] at hd

/-- A counterpart in its place is updated, unless nothing differs. -/
lemma brings_of_linked (ht : t.Follows src) (hpivot : dst.pivotAttribute = src.pivotAttribute)
    (haligned : Aligned src dst.records) (h : src.Lists s id v) {d : Entity} {old : String}
    (hfound : dst.found? (src.pivotFor id v) = some (Text.fold old, d))
    (hold : d.identifier = some old) (hsame : Text.fold id = Text.fold old) :
    ∃ e, t.Brings src dst s id v e := by
  obtain ⟨hget, w, hw, hfold⟩ := (MemoryStore.found?_eq_some_iff haligned hpivot h).1 hfound
  have hclass : classify (some s) (some d) = some .update := by
    simp [classify, h.identifier, hold, (Text.sameFolded_iff_fold_eq h.asciiIdentifier).2 hsame]
  have hforeseen : t.foreseen src dst (src.pivotFor id v) =
      (t.reconciler.planUpdate s d).result := by
    rw [foreseen_of_lists ht.source h (by simp [hfound, hold]), hfound, Option.map_some,
      Reconciler.computeChange_update hclass]
  have hascii := ht.ascii s id v h
  have hone : ∀ w' ∈ d.heldTexts src.pivotAttribute, Text.fold w' = Text.fold v := fun w' hw' =>
    (haligned.one _ d hget w' hw' w hw).trans hfold
  rcases Reconciler.exists_planUpdate (r := t.reconciler) (s := s) ht.plain.policy hold with
    hnone | ⟨ops, hsome⟩
  · refine ⟨d, ⟨old, hold, hsame.symm⟩, ⟨w, hw⟩, hone, Or.inl ⟨?_, ?_⟩, fun _ _ => ?_,
      fun _ _ _ => ?_⟩
    · simp [fate, hforeseen, hnone]
    · rw [hsame]
      exact hget
    · exact Reconciler.settled_after_planUpdate (r := t.reconciler) ht.plain.policy hascii hnone
    · simp [fate, hforeseen, hnone]
  · have hplan := hforeseen.trans hsome
    have henact : (Change.update old ops).enact dst.records =
        some (dst.records.insert (Text.fold old) (Change.applyOperations ops d)) := by
      simp only [Change.enact, Change.update, hget]
      rfl
    have hheld := Reconciler.heldTexts_after_planUpdate (r := t.reconciler) ht.plain.policy hascii
      hsome src.pivotAttribute
    rw [show PlannedChange.after (some ⟨.update old ops, true⟩) d = Change.applyOperations ops d
      from rfl, h.pivot.heldTexts_eq] at hheld
    refine ⟨Change.applyOperations ops d,
      ⟨old, (Change.identifier_applyOperations ops d).trans hold, hsame.symm⟩, ?_, ?_,
      Or.inr ⟨_, _, fate_eq_applied ht.plain hplan henact, henact, ?_, ?_, ?_, ?_⟩, ?_, ?_⟩
    · rcases hheld with hheld | hheld | hheld <;> rw [hheld]
      · exact ⟨w, hw⟩
      · exact ⟨v, rfl⟩
      · exact ⟨w, Or.inl hw⟩
    · intro w' hw'
      rcases hheld with hheld | hheld | hheld <;> rw [hheld] at hw'
      · exact hone w' hw'
      · rw [hw']
      · rcases hw' with hw' | rfl
        · exact hone w' hw'
        · rfl
    · rw [hsame]
      exact TextMap.get?_insert_self ..
    · rw [hsame]
      exact List.mem_cons_self
    · intro k hk
      simp [Change.aim?, Change.update] at hk
    · intro k hk hne
      rw [hsame] at hne
      exact absurd (by simpa [Change.keys, Change.aim?, Change.update] using hk) hne
    · intro _ _
      exact Reconciler.settled_after_planUpdate (r := t.reconciler) ht.plain.policy hascii hsome
    · intro d' hd' hsettled
      rw [hsame, hget] at hd'
      obtain rfl := Option.some.inj hd'
      rw [Reconciler.planUpdate_of_settled (r := t.reconciler) ht.plain.policy hsettled] at hsome
      simp at hsome

/-- Every source entry has a place in an aligned destination after a sync pass. -/
theorem exists_brings (ht : t.Follows src) (hpivot : dst.pivotAttribute = src.pivotAttribute)
    (haligned : Aligned src dst.records) (h : src.Lists s id v) :
    ∃ e, t.Brings src dst s id v e := by
  cases hfound : dst.found? (src.pivotFor id v) with
  | none => exact brings_of_missing ht hpivot haligned h hfound
  | some found =>
    obtain ⟨k, d⟩ := found
    obtain ⟨old, hold, rfl⟩ := haligned.named k d (MemoryStore.get?_of_found? hfound)
    by_cases hsame : Text.fold id = Text.fold old
    · exact brings_of_linked ht hpivot haligned h hfound hold hsame
    · exact brings_of_renamed ht hpivot haligned h hfound hold hsame

end Task

end StoreSync
