import Mathlib.Data.List.Basic
import StoreSync.Proofs.Planning
import StoreSync.Proofs.Stores
import StoreSync.Task

/-!
# What becomes of a pivot

A unit that has the two stores to itself plans from what they hold and has the change applied,
held back or refused (`Task.fate`).  Units that share the stores meet the same fates as long as
they do not come near one another:

* `Task.Independent` — the first of two pivots leaves alone whatever the second one depends on;
* `Task.Enacted` — a map of entities in which exactly the changes of some pivots have been carried
  out.  It is determined by the pivots (`Task.Enacted.eq`), and grows by one pivot with every
  change (`Task.Enacted.settle`);
* `Task.Enacted.find?_eq`, `Task.Enacted.agree` — a pivot that is independent of those that were
  carried out still finds what it found at first, and still has its change accepted or refused.
-/

namespace StoreSync

/-! ## The changes of plans -/

namespace Reconciler

variable {r : Reconciler} {s d : Entity} {plan : PlannedChange}

/-- A creation is a list of operations, one at most for each name in scope. -/
lemma operations_of_planCreate (h : (r.planCreate s).result = .ok plan) :
    ∃ id ops, plan.change = .create id ops ∧ (collectOperations (r.createOperation s)
      (r.policy.writeScope (some s))).result = .ok ops := by
  unfold planCreate at h
  cases hid : s.identifier with
  | some id =>
    simp only [hid, Asked.result_bind_eq_ok, Asked.result_pure] at h
    obtain ⟨id', -, ops, hops, allowed, -, hplan⟩ := h
    obtain rfl := Except.ok.inj hplan
    exact ⟨id', ops, rfl, hops⟩
  | none =>
    simp only [hid] at h
    obtain ⟨resolved, -, h⟩ := Asked.result_bind_eq_ok.1 h
    cases resolved with
    | none =>
      obtain ⟨id, hfail, -⟩ := Asked.result_bind_eq_ok.1 h
      simp at hfail
    | some id =>
      simp only [Asked.result_bind_eq_ok, Asked.result_pure] at h
      obtain ⟨id', -, ops, hops, allowed, -, hplan⟩ := h
      obtain rfl := Except.ok.inj hplan
      exact ⟨id', ops, rfl, hops⟩

lemma change_of_planCreate (h : (r.planCreate s).result = .ok plan) :
    ∃ id ops, plan.change = .create id ops := by
  obtain ⟨id, ops, hchange, -⟩ := operations_of_planCreate h
  exact ⟨id, ops, hchange⟩

lemma change_of_planRename (h : (r.planRename s d).result = .ok plan) :
    ∃ old new, d.identifier = some old ∧ s.identifier = some new ∧
      plan.change = .rename old new := by
  unfold planRename destinationIdentifier at h
  cases hid : d.identifier with
  | none =>
    simp only [hid] at h
    obtain ⟨old, hfail, -⟩ := Asked.result_bind_eq_ok.1 h
    simp at hfail
  | some old =>
    simp only [hid] at h
    obtain ⟨old', hold, h⟩ := Asked.result_bind_eq_ok.1 h
    obtain rfl : old = old' := by simpa using hold
    cases hnew : s.identifier with
    | none => simp [hnew] at h
    | some new =>
      simp only [hnew] at h
      obtain ⟨allowed, -, hplan⟩ := Asked.result_bind_eq_ok.1 h
      obtain rfl := Except.ok.inj hplan
      exact ⟨old, new, rfl, rfl, rfl⟩

/-- An update is a list of operations, not empty, one at most for each name in scope. -/
lemma operations_of_planUpdate (h : (r.planUpdate s d).result = .ok (some plan)) :
    ∃ id ops, d.identifier = some id ∧ plan.change = .update id ops ∧ ops ≠ [] ∧
      (collectOperations (r.updateOperation s d)
        (r.policy.writeScope (some s))).result = .ok ops := by
  unfold planUpdate destinationIdentifier at h
  obtain ⟨ops, hops, h⟩ := Asked.result_bind_eq_ok.1 h
  split at h
  · simp at h
  next hsome =>
    cases hid : d.identifier with
    | none =>
      simp only [hid] at h
      obtain ⟨id, hfail, -⟩ := Asked.result_bind_eq_ok.1 h
      simp at hfail
    | some id =>
      simp only [hid] at h
      obtain ⟨id', hid', h⟩ := Asked.result_bind_eq_ok.1 h
      obtain rfl : id = id' := by simpa using hid'
      obtain ⟨allowed, -, hplan⟩ := Asked.result_bind_eq_ok.1 h
      obtain rfl : PlannedChange.mk (.update id ops) allowed = plan := by simpa using hplan
      exact ⟨id, ops, rfl, rfl, by simpa using hsome, hops⟩

lemma change_of_planUpdate (h : (r.planUpdate s d).result = .ok (some plan)) :
    ∃ id ops, d.identifier = some id ∧ plan.change = .update id ops := by
  obtain ⟨id, ops, hid, hchange, -⟩ := operations_of_planUpdate h
  exact ⟨id, ops, hid, hchange⟩

/-- The change for a source record creates its counterpart if there is none, and otherwise updates
or renames it. -/
lemma change_of_computeChange {d : Option Entity}
    (h : (r.computeChange (some s) d).result = .ok (some plan)) :
    (d = none ∧ ∃ id ops, plan.change = .create id ops) ∨
      ∃ e id, d = some e ∧ e.identifier = some id ∧
        ((∃ ops, plan.change = .update id ops) ∨ ∃ new, plan.change = .rename id new) := by
  cases d with
  | none =>
    simp only [computeChange, Asked.result_bind_eq_ok, Asked.result_pure] at h
    obtain ⟨plan', hplan, heq⟩ := h
    obtain rfl : plan' = plan := by simpa using heq
    exact Or.inl ⟨rfl, change_of_planCreate hplan⟩
  | some e =>
    refine Or.inr ⟨e, ?_⟩
    simp only [computeChange] at h
    split at h
    · obtain ⟨plan', hplan, heq⟩ := Asked.result_bind_eq_ok.1 h
      obtain rfl : plan' = plan := by simpa using heq
      obtain ⟨old, new, hold, -, hchange⟩ := change_of_planRename hplan
      exact ⟨old, rfl, hold, Or.inr ⟨new, hchange⟩⟩
    · obtain ⟨id, ops, hid, hchange⟩ := change_of_planUpdate h
      exact ⟨id, rfl, hid, Or.inl ⟨ops, hchange⟩⟩

end Reconciler

/-! ## Fates -/

/-- What becomes of a pivot. -/
inductive Fate where
  | failed (e : SyncError)
  /-- Nothing differs. -/
  | unchanged
  | held (c : Change) (reason : Suppression)
  /-- The destination does not take the change. -/
  | refused (c : Change)
  | applied (c : Change)
deriving DecidableEq

namespace Task

variable {σ : Type}

/-- The plan for a pivot, made from what two stores hold. -/
def foreseen (t : Task σ) (src dst : MemoryStore) (p : Pivot) :
    Except SyncError (Option PlannedChange) := do
  let d ← t.checkDestination p (.ok ((dst.found? p).map (·.2)))
  (t.planSync p ((src.found? p).map (·.2)) d).result

/-- The change that is computed for a pivot, whether or not it will be applied. -/
def change? (t : Task σ) (src dst : MemoryStore) (p : Pivot) : Option Change :=
  match t.foreseen src dst p with
  | .ok (some planned) => some planned.change
  | _ => none

/-- What becomes of a pivot whose unit has the two stores to itself. -/
def fate (t : Task σ) (src dst : MemoryStore) (p : Pivot) : Fate :=
  match t.foreseen src dst p with
  | .error e => .failed e
  | .ok none => .unchanged
  | .ok (some planned) =>
    match t.suppression? planned with
    | some reason => .held planned.change reason
    | none =>
      if (planned.change.enact dst.records).isSome then .applied planned.change
      else .refused planned.change

variable {t : Task σ} {src dst : MemoryStore} {p q : Pivot} {c c' : Change}

lemma change?_eq_some_iff :
    t.change? src dst p = some c ↔
      ∃ planned, t.foreseen src dst p = .ok (some planned) ∧ planned.change = c := by
  unfold change?
  split
  next planned hplanned => simp [hplanned]
  next hnone =>
    simp only [reduceCtorEq, false_iff, not_exists, not_and]
    intro planned hplanned
    exact absurd hplanned (hnone planned)

/-- The change for a pivot is about the record that a fetch finds, or creates one if there is
none. -/
lemma shape_of_change? (h : t.change? src dst p = some c) :
    (dst.found? p = none ∧ ∃ id ops, c = .create id ops) ∨
      ∃ k d id, dst.found? p = some (k, d) ∧ d.identifier = some id ∧
        ((∃ ops, c = .update id ops) ∨ ∃ new, c = .rename id new) := by
  obtain ⟨planned, hplanned, rfl⟩ := change?_eq_some_iff.1 h
  unfold foreseen at hplanned
  cases hd : t.checkDestination p (.ok ((dst.found? p).map (·.2))) with
  | error e => simp [hd, bind, Except.bind] at hplanned
  | ok d =>
    simp only [hd, bind, Except.bind] at hplanned
    have hanswer : d = (dst.found? p).map (·.2) := by
      cases hfound : dst.found? p with
      | none => simpa [checkDestination, hfound, eq_comm] using hd
      | some found =>
        simp only [checkDestination, hfound, Option.map_some] at hd
        split at hd
        · simpa [eq_comm] using hd
        · simp at hd
    unfold planSync at hplanned
    split at hplanned
    · simp at hplanned
    · obtain ⟨s, -, hplanned⟩ := Asked.result_bind_eq_ok.1 hplanned
      have hshape := Reconciler.change_of_computeChange hplanned
      rcases hshape with ⟨hnone, hchange⟩ | ⟨e, id, he, hid, hchange⟩
      · refine Or.inl ⟨?_, hchange⟩
        rw [hanswer] at hnone
        exact Option.map_eq_none_iff.1 hnone
      · rw [hanswer] at he
        obtain ⟨⟨k, d'⟩, hfound, rfl⟩ := Option.map_eq_some_iff.1 he
        exact Or.inr ⟨k, d', id, hfound, hid, hchange⟩

/-- The change of a fate is the one that is computed. -/
lemma change?_of_fate (h : t.fate src dst p = .applied c ∨ t.fate src dst p = .refused c) :
    t.change? src dst p = some c := by
  unfold fate at h
  split at h
  · simp at h
  · simp at h
  next planned hplanned =>
    refine change?_eq_some_iff.2 ⟨planned, hplanned, ?_⟩
    split at h
    · simp at h
    · split at h
      · simpa using h
      · simpa using h

lemma enact_of_fate_applied (h : t.fate src dst p = .applied c) :
    ∃ m, c.enact dst.records = some m := by
  unfold fate at h
  split at h
  · simp at h
  · simp at h
  · split at h
    · simp at h
    · split at h
      next hsome =>
        obtain rfl := Fate.applied.inj h
        exact Option.isSome_iff_exists.1 hsome
      · simp at h

lemma enact_of_fate_refused (h : t.fate src dst p = .refused c) :
    c.enact dst.records = none := by
  unfold fate at h
  split at h
  · simp at h
  · simp at h
  · split at h
    · simp at h
    · split at h
      · simp at h
      next hnone =>
        obtain rfl := Fate.refused.inj h
        exact Option.not_isSome_iff_eq_none.1 hnone

/-! ## Independent pivots -/

/-- The first of two pivots leaves alone what the second one depends on: they do not find the same
entry, the record that the first one leaves is not one that the second one would find, and the
place that it creates or renames to is neither the place of another entry nor the place that the
second one creates or renames to. -/
structure Independent (t : Task σ) (src dst : MemoryStore) (p q : Pivot) : Prop where
  entry : ∀ k ∈ dst.foundKey? p, dst.foundKey? q ≠ some k
  value : ∀ c ∈ t.change? src dst p, ∀ e ∈ c.leaves ((dst.found? p).map (·.2)),
    dst.carries e (dst.wanted q) = false
  place : ∀ c ∈ t.change? src dst p, ∀ k ∈ c.aim?,
    dst.entries.contains k = true → dst.foundKey? p = some k
  aim : ∀ c ∈ t.change? src dst p, ∀ c' ∈ t.change? src dst q, ∀ k ∈ c.aim?, c'.aim? ≠ some k

instance : Decidable (t.Independent src dst p q) :=
  decidable_of_iff
    ((∀ k ∈ dst.foundKey? p, dst.foundKey? q ≠ some k) ∧
      (∀ c ∈ t.change? src dst p, ∀ e ∈ c.leaves ((dst.found? p).map (·.2)),
        dst.carries e (dst.wanted q) = false) ∧
      (∀ c ∈ t.change? src dst p, ∀ k ∈ c.aim?,
        dst.entries.contains k = true → dst.foundKey? p = some k) ∧
      ∀ c ∈ t.change? src dst p, ∀ c' ∈ t.change? src dst q, ∀ k ∈ c.aim?, c'.aim? ≠ some k)
    ⟨fun ⟨h₁, h₂, h₃, h₄⟩ => ⟨h₁, h₂, h₃, h₄⟩, fun ⟨h₁, h₂, h₃, h₄⟩ => ⟨h₁, h₂, h₃, h₄⟩⟩

/-- A change looks at the key of the record that was found, and at the key it aims at. -/
lemma mem_keys_of_change? (hkeyed : MemoryStore.Keyed dst.records)
    (h : t.change? src dst p = some c) {k : String} (hk : k ∈ c.keys) :
    c.aim? = some k ∨ dst.foundKey? p = some k := by
  rcases shape_of_change? h with ⟨-, id, ops, rfl⟩ | ⟨k', d, id, hfound, hid, hchange⟩
  · exact Or.inl (by simpa [Change.keys, Change.aim?, Change.create, eq_comm] using hk)
  · have hkey : k' = Text.fold id := hkeyed k' d id (MemoryStore.get?_of_found? hfound) hid
    have hown : dst.foundKey? p = some (Text.fold id) := by
      simp [MemoryStore.foundKey?, hfound, hkey]
    rw [hown]
    rcases hchange with ⟨ops, rfl⟩ | ⟨new, rfl⟩
    · exact Or.inr (by simpa [Change.keys, Change.aim?, Change.update, eq_comm] using hk)
    · simpa [Change.keys, Change.aim?, Change.rename, eq_comm, or_comm] using hk

/-- What a change leaves behind of the record under its identifier is what it leaves behind of the
record that was found. -/
lemma leaves_of_change? (hkeyed : MemoryStore.Keyed dst.records)
    (h : t.change? src dst p = some c) :
    c.leaves (dst.records.get? (Text.fold c.identifier)) =
      c.leaves ((dst.found? p).map (·.2)) := by
  rcases shape_of_change? h with ⟨-, id, ops, rfl⟩ | ⟨k, d, id, hfound, hid, hchange⟩
  · simp [Change.leaves, Change.create]
  · have hget := MemoryStore.get?_of_found? hfound
    have hkey : k = Text.fold id := hkeyed k d id hget hid
    have hidentifier : c.identifier = id := by
      rcases hchange with ⟨ops, rfl⟩ | ⟨new, rfl⟩ <;> rfl
    rw [hidentifier, ← hkey, hget, hfound]
    rfl

lemma contains_of_foundKey? {k : String} (h : dst.foundKey? p = some k) :
    dst.entries.contains k = true := by
  obtain ⟨⟨k', e⟩, hfound, rfl⟩ := Option.map_eq_some_iff.1 h
  rw [← MemoryStore.contains_records]
  simp [TextMap.contains, MemoryStore.get?_of_found? hfound]

/-- The change of one pivot does not look at the entry that an independent one finds. -/
lemma Independent.foundKey?_notMem (hkeyed : MemoryStore.Keyed dst.records)
    (h : t.Independent src dst p q) (hp : t.change? src dst p = some c) {k : String}
    (hq : dst.foundKey? q = some k) : k ∉ c.keys := by
  intro hk
  rcases mem_keys_of_change? hkeyed hp hk with haim | hfound
  · exact h.entry k (h.place c hp k haim (contains_of_foundKey? hq)) hq
  · exact h.entry k hfound hq

/-- The changes of independent pivots look at different keys. -/
lemma Independent.keys_disjoint (hkeyed : MemoryStore.Keyed dst.records)
    (h : t.Independent src dst p q) (h' : t.Independent src dst q p)
    (hp : t.change? src dst p = some c) (hq : t.change? src dst q = some c') {k : String}
    (hk : k ∈ c.keys) : k ∉ c'.keys := by
  intro hk'
  rcases mem_keys_of_change? hkeyed hq hk' with haim | hfound
  · rcases mem_keys_of_change? hkeyed hp hk with haim' | hfound
    · exact h.aim c hp c' hq k haim' haim
    · exact h'.foundKey?_notMem hkeyed hq hfound hk'
  · exact h.foundKey?_notMem hkeyed hp hfound hk

/-! ## Carrying out the changes of some pivots -/

/-- The entities of the destination after the changes of some pivots: under the keys of every
change stands what that change makes of the initial entities, and nothing else is touched. -/
structure Enacted (t : Task σ) (src dst : MemoryStore) (ps : List Pivot) (m : TextMap Entity) :
    Prop where
  own : ∀ p ∈ ps, ∀ c, t.fate src dst p = .applied c →
    ∀ m', c.enact dst.records = some m' → ∀ k ∈ c.keys, m.get? k = m'.get? k
  rest : ∀ k, (∀ p ∈ ps, ∀ c, t.fate src dst p = .applied c → k ∉ c.keys) →
    m.get? k = dst.records.get? k

variable {ps : List Pivot} {m m' : TextMap Entity}

lemma Enacted.nil : t.Enacted src dst [] dst.records := ⟨by simp, fun _ _ => rfl⟩

lemma Enacted.perm {ps' : List Pivot} (h : t.Enacted src dst ps m) (hperm : ps.Perm ps') :
    t.Enacted src dst ps' m :=
  ⟨fun p hp => h.own p (hperm.mem_iff.2 hp),
    fun k hk => h.rest k fun p hp => hk p (hperm.mem_iff.1 hp)⟩

/-- The pivots determine the entities. -/
lemma Enacted.eq (h : t.Enacted src dst ps m) (h' : t.Enacted src dst ps m') : m = m' := by
  refine TextMap.ext_get? fun k => ?_
  by_cases hk : ∃ p ∈ ps, ∃ c, t.fate src dst p = .applied c ∧ k ∈ c.keys
  · obtain ⟨p, hp, c, hfate, hkeys⟩ := hk
    obtain ⟨m₁, hm₁⟩ := enact_of_fate_applied hfate
    rw [h.own p hp c hfate m₁ hm₁ k hkeys, h'.own p hp c hfate m₁ hm₁ k hkeys]
  · have hrest : ∀ p ∈ ps, ∀ c, t.fate src dst p = .applied c → k ∉ c.keys := by
      intro p hp c hfate hkeys
      exact hk ⟨p, hp, c, hfate, hkeys⟩
    rw [h.rest k hrest, h'.rest k hrest]

/-- A pivot without a change that is applied makes no difference. -/
lemma Enacted.pass (h : t.Enacted src dst ps m) (hp : ∀ c, t.fate src dst p ≠ .applied c) :
    t.Enacted src dst (p :: ps) m := by
  constructor
  · intro p' hp' c hfate
    rcases List.mem_cons.1 hp' with rfl | hp'
    · exact absurd hfate (hp c)
    · exact h.own p' hp' c hfate
  · intro k hk
    exact h.rest k fun p' hp' => hk p' (List.mem_cons_of_mem _ hp')

/-- The change of a pivot that is independent of those carried out meets, under its own keys, the
initial entities. -/
lemma Enacted.agree (hkeyed : MemoryStore.Keyed dst.records) (h : t.Enacted src dst ps m)
    (hind : ∀ q ∈ ps, t.Independent src dst p q ∧ t.Independent src dst q p)
    (hp : t.change? src dst p = some c) : ∀ k ∈ c.keys, m.get? k = dst.records.get? k := by
  intro k hk
  refine h.rest k fun q hq c' hfate hkeys => ?_
  obtain ⟨hpq, hqp⟩ := hind q hq
  exact hpq.keys_disjoint hkeyed hqp hp (change?_of_fate (Or.inl hfate)) hk hkeys

/-- Carrying out one more change. -/
lemma Enacted.settle (hkeyed : MemoryStore.Keyed dst.records) (h : t.Enacted src dst ps m)
    (hind : ∀ q ∈ ps, t.Independent src dst p q ∧ t.Independent src dst q p)
    (hfate : t.fate src dst p = .applied c) (henact : c.enact m = some m') :
    t.Enacted src dst (p :: ps) m' := by
  have hchange := change?_of_fate (Or.inl hfate)
  have hagree := h.agree hkeyed hind hchange
  constructor
  · intro q hq c' hfate' m₁ hm₁ k hk
    rcases List.mem_cons.1 hq with rfl | hq
    · obtain rfl : c = c' := by simpa [hfate] using hfate'
      obtain ⟨m₂, hm₂, hsame⟩ :=
        Change.exists_enact_of_agree henact fun k hk => (hagree k hk).symm
      obtain rfl : m₂ = m₁ := by simpa [hm₂] using hm₁
      exact (hsame k hk).symm
    · obtain ⟨hpq, hqp⟩ := hind q hq
      have hk' : k ∉ c.keys :=
        hqp.keys_disjoint hkeyed hpq (change?_of_fate (Or.inl hfate')) hchange hk
      rw [Change.get?_enact_of_notMem henact hk']
      exact h.own q hq _ hfate' m₁ hm₁ k hk
  · intro k hk
    have hk' : k ∉ c.keys := hk p List.mem_cons_self _ hfate
    rw [Change.get?_enact_of_notMem henact hk']
    exact h.rest k fun q hq => hk q (List.mem_cons_of_mem _ hq)

/-- A pivot that is independent of those carried out finds what it found at first. -/
lemma Enacted.find?_eq (hkeyed : MemoryStore.Keyed dst.records) (h : t.Enacted src dst ps m)
    (hind : ∀ q ∈ ps, t.Independent src dst q p) :
    m.entries.find? (fun e => dst.carries e.2 (dst.wanted p)) = dst.found? p := by
  refine TextMap.find?_entries_of_kept (P := fun e => dst.carries e (dst.wanted p)) ?_ ?_
  · intro k e hget hcarries
    by_cases hk : ∃ q ∈ ps, ∃ c, t.fate src dst q = .applied c ∧ k ∈ c.keys
    · obtain ⟨q, hq, c, hfate, hkeys⟩ := hk
      have hchange := change?_of_fate (Or.inl hfate)
      obtain ⟨m₁, hm₁⟩ := enact_of_fate_applied hfate
      rw [h.own q hq _ hfate m₁ hm₁ k hkeys] at hget
      have hleft := Change.leaves_of_get?_enact hm₁ hkeys hget
      rw [leaves_of_change? hkeyed hchange] at hleft
      rw [(hind q hq).value c hchange e hleft] at hcarries
      simp at hcarries
    · rw [← h.rest k fun q hq c hfate hkeys => hk ⟨q, hq, c, hfate, hkeys⟩]
      exact hget
  · intro k e hfirst
    have hkey : dst.foundKey? p = some k := by
      rw [MemoryStore.foundKey?, MemoryStore.found?, hfirst]
      rfl
    have hget : dst.records.get? k = some e := MemoryStore.get?_of_found? (p := p) hfirst
    rw [h.rest k fun q hq c hfate => ?_]
    · exact hget
    · exact (hind q hq).foundKey?_notMem hkeyed (change?_of_fate (Or.inl hfate)) hkey

end Task

end StoreSync
