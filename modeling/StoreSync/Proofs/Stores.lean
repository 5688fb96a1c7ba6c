import Mathlib.Data.List.Basic
import StoreSync.Proofs.Operations
import StoreSync.Store.Adapter

/-!
# What a change does to a store

The time of the last write takes no part in fetching or in applying a change, so a store is looked
at here as the map of its entities (`MemoryStore.records`).

* `Change.enact` — a change as a partial map on entities; `MemoryStore.apply_of_enact` and
  `MemoryStore.apply_of_enact_eq_none` say that applying a change to a store is just this;
* `Change.keys` — the keys that a change looks at.  It leaves every other key alone
  (`Change.get?_enact_of_notMem`), and what it does to its own keys depends on nothing else
  (`Change.exists_enact_of_agree`, `Change.enact_eq_none_of_agree`);
* `MemoryStore.found?` — what a fetch finds, with its key.  The search stays what it is as long as
  its first match stays and no match is added (`TextMap.find?_entries_of_kept`);
* `MemoryStore.mem_list_iff` and `MemoryStore.exists_list` — the pivots that a store lists;
* `MemoryStore.Reachable.keyed` — in a store that was filled and changed in any way, an entry with
  an identifier stands under the folded identifier.
-/

namespace StoreSync

/-! ## Searching a map -/

namespace TextMap

variable {α β : Type*}

@[simp] lemma get?_map (f : α → β) (m : TextMap α) (key : String) :
    (m.map f).get? key = (m.get? key).map f := by
  obtain ⟨entries, ascending⟩ := m
  simp only [get?, map]
  clear ascending
  induction entries with
  | nil => rfl
  | cons head tail ih =>
    obtain ⟨k, v⟩ := head
    by_cases hk : k = key
    · simp [lookupEntry, hk]
    · simp [lookupEntry, hk, ih]

lemma mem_values_iff {m : TextMap α} {v : α} : v ∈ m.values ↔ ∃ k, m.get? k = some v := by
  simp only [values, List.mem_map, ← mem_entries_iff]
  constructor
  · rintro ⟨⟨k, v⟩, he, rfl⟩
    exact ⟨k, he⟩
  · rintro ⟨k, he⟩
    exact ⟨(k, v), he, rfl⟩

/-- The first match stands before every other one. -/
lemma le_of_find?_entries {m : TextMap α} {P : String × α → Bool} {e x : String × α}
    (h : m.entries.find? P = some e) (hx : x ∈ m.entries) (hP : P x = true) :
    e = x ∨ e.1 < x.1 := by
  obtain ⟨-, before, after, hentries, hbefore⟩ := List.find?_eq_some_iff_append.1 h
  have hascending := m.ascending
  rw [hentries] at hx hascending
  rcases List.mem_append.1 hx with hx | hx
  · have hnot := hbefore x hx
    simp [hP] at hnot
  · rcases List.mem_cons.1 hx with rfl | hx
    · exact Or.inl rfl
    · have htail := (List.pairwise_append.1 hascending).2.1
      exact Or.inr ((List.pairwise_cons.1 htail).1 x hx)

/-- A search finds the same entry in two maps, when every match of the second is one of the first
and the second still has the first match of the first. -/
lemma find?_entries_of_kept {m m' : TextMap α} {P : α → Bool}
    (hnew : ∀ k v, m'.get? k = some v → P v = true → m.get? k = some v)
    (hkept : ∀ k v, m.entries.find? (fun e => P e.2) = some (k, v) → m'.get? k = some v) :
    m'.entries.find? (fun e => P e.2) = m.entries.find? (fun e => P e.2) := by
  have hmatch : ∀ e ∈ m'.entries, P e.2 = true → e ∈ m.entries := by
    intro e he hP
    exact (mem_entries_iff m).2 (hnew e.1 e.2 ((mem_entries_iff m').1 he) hP)
  cases hfirst : m.entries.find? (fun e => P e.2) with
  | none =>
    refine List.find?_eq_none.2 fun e he hP => ?_
    exact List.find?_eq_none.1 hfirst e (hmatch e he hP) hP
  | some e =>
    have he : e ∈ m'.entries := (mem_entries_iff m').2 (hkept e.1 e.2 hfirst)
    have hP : P e.2 = true := by simpa using List.find?_some hfirst
    cases hfirst' : m'.entries.find? (fun e => P e.2) with
    | none => exact absurd hP (List.find?_eq_none.1 hfirst' e he)
    | some e' =>
      have hP' : P e'.2 = true := by simpa using List.find?_some hfirst'
      have he' : e' ∈ m.entries := hmatch e' (List.mem_of_find?_eq_some hfirst') hP'
      rcases le_of_find?_entries hfirst he' hP' with heq | hlt
      · rw [heq]
      · rcases le_of_find?_entries hfirst' he hP with heq | hlt'
        · rw [heq]
        · exact absurd hlt (String.lt_asymm hlt')

end TextMap

/-! ## Changes on entities -/

namespace Change

variable {c : Change} {m m' n : TextMap Entity} {k : String}

/-- What a change makes of the entities of a store; none when it is refused. -/
def enact (c : Change) (m : TextMap Entity) : Option (TextMap Entity) :=
  let key := Text.fold c.identifier
  match c.modification with
  | .create =>
    if m.contains key then none else some (m.insert key (c.applyTo (.named c.identifier)))
  | .update => (m.get? key).map fun e => m.insert key (c.applyTo e)
  | .delete => if m.contains key then some (m.erase key) else none
  | .rename =>
    c.newIdentifier.bind fun new =>
      if Text.fold new ≠ key ∧ m.contains (Text.fold new) then none
      else (m.get? key).map fun e =>
        (m.erase key).insert (Text.fold new) { e with identifier := some new }

/-- The key that a creation or a rename puts its record under. -/
def aim? (c : Change) : Option String :=
  match c.modification with
  | .create => some (Text.fold c.identifier)
  | .rename => c.newIdentifier.map Text.fold
  | _ => none

/-- The keys that a change looks at. -/
def keys (c : Change) : List String := Text.fold c.identifier :: c.aim?.toList

/-- The record that a change leaves behind of the one it is about. -/
def leaves (c : Change) (old : Option Entity) : Option Entity :=
  match c.modification with
  | .create => some (c.applyTo (.named c.identifier))
  | .update => old.map c.applyTo
  | .delete => none
  | .rename => old.map fun e => { e with identifier := c.newIdentifier }

lemma identifier_applyTo (c : Change) (e : Entity) : (c.applyTo e).identifier = e.identifier :=
  identifier_applyOperations c.operations e

/-- A change leaves the keys alone that it does not look at. -/
lemma get?_enact_of_notMem (h : c.enact m = some m') (hk : k ∉ c.keys) :
    m'.get? k = m.get? k := by
  obtain ⟨modification, identifier, newIdentifier, operations⟩ := c
  cases modification with
  | create =>
    have hne : Text.fold identifier ≠ k := fun heq => hk (by simp [keys, heq])
    simp only [enact] at h
    split at h
    · simp at h
    · obtain rfl := Option.some.inj h
      exact TextMap.get?_insert_of_ne _ hne _
  | update =>
    have hne : Text.fold identifier ≠ k := fun heq => hk (by simp [keys, heq])
    obtain ⟨e, -, rfl⟩ := Option.map_eq_some_iff.1 h
    exact TextMap.get?_insert_of_ne _ hne _
  | delete =>
    have hne : Text.fold identifier ≠ k := fun heq => hk (by simp [keys, heq])
    simp only [enact] at h
    split at h
    · obtain rfl := Option.some.inj h
      exact TextMap.get?_erase_of_ne _ hne
    · simp at h
  | rename =>
    obtain ⟨new, rfl, h⟩ := Option.bind_eq_some_iff.1 h
    have hne : Text.fold identifier ≠ k := fun heq => hk (by simp [keys, heq])
    have hne' : Text.fold new ≠ k := fun heq => hk (by simp [keys, aim?, heq])
    split at h
    · simp at h
    · obtain ⟨e, -, rfl⟩ := Option.map_eq_some_iff.1 h
      rw [TextMap.get?_insert_of_ne _ hne', TextMap.get?_erase_of_ne _ hne]

/-- Under its own keys a change leaves no other record than `Change.leaves` says. -/
lemma leaves_of_get?_enact (h : c.enact m = some m') (hk : k ∈ c.keys) {e : Entity}
    (he : m'.get? k = some e) : c.leaves (m.get? (Text.fold c.identifier)) = some e := by
  obtain ⟨modification, identifier, newIdentifier, operations⟩ := c
  cases modification with
  | create =>
    obtain rfl : k = Text.fold identifier := by simpa [keys, aim?] using hk
    simp only [enact] at h
    split at h
    · simp at h
    · obtain rfl := Option.some.inj h
      rw [TextMap.get?_insert_self] at he
      exact he
  | update =>
    obtain rfl : k = Text.fold identifier := by simpa [keys, aim?] using hk
    obtain ⟨e', he', rfl⟩ := Option.map_eq_some_iff.1 h
    rw [TextMap.get?_insert_self] at he
    simpa [leaves, he'] using he
  | delete =>
    obtain rfl : k = Text.fold identifier := by simpa [keys, aim?] using hk
    simp only [enact] at h
    split at h
    · obtain rfl := Option.some.inj h
      simp at he
    · simp at h
  | rename =>
    obtain ⟨new, rfl, h⟩ := Option.bind_eq_some_iff.1 h
    split at h
    · simp at h
    · obtain ⟨e', he', rfl⟩ := Option.map_eq_some_iff.1 h
      by_cases hnew : Text.fold new = k
      · subst hnew
        rw [TextMap.get?_insert_self] at he
        simpa [leaves, he'] using he
      · have hold : k = Text.fold identifier := by
          simpa [keys, aim?, Ne.symm hnew] using hk
        rw [TextMap.get?_insert_of_ne _ hnew, hold, TextMap.get?_erase_self] at he
        simp at he

/-- Two maps that agree under the keys of a change are changed alike there. -/
lemma exists_enact_of_agree (h : c.enact m = some m') (hagree : ∀ k ∈ c.keys, n.get? k = m.get? k) :
    ∃ n', c.enact n = some n' ∧ ∀ k ∈ c.keys, n'.get? k = m'.get? k := by
  obtain ⟨modification, identifier, newIdentifier, operations⟩ := c
  have hown : n.get? (Text.fold identifier) = m.get? (Text.fold identifier) :=
    hagree _ (by simp [keys])
  cases modification with
  | create =>
    by_cases hthere : m.contains (Text.fold identifier) = true
    · simp [enact, hthere] at h
    · have hthere' : ¬n.contains (Text.fold identifier) = true := by
        rwa [TextMap.contains, hown]
      simp only [enact, if_neg hthere, Option.some.injEq] at h
      subst h
      refine ⟨_, if_neg hthere', fun k hk => ?_⟩
      rw [TextMap.get?_insert, TextMap.get?_insert, hagree k hk]
  | update =>
    obtain ⟨e, he, rfl⟩ := Option.map_eq_some_iff.1 h
    refine ⟨_, Option.map_eq_some_iff.2 ⟨e, hown.trans he, rfl⟩, fun k hk => ?_⟩
    rw [TextMap.get?_insert, TextMap.get?_insert, hagree k hk]
  | delete =>
    by_cases hthere : m.contains (Text.fold identifier) = true
    · have hthere' : n.contains (Text.fold identifier) = true := by
        rwa [TextMap.contains, hown]
      simp only [enact, if_pos hthere, Option.some.injEq] at h
      subst h
      refine ⟨_, if_pos hthere', fun k hk => ?_⟩
      rw [TextMap.get?_erase, TextMap.get?_erase, hagree k hk]
    · simp [enact, hthere] at h
  | rename =>
    obtain ⟨new, rfl, h⟩ := Option.bind_eq_some_iff.1 h
    have hnew : n.contains (Text.fold new) = m.contains (Text.fold new) := by
      rw [TextMap.contains, TextMap.contains, hagree _ (by simp [keys, aim?])]
    split at h
    · simp at h
    next hfree =>
      obtain ⟨e, he, rfl⟩ := Option.map_eq_some_iff.1 h
      rw [← hnew] at hfree
      refine ⟨_, by simp only [enact, Option.bind_some, if_neg hfree, hown, he]; rfl, ?_⟩
      intro k hk
      rw [TextMap.get?_insert, TextMap.get?_insert, TextMap.get?_erase, TextMap.get?_erase,
        hagree k hk]

lemma enact_eq_none_of_agree (h : c.enact m = none) (hagree : ∀ k ∈ c.keys, n.get? k = m.get? k) :
    c.enact n = none := by
  cases hn : c.enact n with
  | none => rfl
  | some n' =>
    obtain ⟨m', hm', -⟩ := exists_enact_of_agree hn fun k hk => (hagree k hk).symm
    rw [h] at hm'
    simp at hm'

end Change

/-! ## Stores -/

namespace MemoryStore

variable {s s' : MemoryStore} {c : Change} {now : Instant} {m : TextMap Entity}

/-- The entities of a store under their keys. -/
def records (s : MemoryStore) : TextMap Entity := s.entries.map (·.entity)

lemma entities_eq (s : MemoryStore) : s.entities = s.records.values := by
  simp [entities, records, TextMap.values, TextMap.map]

lemma mem_entities_iff {e : Entity} : e ∈ s.entities ↔ ∃ k, s.records.get? k = some e := by
  rw [entities_eq, TextMap.mem_values_iff]

lemma contains_records (s : MemoryStore) (k : String) :
    s.records.contains k = s.entries.contains k := by
  simp [records, TextMap.contains]

lemma records_insert (entries : TextMap StoredEntry) (k : String) (e : StoredEntry) :
    (entries.insert k e).map (·.entity) = (entries.map (·.entity)).insert k e.entity := by
  refine TextMap.ext_get? fun k' => ?_
  by_cases hk : k = k'
  · simp [hk]
  · simp [TextMap.get?_insert, hk]

lemma records_erase (entries : TextMap StoredEntry) (k : String) :
    (entries.erase k).map (·.entity) = (entries.map (·.entity)).erase k := by
  refine TextMap.ext_get? fun k' => ?_
  by_cases hk : k = k'
  · simp [hk]
  · simp [TextMap.get?_erase, hk]

/-- The entries after a change are those that the change makes of the entities. -/
lemma changeEntries_of_enact (now : Instant) {entries : TextMap StoredEntry}
    (h : c.enact (entries.map (·.entity)) = some m) :
    ∃ entries', changeEntries c now entries = .ok entries' ∧ entries'.map (·.entity) = m := by
  obtain ⟨modification, identifier, newIdentifier, operations⟩ := c
  cases modification with
  | create =>
    simp only [Change.enact, TextMap.contains, TextMap.get?_map, Option.isSome_map] at h
    split at h
    · simp at h
    next hfree =>
      obtain rfl := Option.some.inj h
      exact ⟨_, if_neg hfree, records_insert ..⟩
  | update =>
    obtain ⟨e, he, rfl⟩ := Option.map_eq_some_iff.1 h
    rw [TextMap.get?_map] at he
    obtain ⟨entry, hentry, rfl⟩ := Option.map_eq_some_iff.1 he
    exact ⟨_, by simp only [changeEntries, hentry]; rfl, records_insert ..⟩
  | delete =>
    simp only [Change.enact, TextMap.contains, TextMap.get?_map, Option.isSome_map] at h
    split at h
    next hthere =>
      obtain rfl := Option.some.inj h
      exact ⟨_, if_pos hthere, records_erase ..⟩
    · simp at h
  | rename =>
    obtain ⟨new, rfl, h⟩ := Option.bind_eq_some_iff.1 h
    simp only [TextMap.contains, TextMap.get?_map, Option.isSome_map] at h
    split at h
    · simp at h
    next hfree =>
      obtain ⟨e, he, rfl⟩ := Option.map_eq_some_iff.1 h
      obtain ⟨entry, hentry, rfl⟩ := Option.map_eq_some_iff.1 he
      refine ⟨_, by simp only [changeEntries, TextMap.contains, if_neg hfree, hentry]; rfl, ?_⟩
      rw [records_insert, records_erase]

lemma changeEntries_of_enact_eq_none (now : Instant) {entries : TextMap StoredEntry}
    (h : c.enact (entries.map (·.entity)) = none) :
    ∃ e, changeEntries c now entries = .error e ∧ e.isConnectionLost = false := by
  obtain ⟨modification, identifier, newIdentifier, operations⟩ := c
  cases modification with
  | create =>
    simp only [Change.enact, TextMap.contains, TextMap.get?_map, Option.isSome_map] at h
    split at h
    next hthere => exact ⟨_, if_pos hthere, rfl⟩
    · simp at h
  | update =>
    simp only [Change.enact, TextMap.get?_map, Option.map_map, Option.map_eq_none_iff] at h
    exact ⟨.objectNotFound identifier, by simp only [changeEntries, h], rfl⟩
  | delete =>
    simp only [Change.enact, TextMap.contains, TextMap.get?_map, Option.isSome_map] at h
    split at h
    · simp at h
    next hgone => exact ⟨_, if_neg hgone, rfl⟩
  | rename =>
    cases newIdentifier with
    | none => exact ⟨_, rfl, rfl⟩
    | some new =>
      simp only [Change.enact, Option.bind_some, TextMap.contains, TextMap.get?_map,
        Option.isSome_map] at h
      split at h
      next htaken => exact ⟨_, if_pos htaken, rfl⟩
      next hfree =>
        rw [Option.map_map, Option.map_eq_none_iff] at h
        refine ⟨.objectNotFound identifier, ?_, rfl⟩
        simp only [changeEntries, TextMap.contains, if_neg hfree, h]

/-- A change that is not refused is applied, and touches nothing but the entries. -/
lemma apply_of_enact (now : Instant) (hlost : s.connectionLost = false)
    (h : c.enact s.records = some m) :
    ∃ entries, s.apply c now = .ok { s with entries := entries, applied := s.applied + 1 } ∧
      entries.map (·.entity) = m := by
  obtain ⟨entries, hentries, hm⟩ := changeEntries_of_enact now h
  refine ⟨entries, ?_, hm⟩
  simp [apply, applyAt, checkConnection, hlost, hentries, bind, Except.bind, pure, Except.pure]

lemma apply_of_enact_eq_none (now : Instant) (hlost : s.connectionLost = false)
    (h : c.enact s.records = none) :
    ∃ e, s.apply c now = .error e ∧ e.isConnectionLost = false := by
  obtain ⟨e, he, hkind⟩ := changeEntries_of_enact_eq_none now h
  refine ⟨e, ?_, hkind⟩
  simp [apply, applyAt, checkConnection, hlost, he, bind, Except.bind]

lemma connectionLost_of_apply (h : s.apply c now = .ok s') : s.connectionLost = false := by
  rw [← Bool.not_eq_true]
  intro hlost
  simp [apply, checkConnection, hlost, bind, Except.bind] at h

/-- The changes that a store takes are those that are not refused. -/
lemma enact_of_apply (h : s.apply c now = .ok s') : c.enact s.records = some s'.records := by
  have hlost := connectionLost_of_apply h
  cases henact : c.enact s.records with
  | none =>
    obtain ⟨e, he, -⟩ := apply_of_enact_eq_none now hlost henact
    simp [he] at h
  | some m =>
    obtain ⟨entries, hentries, hm⟩ := apply_of_enact now hlost henact
    rw [hentries] at h
    obtain rfl := Except.ok.inj h
    rw [← hm]
    rfl

/-! ## Fetching -/

/-- The first entry, in key order, that carries what the pivot asks for, with its key. -/
def found? (s : MemoryStore) (p : Pivot) : Option (String × Entity) :=
  s.records.entries.find? fun e => s.carries e.2 (s.wanted p)

/-- The key of the entry that a fetch finds. -/
def foundKey? (s : MemoryStore) (p : Pivot) : Option String := (s.found? p).map (·.1)

lemma fetch_eq (hlost : s.connectionLost = false) (p : Pivot) :
    s.fetch p = .ok ((s.found? p).map (·.2)) := by
  have hup : s.checkConnection = .ok () := by simp [checkConnection, hlost]
  simp only [fetch, hup, entities_eq, found?, TextMap.values, List.find?_map]
  rfl

lemma map_found?_of_fetch {p : Pivot} {d : Option Entity} (h : s.fetch p = .ok d) :
    (s.found? p).map (·.2) = d := by
  have hlost : s.connectionLost = false := by
    rw [← Bool.not_eq_true]
    intro hlost
    simp [fetch, checkConnection, hlost, bind, Except.bind] at h
  rw [fetch_eq hlost] at h
  exact Except.ok.inj h

lemma found?_eq_none_of_fetch {p : Pivot} (h : s.fetch p = .ok none) : s.found? p = none :=
  Option.map_eq_none_iff.1 (map_found?_of_fetch h)

lemma found?_of_fetch {p : Pivot} {e : Entity} (h : s.fetch p = .ok (some e)) :
    ∃ k, s.found? p = some (k, e) := by
  obtain ⟨⟨k, e'⟩, hfound, rfl⟩ := Option.map_eq_some_iff.1 (map_found?_of_fetch h)
  exact ⟨k, hfound⟩

lemma get?_of_found? {p : Pivot} {k : String} {e : Entity} (h : s.found? p = some (k, e)) :
    s.records.get? k = some e :=
  (TextMap.mem_entries_iff _).1 (List.mem_of_find?_eq_some h)

lemma carries_of_found? {p : Pivot} {k : String} {e : Entity} (h : s.found? p = some (k, e)) :
    s.carries e (s.wanted p) = true := by
  simpa using List.find?_some h

/-! ## Listing -/

/-- The pivot of an entry with its text. -/
def pivotFor (s : MemoryStore) (id v : String) : Pivot :=
  (Pivot.ofId id).withAttribute s.pivotAttribute v

/-- A listed pivot asks every store for the text that it was listed with. -/
lemma wanted_pivotFor (id v : String) : s'.wanted (s.pivotFor id v) = v := by
  have hentries : (s.pivotFor id v).attributes.entries = [(s.pivotAttribute, v)] := rfl
  have hattribute : (s.pivotFor id v).attribute? s'.pivotAttribute =
      if Text.sameFolded s.pivotAttribute s'.pivotAttribute then some v else none := by
    simp only [Pivot.attribute?, hentries, List.find?_cons, List.find?_nil]
    cases Text.sameFolded s.pivotAttribute s'.pivotAttribute <;> rfl
  rw [wanted, hattribute]
  cases Text.sameFolded s.pivotAttribute s'.pivotAttribute <;>
    simp [TextMap.values, hentries]

lemma pivotOf?_eq_some_iff {e : Entity} {p : Pivot} :
    s.pivotOf? e = some p ↔
      ∃ v, e.first? s.pivotAttribute = some v ∧ p = s.pivotFor (e.identifier.getD v) v := by
  rw [pivotOf?, Option.map_eq_some_iff]
  exact exists_congr fun v => and_congr_right fun _ => eq_comm

lemma mem_values_of_first? {e : Entity} {name v : String} (h : e.first? name = some v) :
    v ∈ e.values name := by
  obtain ⟨a, ha, hfirst⟩ := Option.bind_eq_some_iff.1 h
  rw [Entity.values, ha]
  exact List.mem_of_mem_head? hfirst

/-- An entity carries its first pivot value. -/
lemma carries_of_first? {e : Entity} {v : String} (h : e.first? s.pivotAttribute = some v) :
    s.carries e v = true :=
  List.any_eq_true.2 ⟨v, mem_values_of_first? h, Text.sameFolded_self v⟩

/-- The pivots of a store, in the order of its entries. -/
def pivots (s : MemoryStore) : List Pivot := s.entities.filterMap s.pivotOf?

/-- Listing orders the pivots. -/
lemma exists_list (hlost : s.connectionLost = false) :
    ∃ listed, s.list = .ok listed ∧ listed.Perm s.pivots := by
  refine ⟨s.orderedPivots s.entities, ?_, ?_⟩
  · simp [list, checkConnection, hlost, bind, Except.bind, pure, Except.pure]
  · have hkeyed : (s.entities.filterMap fun e => (s.pivotOf? e).map (depth e, ·)).map (·.2) =
        s.pivots := by
      rw [pivots, List.map_filterMap]
      refine List.filterMap_congr fun e _ => ?_
      cases s.pivotOf? e <;> rfl
    rw [← hkeyed]
    exact (List.mergeSort_perm ..).map _

lemma mem_orderedPivots {es : List StoredEntry} {p : Pivot} :
    p ∈ s.orderedPivots (es.map (·.entity)) ↔ ∃ entry ∈ es, s.pivotOf? entry.entity = some p := by
  simp only [orderedPivots, List.mem_map, List.mem_mergeSort, List.mem_filterMap,
    Option.map_eq_some_iff]
  constructor
  · rintro ⟨-, ⟨-, ⟨entry, hentry, rfl⟩, q, hq, rfl⟩, rfl⟩
    exact ⟨entry, hentry, hq⟩
  · rintro ⟨entry, hentry, hp⟩
    exact ⟨(depth entry.entity, p), ⟨entry.entity, ⟨entry, hentry, rfl⟩, p, hp, rfl⟩, rfl⟩

lemma mem_list_iff {batch : List Pivot} (h : s.list = .ok batch) {p : Pivot} :
    p ∈ batch ↔ ∃ k entry, s.entries.get? k = some entry ∧ s.pivotOf? entry.entity = some p := by
  have hbatch : batch = s.orderedPivots (s.entries.values.map (·.entity)) := by
    unfold list at h
    cases hconnection : s.checkConnection with
    | error e => simp [hconnection, bind, Except.bind] at h
    | ok u => simpa [hconnection, entities, bind, Except.bind, pure, Except.pure, eq_comm] using h
  rw [hbatch, mem_orderedPivots]
  constructor
  · rintro ⟨entry, hentry, hp⟩
    obtain ⟨k, hget⟩ := TextMap.mem_values_iff.1 hentry
    exact ⟨k, entry, hget, hp⟩
  · rintro ⟨k, entry, hget, hp⟩
    exact ⟨entry, TextMap.mem_values_iff.2 ⟨k, hget⟩, hp⟩

/-! ## Stores that come about -/

/-- The stores that come about from an empty one by insertions and applied changes. -/
inductive Reachable : MemoryStore → Prop
  | empty {s : MemoryStore} (h : s.entries = ∅) : Reachable s
  | insert {s s' : MemoryStore} {e : Entity} {time : Instant} (hs : Reachable s)
      (h : s.insertAt e time = .ok s') : Reachable s'
  | apply {s s' : MemoryStore} {c : Change} {now : Instant} (hs : Reachable s)
      (h : s.apply c now = .ok s') : Reachable s'

/-- The stores that come about from an empty one by insertions. -/
inductive Filled : MemoryStore → Prop
  | empty {s : MemoryStore} (h : s.entries = ∅) : Filled s
  | insert {s s' : MemoryStore} {e : Entity} {time : Instant} (hs : Filled s)
      (h : s.insertAt e time = .ok s') : Filled s'

lemma Filled.reachable (h : Filled s) : Reachable s := by
  induction h with
  | empty h => exact .empty h
  | insert _ h ih => exact .insert ih h

/-- Insert entries one after the other; one that has no key is left out. -/
def insertAll (s : MemoryStore) (es : List (Entity × Instant)) : MemoryStore :=
  es.foldl (fun s e => (s.insertAt e.1 e.2).toOption.getD s) s

lemma Filled.insertAll (hs : Filled s) (es : List (Entity × Instant)) :
    Filled (s.insertAll es) := by
  induction es generalizing s with
  | nil => exact hs
  | cons e rest ih =>
    refine ih ?_
    show Filled ((s.insertAt e.1 e.2).toOption.getD s)
    cases h : s.insertAt e.1 e.2 with
    | ok s' => exact .insert hs h
    | error _ => exact hs

/-- In a store that was only filled, every entity stands under its key. -/
lemma Filled.entryKey? (h : Filled s) {k : String} {e : Entity} (hget : s.records.get? k = some e) :
    s.entryKey? e = some k := by
  induction h generalizing k e with
  | empty h => simp [records, h] at hget
  | @insert s s' e' time _ h ih =>
    unfold insertAt at h
    split at h
    next key hkey =>
      obtain rfl := Except.ok.inj h
      simp only [records, records_insert, TextMap.get?_insert] at hget
      split at hget
      next heq =>
        obtain rfl := Option.some.inj hget
        rw [← heq]
        exact hkey
      · exact ih hget
    · simp at h

/-- Whoever has an identifier stands under the folded identifier. -/
def Keyed (m : TextMap Entity) : Prop :=
  ∀ k e id, m.get? k = some e → e.identifier = some id → k = Text.fold id

lemma Keyed.insert {k : String} {e : Entity} (h : Keyed m)
    (he : ∀ id, e.identifier = some id → k = Text.fold id) : Keyed (m.insert k e) := by
  intro k' e' id hget hid
  rw [TextMap.get?_insert] at hget
  split at hget
  next heq =>
    obtain rfl := Option.some.inj hget
    rw [← heq]
    exact he id hid
  · exact h k' e' id hget hid

lemma Keyed.erase (h : Keyed m) (k : String) : Keyed (m.erase k) := by
  intro k' e' id hget hid
  rw [TextMap.get?_erase] at hget
  split at hget
  · simp at hget
  · exact h k' e' id hget hid

/-- Changes keep entries under their folded identifiers. -/
lemma Keyed.enact {m' : TextMap Entity} (h : Keyed m) (henact : c.enact m = some m') :
    Keyed m' := by
  obtain ⟨modification, identifier, newIdentifier, operations⟩ := c
  cases modification with
  | create =>
    simp only [Change.enact] at henact
    split at henact
    · simp at henact
    · obtain rfl := Option.some.inj henact
      refine h.insert fun id hid => ?_
      rw [Change.identifier_applyTo] at hid
      rw [← Option.some.inj hid]
  | update =>
    obtain ⟨e, he, rfl⟩ := Option.map_eq_some_iff.1 henact
    refine h.insert fun id hid => ?_
    rw [Change.identifier_applyTo] at hid
    exact h _ e id he hid
  | delete =>
    simp only [Change.enact] at henact
    split at henact
    · obtain rfl := Option.some.inj henact
      exact h.erase _
    · simp at henact
  | rename =>
    obtain ⟨new, rfl, henact⟩ := Option.bind_eq_some_iff.1 henact
    split at henact
    · simp at henact
    · obtain ⟨e, -, rfl⟩ := Option.map_eq_some_iff.1 henact
      refine (h.erase _).insert fun id hid => ?_
      rw [← Option.some.inj hid]

lemma Keyed.insertAt {e : Entity} {time : Instant} (h : Keyed s.records)
    (hinsert : s.insertAt e time = .ok s') : Keyed s'.records := by
  unfold MemoryStore.insertAt at hinsert
  split at hinsert
  next key hkey =>
    obtain rfl := Except.ok.inj hinsert
    show Keyed (TextMap.map (fun entry : StoredEntry => entry.entity) _)
    rw [records_insert]
    refine Keyed.insert h fun id hid => ?_
    have hid : e.identifier = some id := hid
    simpa [entryKey?, hid, eq_comm] using hkey
  · simp at hinsert

lemma keyed_of_empty (h : s.entries = ∅) : Keyed s.records := by
  intro k e id hget
  simp [records, h] at hget

theorem Reachable.keyed (h : Reachable s) : Keyed s.records := by
  induction h with
  | empty h => exact keyed_of_empty h
  | insert _ h ih => exact ih.insertAt h
  | apply _ h ih => exact Keyed.enact ih (enact_of_apply h)

end MemoryStore

end StoreSync
