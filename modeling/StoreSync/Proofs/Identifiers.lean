import Mathlib.Data.Finset.Card
import StoreSync.Proofs.Errands

/-!
# Entries under their identifiers

A memory store finds an entry by its identifier in one look-up, although the keys of its entries
come from different places: from the identifier of what is inserted or else from its first pivot
value, and from the identifiers that changes name.

* `MemoryStore.Edit` is what can be done to a store, and `MemoryStore.edit` what it leaves of the
  store, also if it fails: a load keeps what it has inserted before the failing record, and a
  change is carried out in place (`MemoryStore.perform`);
* `MemoryStore.Keyed.edit` is one edit, `MemoryStore.Keyed.foldl_edit` any number of them;
* `MemoryStore.indexed_foldl_edit` says what this means for look-ups and for the number of entries
  (`MemoryStore.Indexed`).
-/

namespace StoreSync

namespace MemoryStore

variable {s s' : MemoryStore}

/-! ## Edits -/

/-- What is done to a store. -/
inductive Edit where
  | insert (e : Entity) (time : Instant)
  /-- Load a data file, which may be no array of records (`MemoryStore.load`). -/
  | load (schema : EntitySchema) (now : Instant) (records : Option Json)
  | apply (c : Change) (now : Instant)
  /-- The connection goes, or comes back. -/
  | connection (lost : Bool)

/-- What an edit leaves of the store, whether it fails or not. -/
def edit (s : MemoryStore) : Edit → MemoryStore
  | .insert e time => (s.insertAt e time).toOption.getD s
  | .load schema now records => (s.load schema now records).1
  | .apply c now => ((perform c now).run s).2
  | .connection lost => { s with connectionLost := lost }

lemma edit_apply (s : MemoryStore) (c : Change) (now : Instant) :
    s.edit (.apply c now) = (s.apply c now).toOption.getD s := by
  simp only [edit, run_perform]
  cases s.apply c now <;> rfl

/-! ## Keys -/

lemma Keyed.loadRecords {schema : EntitySchema} {now : Instant} (h : Keyed s.records)
    (records : List Json) : Keyed (s.loadRecords schema now records).1.records := by
  induction records generalizing s with
  | nil => exact h
  | cons record rest ih =>
    simp only [MemoryStore.loadRecords]
    split
    next => exact h
    next s₁ hread =>
      cases hmap : schema.mapRecord record with
      | error err => simp [hmap, bind, Except.bind] at hread
      | ok e => exact ih (h.insertAt (by simpa [hmap, bind, Except.bind] using hread))

/-- An edit keeps every entry with an identifier under the folded identifier. -/
lemma Keyed.edit (h : Keyed s.records) (a : Edit) : Keyed (s.edit a).records := by
  cases a with
  | insert e time =>
    cases hinsert : s.insertAt e time with
    | error err => simpa [MemoryStore.edit, hinsert, Except.toOption] using h
    | ok s' => simpa [MemoryStore.edit, hinsert, Except.toOption] using h.insertAt hinsert
  | load schema now records =>
    simp only [MemoryStore.edit, load]
    split
    · exact h.loadRecords _
    · exact h
  | apply c now =>
    rw [edit_apply]
    cases happly : s.apply c now with
    | error err => exact h
    | ok s' => exact Keyed.enact h (enact_of_apply happly)
  | connection lost => exact h

lemma Keyed.foldl_edit (h : Keyed s.records) (edits : List Edit) :
    Keyed (edits.foldl MemoryStore.edit s).records := by
  induction edits generalizing s with
  | nil => exact h
  | cons a rest ih => exact ih (h.edit a)

/-! ## Look-ups -/

/-- The folded identifiers of the entries, in key order. -/
def foldedIdentifiers (s : MemoryStore) : List String :=
  s.entities.filterMap fun e => e.identifier.map Text.fold

/-- A store that finds its entries by their identifiers. -/
structure Indexed (s : MemoryStore) : Prop where
  /-- An entry with an identifier stands under the folded identifier. -/
  keyed : ∀ k entry id, s.entries.get? k = some entry → entry.entity.identifier = some id →
    k = Text.fold id
  /-- An identifier that is held is answered with the entity that holds it, in any casing that
  folds alike. -/
  found : ∀ e ∈ s.entities, ∀ id id', e.identifier = some id → Text.fold id' = Text.fold id →
    s.get? id' = some e
  /-- No two entries have identifiers that fold alike. -/
  distinct : ∀ k k' entry entry' id id', s.entries.get? k = some entry →
    s.entries.get? k' = some entry' → entry.entity.identifier = some id →
    entry'.entity.identifier = some id' → Text.fold id = Text.fold id' → k = k'
  /-- There are as many entries with an identifier as there are folded identifiers. -/
  count : s.entities.countP (·.identifier.isSome) = s.foldedIdentifiers.toFinset.card

lemma get?_eq (s : MemoryStore) (id : String) : s.get? id = s.records.get? (Text.fold id) := by
  simp [get?, records]

/-- Folded identifiers ascend like the keys, which they are. -/
lemma Keyed.foldedIdentifiers_pairwise (h : Keyed s.records) :
    s.foldedIdentifiers.Pairwise (· < ·) := by
  rw [foldedIdentifiers, entities_eq, TextMap.values, List.filterMap_map, List.pairwise_filterMap]
  refine s.records.ascending.imp_of_mem fun {a b} ha hb hlt k hk k' hk' => ?_
  obtain ⟨id, hid, rfl⟩ := Option.map_eq_some_iff.1 hk
  obtain ⟨id', hid', rfl⟩ := Option.map_eq_some_iff.1 hk'
  rw [← h _ _ _ ((TextMap.mem_entries_iff _).1 ha) hid,
    ← h _ _ _ ((TextMap.mem_entries_iff _).1 hb) hid']
  exact hlt

lemma length_foldedIdentifiers (s : MemoryStore) :
    s.foldedIdentifiers.length = s.entities.countP (·.identifier.isSome) := by
  simp [foldedIdentifiers, List.length_filterMap_eq_countP]

lemma Keyed.indexed (h : Keyed s.records) : s.Indexed := by
  have hkeyed : ∀ k entry id, s.entries.get? k = some entry →
      entry.entity.identifier = some id → k = Text.fold id := by
    intro k entry id hget hid
    exact h k entry.entity id (by simp [records, hget]) hid
  refine ⟨hkeyed, ?found, ?distinct, ?count⟩
  case found =>
    intro e he id id' hid hfold
    obtain ⟨k, hget⟩ := mem_entities_iff.1 he
    rw [get?_eq, hfold, ← h k e id hget hid, hget]
  case distinct =>
    intro k k' entry entry' id id' hget hget' hid hid' hfold
    rw [hkeyed k entry id hget hid, hkeyed k' entry' id' hget' hid', hfold]
  case count =>
    have hnodup : s.foldedIdentifiers.Nodup := by
      refine h.foldedIdentifiers_pairwise.imp fun {a b} hlt heq => ?_
      exact String.lt_irrefl b (heq ▸ hlt)
    rw [List.toFinset_card_of_nodup hnodup, length_foldedIdentifiers]

/-- **A store finds its entries by their identifiers**, whatever is done to it from its being
empty on: with successes and failures in any order, records that take the place of others, and
changes of any kind. -/
theorem indexed_foldl_edit (h : s.entries = ∅) (edits : List Edit) :
    (edits.foldl edit s).Indexed :=
  ((keyed_of_empty h).foldl_edit edits).indexed

/-! ### A directory that is edited -/

/-- The schema of the data files. -/
def badgeSchema : EntitySchema := ⟨"badge", some "dn", [⟨"uid", .string⟩]⟩

/-- Somebody without identifier is inserted, then somebody with an identifier that folds to the
same key.  A data file is loaded up to its second record, which is no object.  An entry is renamed
to an identifier that folds to another key, and its old identifier is taken anew; the new one, in
another casing, is not free.  Nothing is deleted while the connection is gone. -/
def badgeEdits : List Edit :=
  [.insert (Entity.anonymous.put "uid" [.string "ΟΔΟΣ"]) ⟨0⟩,
    .insert (.named "ΟΔΟΣ") ⟨1⟩,
    .load badgeSchema ⟨2⟩ (some (.array
      [.members [("dn", .string "CN=A"), ("uid", .string "1")], .null,
        .members [("dn", .string "CN=Z")]])),
    .apply (.rename "cn=a" "CN=B") ⟨3⟩,
    .apply (.create "cn=A" []) ⟨4⟩,
    .apply (.create "cn=b" []) ⟨5⟩,
    .connection true,
    .apply (.delete "cn=b") ⟨6⟩]

/-- Three entries are left, each under its folded identifier and found in any casing. -/
theorem indexed_badgeEdits :
    (MemoryStore.new "ldap" "uid").entries = ∅ ∧
    (badgeEdits.foldl edit (.new "ldap" "uid")).entries.keys = ["cn=a", "cn=b", "οδος"] ∧
    (badgeEdits.foldl edit (.new "ldap" "uid")).get? "cN=b" =
      some ((Entity.named "CN=B").put "uid" [.string "1"]) ∧
    (badgeEdits.foldl edit (.new "ldap" "uid")).get? "οΔΟΣ" = some (.named "ΟΔΟΣ") ∧
    (badgeEdits.foldl edit (.new "ldap" "uid")).Indexed :=
  ⟨rfl, by decide +kernel, by decide +kernel, by decide +kernel,
    indexed_foldl_edit rfl badgeEdits⟩

end MemoryStore

end StoreSync
