import Mathlib.Data.List.Forall2
import StoreSync.Proofs.Records

/-!
# Stores in files

A memory store is saved as the array of the records of its entries, without their keys, and loaded
by inserting one entity after the other: a record is either `MemoryStore.Placed` under the key of
its entity or `MemoryStore.Refused`, which ends the load.  The entries of a store that is
`MemoryStore.Filed` stand under the keys that loading would give them; loading leaves such a store,
and a change keeps it such that does not update an entry without identifier
(`MemoryStore.Filed.apply`).  What was saved of it is loaded with the same entries under the same
keys if the schema holds them (`MemoryStore.exists_load_toRecords`), and not at all if one of them
has an attribute that the schema does not declare (`MemoryStore.exists_error_load_toRecords`).
-/

namespace StoreSync

namespace MemoryStore

variable {s s' : MemoryStore} {c : Change} {schema : EntitySchema} {now : Instant}

/-- Every entry stands under its key and is as changes leave it. -/
structure Filed (s : MemoryStore) : Prop where
  key : ∀ k e, s.records.get? k = some e → s.entryKey? e = some k
  proper : ∀ k e, s.records.get? k = some e → e.Proper

/-- The same entries, under the same keys. -/
def Same (s s' : MemoryStore) : Prop :=
  ∀ k, Option.Rel Entity.Same (s.records.get? k) (s'.records.get? k)

lemma same_of_records (h : s'.records = s.records) : s.Same s' := by
  intro k
  rw [h]
  cases s.records.get? k with
  | none => exact .none
  | some e => exact .some ⟨rfl, fun _ => rfl⟩

lemma filed_of_empty (h : s.entries = ∅) : s.Filed := by
  have hnone : ∀ k, s.records.get? k = none := fun k => by simp [records, h]
  exact ⟨fun k e hget => by simp [hnone] at hget, fun k e hget => by simp [hnone] at hget⟩

lemma entryKey?_congr (h : s'.pivotAttribute = s.pivotAttribute) (e : Entity) :
    s'.entryKey? e = s.entryKey? e := by
  rw [entryKey?, h]
  rfl

lemma first?_eq_head? (e : Entity) (name : String) : e.first? name = (e.values name).head? := by
  rw [Entity.first?, Entity.values]
  cases e.attribute? name <;> rfl

lemma entryKey?_of_same {e e' : Entity} (h : e.Same e') : s.entryKey? e' = s.entryKey? e := by
  rw [entryKey?, entryKey?, first?_eq_head?, first?_eq_head?, h.identifier, h.values]

/-- The store after an insertion. -/
lemma insertAt_of_entryKey? {e : Entity} {k : String} (hkey : s.entryKey? e = some k)
    (time : Instant) :
    s.insertAt e time = .ok { s with entries := s.entries.insert k ⟨e, time⟩ } := by
  rw [insertAt, hkey]

lemma get?_records_insert (s : MemoryStore) (k k' : String) (entry : StoredEntry) :
    ({ s with entries := s.entries.insert k entry }).records.get? k' =
      if k = k' then some entry.entity else s.records.get? k' := by
  simp only [records, TextMap.get?_map, TextMap.get?_insert]
  split <;> rfl

/-! ## Loading one record -/

/-- A record is mapped, and what it is mapped to has a key and gets the time. -/
structure Placed (s : MemoryStore) (schema : EntitySchema) (now : Instant) (record : Json)
    (p : String × StoredEntry) : Prop where
  mapped : schema.mapRecord record = .ok p.2.entity
  key : s.entryKey? p.2.entity = some p.1
  time : p.2.modifiedAt = now

/-- A record is not mapped, or to an entity without a key. -/
inductive Refused (s : MemoryStore) (schema : EntitySchema) (record : Json) : StoreError → Prop
  | unmapped {err : StoreError} (h : schema.mapRecord record = .error err) :
      Refused s schema record err
  | keyless {e : Entity} (h : schema.mapRecord record = .ok e) (hkey : s.entryKey? e = none) :
      Refused s schema record
        (.invalidData ("entry has neither identifier nor '" ++ s.pivotAttribute ++ "'"))

/-- Put entries under their keys, one after the other. -/
def overlay (s : MemoryStore) (placed : List (String × StoredEntry)) : MemoryStore :=
  { s with entries := placed.foldl (fun m p => m.insert p.1 p.2) s.entries }

lemma Placed.congr {record : Json} {p : String × StoredEntry}
    (h : s'.Placed schema now record p) (hpivot : s'.pivotAttribute = s.pivotAttribute) :
    s.Placed schema now record p :=
  ⟨h.mapped, (entryKey?_congr hpivot _).symm.trans h.key, h.time⟩

lemma Refused.congr {record : Json} {err : StoreError} (h : s'.Refused schema record err)
    (hpivot : s'.pivotAttribute = s.pivotAttribute) : s.Refused schema record err := by
  cases h with
  | unmapped h => exact .unmapped h
  | keyless h hkey =>
    rw [hpivot]
    exact .keyless h ((entryKey?_congr hpivot _).symm.trans hkey)

lemma placed_or_refused (s : MemoryStore) (schema : EntitySchema) (now : Instant)
    (record : Json) :
    (∃ p, s.Placed schema now record p) ∨ ∃ err, s.Refused schema record err := by
  cases hread : schema.mapRecord record with
  | error err => exact Or.inr ⟨err, .unmapped hread⟩
  | ok e =>
    cases hkey : s.entryKey? e with
    | none => exact Or.inr ⟨_, .keyless hread hkey⟩
    | some k => exact Or.inl ⟨(k, ⟨e, now⟩), hread, hkey, rfl⟩

lemma Placed.insertAt {record : Json} {p : String × StoredEntry}
    (h : s.Placed schema now record p) : s.insertAt p.2.entity now = .ok (s.overlay [p]) := by
  rw [insertAt_of_entryKey? h.key, ← h.time]
  rfl

/-- A record that is placed is put under its key, and the load goes on. -/
lemma Placed.loadRecords {record : Json} {p : String × StoredEntry}
    (h : s.Placed schema now record p) (rest : List Json) :
    s.loadRecords schema now (record :: rest) =
      (((s.overlay [p]).loadRecords schema now rest).1,
        ((s.overlay [p]).loadRecords schema now rest).2.map (· + 1)) := by
  simp only [MemoryStore.loadRecords, h.mapped, bind, Except.bind, h.insertAt]

/-- A load stops where a record is refused. -/
lemma Refused.loadRecords {record : Json} {err : StoreError} (h : s.Refused schema record err)
    (rest : List Json) : s.loadRecords schema now (record :: rest) = (s, .error err) := by
  cases h with
  | unmapped h => simp [MemoryStore.loadRecords, h, bind, Except.bind]
  | keyless h hkey => simp [MemoryStore.loadRecords, h, insertAt, hkey, bind, Except.bind]

/-! ## What is loaded -/

lemma Filed.insertAt (h : s.Filed) {e : Entity} {time : Instant} (hproper : e.Proper)
    (hinsert : s.insertAt e time = .ok s') : s'.Filed := by
  cases hkey : s.entryKey? e with
  | none => simp [MemoryStore.insertAt, hkey] at hinsert
  | some key =>
    rw [insertAt_of_entryKey? hkey] at hinsert
    obtain rfl := Except.ok.inj hinsert
    refine ⟨fun k e' hget => ?_, fun k e' hget => ?_⟩
    · rw [get?_records_insert] at hget
      split at hget
      next heq =>
        obtain rfl := Option.some.inj hget
        exact heq ▸ hkey
      · exact h.key k e' hget
    · rw [get?_records_insert] at hget
      split at hget
      · obtain rfl := Option.some.inj hget
        exact hproper
      · exact h.proper k e' hget

/-- What is loaded is filed. -/
lemma Filed.loadRecords (h : s.Filed) (records : List Json) :
    (s.loadRecords schema now records).1.Filed ∧
      (s.loadRecords schema now records).1.pivotAttribute = s.pivotAttribute := by
  induction records generalizing s with
  | nil => exact ⟨h, rfl⟩
  | cons record rest ih =>
    rcases s.placed_or_refused schema now record with ⟨p, hp⟩ | ⟨err, hrefused⟩
    · rw [hp.loadRecords]
      exact ih (h.insertAt (EntitySchema.proper_of_mapRecord hp.mapped) hp.insertAt)
    · rw [hrefused.loadRecords]
      exact ⟨h, rfl⟩

lemma Filed.load (h : s.Filed) (records : Option Json) :
    (s.load schema now records).1.Filed ∧
      (s.load schema now records).1.pivotAttribute = s.pivotAttribute := by
  unfold MemoryStore.load
  split
  · exact h.loadRecords _
  · exact ⟨h, rfl⟩

lemma Filed.keyed (h : s.Filed) : Keyed s.records := by
  intro k e id hget hid
  have hkey := h.key k e hget
  simpa [entryKey?, hid, eq_comm] using hkey

/-- Nothing without identifier is updated. -/
def Spares (s : MemoryStore) (c : Change) : Prop :=
  c.modification = .update →
    ∀ e, s.records.get? (Text.fold c.identifier) = some e → e.identifier.isSome = true

/-- What a change that spares the entries without identifier leaves under its keys. -/
lemma identifier_of_leaves {e : Entity} (hspares : s.Spares c)
    (hnew : c.modification = .rename → c.newIdentifier.isSome = true)
    (h : c.leaves (s.records.get? (Text.fold c.identifier)) = some e) :
    e.identifier.isSome = true := by
  cases hmodification : c.modification with
  | create =>
    simp only [Change.leaves, hmodification, Option.some.injEq] at h
    rw [← h, Change.identifier_applyTo]
    rfl
  | update =>
    simp only [Change.leaves, hmodification] at h
    obtain ⟨old, hold, rfl⟩ := Option.map_eq_some_iff.1 h
    rw [Change.identifier_applyTo]
    exact hspares hmodification old hold
  | delete => simp [Change.leaves, hmodification] at h
  | rename =>
    simp only [Change.leaves, hmodification] at h
    obtain ⟨old, -, rfl⟩ := Option.map_eq_some_iff.1 h
    exact hnew hmodification

lemma proper_of_leaves {e : Entity} (hproper : ∀ k e, s.records.get? k = some e → e.Proper)
    (h : c.leaves (s.records.get? (Text.fold c.identifier)) = some e) : e.Proper := by
  cases hmodification : c.modification with
  | create =>
    simp only [Change.leaves, hmodification, Option.some.injEq] at h
    rw [← h]
    exact Entity.Proper.applyOperations (Entity.proper_of_empty rfl) _
  | update =>
    simp only [Change.leaves, hmodification] at h
    obtain ⟨old, hold, rfl⟩ := Option.map_eq_some_iff.1 h
    exact (hproper _ old hold).applyOperations _
  | delete => simp [Change.leaves, hmodification] at h
  | rename =>
    simp only [Change.leaves, hmodification] at h
    obtain ⟨old, hold, rfl⟩ := Option.map_eq_some_iff.1 h
    exact hproper _ old hold

lemma rest_of_apply (h : s.apply c now = .ok s') :
    ∃ entries n, s' = { s with entries := entries, applied := n } := by
  obtain ⟨entries, happly, -⟩ :=
    apply_of_enact now (connectionLost_of_apply h) (enact_of_apply h)
  exact ⟨entries, s.applied + 1, Except.ok.inj (h.symm.trans happly)⟩

/-- What a change that spares the entries without identifier leaves under its keys has one. -/
lemma isSome_identifier_of_apply (hspares : s.Spares c) (happly : s.apply c now = .ok s')
    {k : String} (hk : k ∈ c.keys) {e : Entity} (hget : s'.records.get? k = some e) :
    e.identifier.isSome = true := by
  have henact := enact_of_apply happly
  refine identifier_of_leaves hspares (fun hrename => ?_)
    (Change.leaves_of_get?_enact henact hk hget)
  rw [Change.enact, hrename] at henact
  obtain ⟨new, hnew, -⟩ := Option.bind_eq_some_iff.1 henact
  simp [hnew]

/-- A change that spares the entries without identifier keeps a store filed. -/
lemma Filed.apply (h : s.Filed) (hspares : s.Spares c) (happly : s.apply c now = .ok s') :
    s'.Filed := by
  have henact := enact_of_apply happly
  have hkeyed := h.keyed.enact henact
  have hpivot : s'.pivotAttribute = s.pivotAttribute := by
    obtain ⟨entries, n, rfl⟩ := rest_of_apply happly
    rfl
  refine ⟨fun k e hget => ?_, fun k e hget => ?_⟩
  · rw [entryKey?_congr hpivot]
    by_cases hk : k ∈ c.keys
    · obtain ⟨id, hid⟩ :=
        Option.isSome_iff_exists.1 (isSome_identifier_of_apply hspares happly hk hget)
      simp [entryKey?, hid, hkeyed k e id hget hid]
    · rw [Change.get?_enact_of_notMem henact hk] at hget
      exact h.key k e hget
  · by_cases hk : k ∈ c.keys
    · exact proper_of_leaves h.proper (Change.leaves_of_get?_enact henact hk hget)
    · rw [Change.get?_enact_of_notMem henact hk] at hget
      exact h.proper k e hget

/-- Such a change does not stand in the way of another. -/
lemma Spares.apply {c' : Change} (h : s.Spares c') (hspares : s.Spares c)
    (happly : s.apply c now = .ok s') : s'.Spares c' := by
  intro hupdate e hget
  by_cases hk : Text.fold c'.identifier ∈ c.keys
  · exact isSome_identifier_of_apply hspares happly hk hget
  · rw [Change.get?_enact_of_notMem (enact_of_apply happly) hk] at hget
    exact h hupdate e hget

/-! ## Loading what was saved -/

/-- Records of entities that the schema holds are loaded one after the other, each under its
key. -/
lemma exists_loadRecords (schema : EntitySchema) (now : Instant)
    {entries : List (String × Entity)}
    (hascending : entries.Pairwise fun a b => a.1 < b.1)
    (hentries : ∀ a ∈ entries, s.entryKey? a.2 = some a.1 ∧ a.2.Proper ∧
      schema.holds a.2 = true) :
    ∃ s' n, s.loadRecords schema now (entries.map (schema.toRecord ·.2)) = (s', .ok n) ∧
      (∀ k, (∀ a ∈ entries, a.1 ≠ k) → s'.records.get? k = s.records.get? k) ∧
      ∀ a ∈ entries, ∃ e', s'.records.get? a.1 = some e' ∧ a.2.Same e' := by
  induction entries generalizing s with
  | nil => exact ⟨s, 0, rfl, fun k _ => rfl, by simp⟩
  | cons a rest ih =>
    obtain ⟨hhead, htail⟩ := List.pairwise_cons.1 hascending
    obtain ⟨hkey, hproper, hholds⟩ := hentries a List.mem_cons_self
    obtain ⟨e', hread, hsame⟩ := EntitySchema.exists_mapRecord_toRecord hproper hholds
    have hkey' : s.entryKey? e' = some a.1 := (entryKey?_of_same hsame).trans hkey
    have hp : s.Placed schema now (schema.toRecord a.2) (a.1, ⟨e', now⟩) := ⟨hread, hkey', rfl⟩
    obtain ⟨s', n, hload, hframe, hloaded⟩ :=
      ih (s := { s with entries := s.entries.insert a.1 ⟨e', now⟩ }) htail
        fun b hb => hentries b (List.mem_cons_of_mem _ hb)
    refine ⟨s', n + 1, ?_, fun k hk => ?_, fun b hb => ?_⟩
    · rw [List.map_cons, hp.loadRecords, overlay, List.foldl_cons, List.foldl_nil, hload]
      rfl
    · rw [hframe k fun b hb => hk b (List.mem_cons_of_mem _ hb), get?_records_insert,
        if_neg (hk a List.mem_cons_self)]
    · rcases List.mem_cons.1 hb with rfl | hb
      · refine ⟨e', ?_, hsame⟩
        rw [hframe b.1 fun c hc heq => String.lt_irrefl _ (heq ▸ hhead c hc), get?_records_insert,
          if_pos rfl]
      · exact hloaded b hb

/-- What is saved can be parsed. -/
lemma parse?_pretty_toRecords (schema : EntitySchema) (s : MemoryStore) :
    Json.parse? (s.toRecords schema).pretty = some (s.toRecords schema) := by
  have hplain : ∀ item ∈ s.entities.map schema.toRecord, item.Plain ∧ item.depth ≤ 3 := by
    intro item hitem
    obtain ⟨e, -, rfl⟩ := List.mem_map.1 hitem
    exact schema.plain_toRecord e
  have hdepth : Json.depthItems (s.entities.map schema.toRecord) ≤ 3 :=
    Json.depthItems_le_iff.2 fun item hitem => (hplain item hitem).2
  rw [toRecords]
  refine Json.parse?_pretty _ ?_ ?_
  · rw [Json.Plain, Json.plainItems_iff]
    exact fun item hitem => (hplain item hitem).1
  · rw [Json.depth, Json.depthLimit]
    omega

/-- **A store that is saved is loaded as it was**, as long as the schema holds its entities. -/
theorem exists_load_toRecords {fresh : MemoryStore} (now : Instant) (hfresh : fresh.entries = ∅)
    (hpivot : fresh.pivotAttribute = s.pivotAttribute) (hs : s.Filed)
    (hholds : ∀ e ∈ s.entities, schema.holds e = true) :
    ∃ s' n, fresh.load schema now (Json.parse? (s.toRecords schema).pretty) = (s', .ok n) ∧
      s.Same s' := by
  have hentry : ∀ a ∈ s.records.entries, s.records.get? a.1 = some a.2 :=
    fun a ha => (TextMap.mem_entries_iff _).1 ha
  obtain ⟨s', n, hload, hframe, hloaded⟩ :=
    exists_loadRecords schema now s.records.ascending fun a ha =>
      ⟨(entryKey?_congr hpivot a.2).trans (hs.key _ _ (hentry a ha)), hs.proper _ _ (hentry a ha),
        hholds a.2 (mem_entities_iff.2 ⟨a.1, hentry a ha⟩)⟩
  have hrecords : s.toRecords schema =
      .array (s.records.entries.map (schema.toRecord ·.2)) := by
    rw [toRecords, entities_eq, TextMap.values, List.map_map]
    rfl
  refine ⟨s', n, ?_, fun k => ?_⟩
  · rw [parse?_pretty_toRecords, hrecords]
    exact hload
  · cases hget : s.records.get? k with
    | none =>
      have hnone : fresh.records.get? k = none := by simp [records, hfresh]
      rw [hframe k fun a ha heq => by rw [← heq, hentry a ha] at hget; simp at hget, hnone]
      exact .none
    | some e =>
      obtain ⟨e', he', hsame⟩ := hloaded (k, e) ((TextMap.mem_entries_iff _).2 hget)
      rw [he']
      exact .some hsame

/-- A store is not loaded from records that cannot all be read. -/
lemma exists_error_loadRecords {records : List Json} {record : Json} (hmem : record ∈ records)
    {err : StoreError} (hread : schema.mapRecord record = .error err) :
    ∃ err', (s.loadRecords schema now records).2 = .error err' := by
  induction records generalizing s with
  | nil => simp at hmem
  | cons first rest ih =>
    rcases s.placed_or_refused schema now first with ⟨p, hp⟩ | ⟨err', hrefused⟩
    · rcases List.mem_cons.1 hmem with rfl | hmem
      · simp [hp.mapped] at hread
      · obtain ⟨err', hrest⟩ := ih (s := s.overlay [p]) hmem
        rw [hp.loadRecords, hrest]
        exact ⟨err', rfl⟩
    · rw [hrefused.loadRecords]
      exact ⟨err', rfl⟩

/-- **A store is not loaded again** when one of its entities has an attribute that the schema does
not declare. -/
theorem exists_error_load_toRecords (fresh : MemoryStore) (now : Instant) {e : Entity}
    {a : Attribute} (he : e ∈ s.entities) (ha : a ∈ e.attributeList)
    (hundeclared : schema.attribute? a.name = none)
    (hapart : schema.isIdentifierField a.name = false) :
    ∃ err, (fresh.load schema now (Json.parse? (s.toRecords schema).pretty)).2 = .error err := by
  obtain ⟨err, hread⟩ := EntitySchema.exists_error_mapRecord_toRecord ha hundeclared hapart
  rw [parse?_pretty_toRecords, toRecords]
  exact exists_error_loadRecords (List.mem_map_of_mem he) hread

/-! ## The time of loading -/

lemma loadRecords_at (hrecords : s'.records = s.records)
    (hpivot : s'.pivotAttribute = s.pivotAttribute) (records : List Json) :
    (s'.loadRecords schema later records).2 = (s.loadRecords schema now records).2 ∧
      (s'.loadRecords schema later records).1.records =
        (s.loadRecords schema now records).1.records := by
  induction records generalizing s s' with
  | nil => exact ⟨rfl, hrecords⟩
  | cons record rest ih =>
    rcases s.placed_or_refused schema now record with ⟨⟨k, entry⟩, hp⟩ | ⟨err, hrefused⟩
    · have hp' : s'.Placed schema later record (k, ⟨entry.entity, later⟩) :=
        ⟨hp.mapped, (entryKey?_congr hpivot _).trans hp.key, rfl⟩
      have hplaced : (s'.overlay [(k, ⟨entry.entity, later⟩)]).records =
          (s.overlay [(k, entry)]).records :=
        TextMap.ext_get? fun k' => by
          simp only [overlay, List.foldl_cons, List.foldl_nil, get?_records_insert, hrecords]
      obtain ⟨hresult, hrest⟩ := ih hplaced hpivot
      rw [hp.loadRecords, hp'.loadRecords]
      exact ⟨congrArg (Except.map (· + 1)) hresult, hrest⟩
    · rw [hrefused.loadRecords, (hrefused.congr hpivot.symm).loadRecords]
      exact ⟨rfl, hrecords⟩

/-- What is loaded, and whether it is, does not depend on the time. -/
lemma load_at (s : MemoryStore) (schema : EntitySchema) (now later : Instant)
    (records : Option Json) :
    (s.load schema later records).2 = (s.load schema now records).2 ∧
      (s.load schema later records).1.records = (s.load schema now records).1.records := by
  unfold load
  split
  · exact loadRecords_at rfl rfl _
  · exact ⟨rfl, rfl⟩

end MemoryStore

end StoreSync
