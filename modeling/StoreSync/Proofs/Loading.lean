import Mathlib.Data.List.Forall2
import Mathlib.Data.List.Nodup
import Mathlib.Data.List.Perm.Subperm
import StoreSync.Proofs.Filing
import StoreSync.Proofs.Forms

/-!
# Loading

A data file is loaded record by record: each is mapped to an entity, which is put under its key.
There is nothing that takes an insertion back, and an insertion replaces what stands under its key.
So a load that fails at a record has already put those before it, and of records with one key only
the last one is left, although each is counted.

`MemoryStore.load_text` says what a load does to any store, whether it fails or not: there is a list
of what it placed, one item for each record before the one it stopped at, and under every key the
last item of the list has come over what stood there (`MemoryStore.Overlaid`).  An empty store holds
as many entries afterwards as there were records exactly if their keys are different
(`MemoryStore.Filling`).
-/

namespace StoreSync

/-! ## Maps of what was put there last -/

namespace TextMap

variable {α : Type} {m : TextMap α} {pairs : List (String × α)}

lemma mem_keys_iff_of_get? (h : ∀ k, m.get? k = pairs.reverse.lookup k) {k : String} :
    k ∈ m.entries.map (·.1) ↔ k ∈ pairs.map (·.1) := by
  simp only [List.mem_map, Prod.exists, exists_and_right, exists_eq_right, mem_entries_iff, h]
  constructor
  · rintro ⟨v, hlast⟩
    exact ⟨v, mem_of_lookup_reverse hlast⟩
  · rintro ⟨v, hmem⟩
    cases hlast : pairs.reverse.lookup k with
    | some w => exact ⟨w, rfl⟩
    | none => exact absurd hmem (notMem_of_lookup_reverse hlast)

lemma subperm_keys (h : ∀ k, m.get? k = pairs.reverse.lookup k) :
    (m.entries.map (·.1)).Subperm (pairs.map (·.1)) :=
  m.nodup_keys.subperm fun _ hk => (mem_keys_iff_of_get? h).1 hk

lemma size_le_of_get? (h : ∀ k, m.get? k = pairs.reverse.lookup k) :
    m.size ≤ pairs.length := by
  simpa [size] using (subperm_keys h).length_le

/-- No pair is lost exactly if the keys are different. -/
lemma size_eq_iff_of_get? (h : ∀ k, m.get? k = pairs.reverse.lookup k) :
    m.size = pairs.length ↔ (pairs.map (·.1)).Nodup := by
  constructor
  · intro hsize
    have hperm : (m.entries.map (·.1)).Perm (pairs.map (·.1)) :=
      (subperm_keys h).perm_of_length_le (by simpa [size] using hsize.ge)
    exact hperm.nodup_iff.1 m.nodup_keys
  · intro hdistinct
    have hperm : (m.entries.map (·.1)).Perm (pairs.map (·.1)) :=
      (List.perm_ext_iff_of_nodup m.nodup_keys hdistinct).2 fun _ => mem_keys_iff_of_get? h
    simpa [size] using hperm.length_eq

/-- Then the entries are the pairs. -/
lemma perm_entries_of_get? (h : ∀ k, m.get? k = pairs.reverse.lookup k)
    (hdistinct : (pairs.map (·.1)).Nodup) : m.entries.Perm pairs := by
  refine (List.perm_ext_iff_of_nodup m.nodup_keys.of_map hdistinct.of_map).2 fun ⟨k, v⟩ => ?_
  have hreverse : (pairs.reverse.map (·.1)).Nodup := by
    rw [List.map_reverse]
    exact List.nodup_reverse.2 hdistinct
  rw [mem_entries_iff, h, lookup_eq_some_iff hreverse, List.mem_reverse]

end TextMap

namespace MemoryStore

variable {s s' : MemoryStore} {schema : EntitySchema} {now : Instant}

/-! ## Record by record -/

/-- How the records of a file are gone through: what is placed of them, and what is answered. -/
inductive Loading (s : MemoryStore) (schema : EntitySchema) (now : Instant) :
    List Json → List (String × StoredEntry) → Except StoreError Nat → Prop
  | complete {records : List Json} {placed : List (String × StoredEntry)}
      (h : List.Forall₂ (s.Placed schema now) records placed) :
      Loading s schema now records placed (.ok records.length)
  | stopped {front back : List Json} {record : Json} {placed : List (String × StoredEntry)}
      {err : StoreError} (h : List.Forall₂ (s.Placed schema now) front placed)
      (hrefused : s.Refused schema record err) :
      Loading s schema now (front ++ record :: back) placed (.error err)

/-- One more record in front. -/
lemma Loading.cons {record : Json} {records : List Json} {p : String × StoredEntry}
    {placed : List (String × StoredEntry)} {result : Except StoreError Nat}
    (hp : s.Placed schema now record p)
    (h : (s.overlay [p]).Loading schema now records placed result) :
    s.Loading schema now (record :: records) (p :: placed) (result.map (· + 1)) := by
  cases h with
  | complete h => exact .complete (.cons hp (h.imp fun _ _ hq => hq.congr rfl))
  | stopped h hrefused =>
    exact .stopped (.cons hp (h.imp fun _ _ hq => hq.congr rfl)) (hrefused.congr rfl)

/-- The induction over the records. -/
lemma exists_loading (s : MemoryStore) (schema : EntitySchema) (now : Instant)
    (records : List Json) :
    ∃ placed, s.Loading schema now records placed (s.loadRecords schema now records).2 ∧
      (s.loadRecords schema now records).1 = s.overlay placed := by
  induction records generalizing s with
  | nil => exact ⟨[], .complete .nil, rfl⟩
  | cons record rest ih =>
    rcases s.placed_or_refused schema now record with ⟨p, hp⟩ | ⟨err, hrefused⟩
    · obtain ⟨placed, hloading, hstore⟩ := ih (s.overlay [p])
      rw [hp.loadRecords]
      exact ⟨p :: placed, hloading.cons hp, hstore⟩
    · have hloading : s.Loading schema now ([] ++ record :: rest) [] (.error err) :=
        .stopped .nil hrefused
      rw [hrefused.loadRecords]
      exact ⟨[], hloading, rfl⟩

/-! ## What is left in the store -/

/-- Under every key stands the last entry that was placed there, or else what stood there before;
nothing but entries is different. -/
structure Overlaid (s s' : MemoryStore) (placed : List (String × StoredEntry)) : Prop where
  get? : ∀ k, s'.entries.get? k = (placed.reverse.lookup k).or (s.entries.get? k)
  others : { s' with entries := s.entries } = s

lemma overlaid_overlay (s : MemoryStore) (placed : List (String × StoredEntry)) :
    s.Overlaid (s.overlay placed) placed :=
  ⟨TextMap.get?_foldl_insert _ _, rfl⟩

/-- Where nothing is placed, nothing changes. -/
lemma Overlaid.eq_of_nil (h : s.Overlaid s' []) : s' = s := by
  have hentries : s'.entries = s.entries := TextMap.ext_get? fun k => h.get? k
  rw [← h.others, ← hentries]

/-- What an empty store holds after a load of `n` records: at most `n` entries, and one for each
record if and only if their keys are different. -/
structure Filling (s' : MemoryStore) (placed : List (String × StoredEntry)) (n : Nat) : Prop where
  size_le : s'.entries.size ≤ n
  size_eq_iff : s'.entries.size = n ↔ (placed.map (·.1)).Nodup
  perm : (placed.map (·.1)).Nodup → s'.entries.entries.Perm placed

lemma Overlaid.filling {placed : List (String × StoredEntry)} (h : s.Overlaid s' placed)
    (hempty : s.entries = ∅) : s'.Filling placed placed.length := by
  have hget : ∀ k, s'.entries.get? k = placed.reverse.lookup k := fun k => by
    rw [h.get?, hempty, TextMap.get?_empty, Option.or_none]
  exact ⟨TextMap.size_le_of_get? hget, TextMap.size_eq_iff_of_get? hget,
    TextMap.perm_entries_of_get? hget⟩

/-- A load refuses its data and changes nothing, or it goes through the records. -/
lemma load_cases {data : Option Json} {result : Except StoreError Nat}
    (hload : s.load schema now data = (s', result)) :
    ((∀ records, data ≠ some (.array records)) ∧ s' = s ∧
      result = .error (.serialization "not an array of records")) ∨
    ∃ records placed, data = some (.array records) ∧ s.Loading schema now records placed result ∧
      s.Overlaid s' placed := by
  unfold load at hload
  split at hload
  next records =>
    obtain ⟨placed, hloading, hstore⟩ := exists_loading s schema now records
    rw [hload] at hloading hstore
    obtain rfl : s' = s.overlay placed := hstore
    exact Or.inr ⟨records, placed, rfl, hloading, s.overlaid_overlay placed⟩
  next harray =>
    obtain ⟨rfl, rfl⟩ := Prod.ext_iff.1 hload
    exact Or.inl ⟨harray, rfl, rfl⟩

/-- **What a load does**, whatever the store, the schema and the text.  If it fails, then on the
text and nothing changes, or on the first record that is refused and those before it are placed.  If
it succeeds, every record is placed, and an empty store holds one entry for each if and only if no
two of them have one key. -/
theorem load_text (s : MemoryStore) (schema : EntitySchema) (now : Instant) (text : String) :
    (∀ s' err, s.load schema now (Json.parse? text) = (s', .error err) →
      ((∀ records, Json.parse? text ≠ some (.array records)) ∧ s' = s) ∨
      ∃ front record back placed, Json.parse? text = some (.array (front ++ record :: back)) ∧
        List.Forall₂ (s.Placed schema now) front placed ∧ s.Refused schema record err ∧
        s.Overlaid s' placed ∧ (front = [] → s' = s)) ∧
    ∀ s' n, s.load schema now (Json.parse? text) = (s', .ok n) →
      ∃ records placed, Json.parse? text = some (.array records) ∧ records.length = n ∧
        List.Forall₂ (s.Placed schema now) records placed ∧ s.Overlaid s' placed ∧
        (s.entries = ∅ → s'.Filling placed n) := by
  refine ⟨fun s' err hload => ?_, fun s' n hload => ?_⟩
  · rcases load_cases hload with ⟨harray, hsame, -⟩ | ⟨records, placed, htext, hloading, hover⟩
    · exact Or.inl ⟨harray, hsame⟩
    · cases hloading with
      | stopped hfront hrefused =>
        refine Or.inr ⟨_, _, _, placed, htext, hfront, hrefused, hover, ?_⟩
        rintro rfl
        cases hfront
        exact hover.eq_of_nil
  · rcases load_cases hload with ⟨-, -, hresult⟩ | ⟨records, placed, htext, hloading, hover⟩
    · cases hresult
    · cases hloading with
      | complete h =>
        rw [h.length_eq]
        exact ⟨records, placed, htext, h.length_eq, h, hover, hover.filling⟩

/-! ### Badges -/

/-- Badges have a number, and what identifies them. -/
def badgeForm : EntitySchema := ⟨"badge", some "dn", [⟨"uid", .string⟩]⟩

/-- The second record has a field that is not declared. -/
def strayField : Json :=
  .array [.members [("dn", .string "uid=1,dc=x"), ("uid", .string "1")],
    .members [("dn", .string "uid=2,dc=x"), ("mail", .string "b@x")]]

/-- The second record has the key of the first one. -/
def oneKey : Json :=
  .array [.members [("dn", .string "uid=1,dc=x"), ("uid", .string "1")],
    .members [("dn", .string "UID=1,DC=x"), ("uid", .string "2")]]

lemma parse?_strayField : Json.parse? strayField.pretty = some strayField :=
  Json.parse?_pretty _ ⟨⟨by decide +kernel, trivial, trivial, trivial⟩,
    ⟨by decide +kernel, trivial, trivial, trivial⟩, trivial⟩ (by decide +kernel)

lemma parse?_oneKey : Json.parse? oneKey.pretty = some oneKey :=
  Json.parse?_pretty _ ⟨⟨by decide +kernel, trivial, trivial, trivial⟩,
    ⟨by decide +kernel, trivial, trivial, trivial⟩, trivial⟩ (by decide +kernel)

lemma exists_load_strayField :
    ∃ s', (new "hr" "uid").load badgeForm ⟨0⟩ (Json.parse? strayField.pretty) =
        (s', .error (.attributeNotDeclared "mail" "badge")) ∧
      s'.entries.keys = ["uid=1,dc=x"] := by
  rw [parse?_strayField]
  exact ⟨((new "hr" "uid").load badgeForm ⟨0⟩ (some strayField)).1,
    Prod.ext rfl (by decide +kernel), by decide +kernel⟩

lemma exists_load_oneKey :
    ∃ s', (new "hr" "uid").load badgeForm ⟨0⟩ (Json.parse? oneKey.pretty) = (s', .ok 2) ∧
      s'.entries.size = 1 := by
  rw [parse?_oneKey]
  exact ⟨((new "hr" "uid").load badgeForm ⟨0⟩ (some oneKey)).1,
    Prod.ext rfl (by decide +kernel), by decide +kernel⟩

/-- One load stops at its second record, the other one places both of them. -/
theorem load_text_badges :
    (∃ s' front record back placed,
      (new "hr" "uid").load badgeForm ⟨0⟩ (Json.parse? strayField.pretty) =
        (s', .error (.attributeNotDeclared "mail" "badge")) ∧
      strayField = .array (front ++ record :: back) ∧
      List.Forall₂ ((new "hr" "uid").Placed badgeForm ⟨0⟩) front placed ∧
      (new "hr" "uid").Refused badgeForm record (.attributeNotDeclared "mail" "badge") ∧
      (new "hr" "uid").Overlaid s' placed) ∧
    ∃ s' records placed,
      (new "hr" "uid").load badgeForm ⟨0⟩ (Json.parse? oneKey.pretty) = (s', .ok 2) ∧
      oneKey = .array records ∧
      List.Forall₂ ((new "hr" "uid").Placed badgeForm ⟨0⟩) records placed ∧
      s'.Filling placed 2 := by
  refine ⟨?stray, ?same⟩
  case stray =>
    obtain ⟨s', hload, -⟩ := exists_load_strayField
    rcases (load_text _ _ _ _).1 _ _ hload with
      ⟨harray, -⟩ | ⟨front, record, back, placed, htext, hfront, hrefused, hover, -⟩
    · exact absurd parse?_strayField (harray _)
    · have hrecords := Option.some.inj (parse?_strayField.symm.trans htext)
      exact ⟨s', front, record, back, placed, hload, hrecords, hfront, hrefused, hover⟩
  case same =>
    obtain ⟨s', hload, -⟩ := exists_load_oneKey
    obtain ⟨records, placed, htext, -, hplaced, -, hfilling⟩ := (load_text _ _ _ _).2 _ _ hload
    have hrecords := Option.some.inj (parse?_oneKey.symm.trans htext)
    exact ⟨s', records, placed, hload, hrecords, hplaced, hfilling rfl⟩

/-- The first badge stays when the second one is refused, and gives way when the second one has its
key. -/
theorem load_badges :
    (new "hr" "uid").entries.keys = [] ∧
    (∃ s', (new "hr" "uid").load badgeForm ⟨0⟩ (Json.parse? strayField.pretty) =
        (s', .error (.attributeNotDeclared "mail" "badge")) ∧
      s'.entries.keys = ["uid=1,dc=x"]) ∧
    ∃ s', (new "hr" "uid").load badgeForm ⟨0⟩ (Json.parse? oneKey.pretty) = (s', .ok 2) ∧
      s'.entries.size = 1 :=
  ⟨rfl, exists_load_strayField, exists_load_oneKey⟩

end MemoryStore

end StoreSync
