import StoreSync.Proofs.Stores

/-!
# Children before parents

A store lists the pivots of its entries by the length of the entries' identifiers, the longest ones
first.  The identifier of an entry further down in a tree continues with that of its parent, so it
is longer, and whoever works through a listing from its head comes to an entry only after everything
below it.

A listing is read together with the entries that it lists (`MemoryStore.Row`).  Sorting the rows of
all chosen entries gives the listing (`MemoryStore.orderedPivots_eq`), and `MemoryStore.Listing` is
what this means: no entry is left out or listed twice, and children precede their parents
(`MemoryStore.child_before_parent`).  `MemoryStore.listings_of_connected` has it for whole listings
and for those of changed entries.
-/

namespace StoreSync

namespace MemoryStore

variable {s : MemoryStore} {chosen : StoredEntry → Bool}

/-! ## Rows of a listing -/

/-- A pivot of a listing, with the entry that it is listed for and the key of the entry. -/
structure Row where
  key : String
  entry : StoredEntry
  pivot : Pivot

/-- Length in bytes of the identifier. -/
def Row.depth (row : Row) : Nat := MemoryStore.depth row.entry.entity

def Row.before (a b : Row) : Bool := listedBefore (a.depth, a.pivot) (b.depth, b.pivot)

/-- The row of an entry, if it has a pivot. -/
def row? (s : MemoryStore) (x : String × StoredEntry) : Option Row :=
  (s.pivotOf? x.2.entity).map fun p => ⟨x.1, x.2, p⟩

/-- The rows of chosen entries, in key order. -/
def rows (s : MemoryStore) (chosen : StoredEntry → Bool) : List Row :=
  (s.entries.entries.filter fun x => chosen x.2).filterMap s.row?

lemma row?_eq_some_iff {x : String × StoredEntry} {row : Row} :
    s.row? x = some row ↔
      x = (row.key, row.entry) ∧ s.pivotOf? row.entry.entity = some row.pivot := by
  obtain ⟨k, entry⟩ := x
  obtain ⟨k', entry', p'⟩ := row
  simp only [row?, Option.map_eq_some_iff, Row.mk.injEq, Prod.mk.injEq]
  constructor
  · rintro ⟨p, hp, rfl, rfl, rfl⟩
    exact ⟨⟨rfl, rfl⟩, hp⟩
  · rintro ⟨⟨rfl, rfl⟩, hp⟩
    exact ⟨p', hp, rfl, rfl, rfl⟩

lemma mem_rows_iff {row : Row} :
    row ∈ s.rows chosen ↔ s.entries.get? row.key = some row.entry ∧ chosen row.entry = true ∧
      s.pivotOf? row.entry.entity = some row.pivot := by
  simp only [rows, List.mem_filterMap, row?_eq_some_iff, List.mem_filter]
  constructor
  · rintro ⟨x, ⟨hx, hchosen⟩, rfl, hp⟩
    exact ⟨(TextMap.mem_entries_iff _).1 hx, hchosen, hp⟩
  · rintro ⟨hget, hchosen, hp⟩
    exact ⟨_, ⟨(TextMap.mem_entries_iff _).2 hget, hchosen⟩, rfl, hp⟩

lemma nodup_keys_rows : ((s.rows chosen).map Row.key).Nodup := by
  rw [List.Nodup, List.pairwise_map, rows, List.pairwise_filterMap]
  refine (s.entries.ascending.filter _).imp fun {x y} hlt row hrow row' hrow' heq => ?_
  obtain ⟨rfl, -⟩ := row?_eq_some_iff.1 hrow
  obtain ⟨rfl, -⟩ := row?_eq_some_iff.1 hrow'
  exact String.lt_irrefl row'.key (heq ▸ hlt)

/-! ## Order -/

lemma listedBefore_iff {a b : Nat × Pivot} :
    listedBefore a b = true ↔ b.1 < a.1 ∨ a.1 = b.1 ∧ a.2.id ≤ b.2.id := by
  simp [listedBefore]

lemma Row.before_trans (a b c : Row) (hab : a.before b = true) (hbc : b.before c = true) :
    a.before c = true := by
  rw [Row.before, listedBefore_iff] at *
  rcases hab with hab | ⟨hab, hle⟩ <;> rcases hbc with hbc | ⟨hbc, hle'⟩
  · exact Or.inl (by omega)
  · exact Or.inl (by omega)
  · exact Or.inl (by omega)
  · exact Or.inr ⟨by omega, String.le_trans hle hle'⟩

lemma Row.before_total (a b : Row) : (a.before b || b.before a) = true := by
  rw [Bool.or_eq_true, Row.before, Row.before, listedBefore_iff, listedBefore_iff]
  rcases Nat.lt_trichotomy a.depth b.depth with hlt | heq | hlt
  · exact Or.inr (Or.inl hlt)
  · rcases String.le_total a.pivot.id b.pivot.id with hle | hle
    · exact Or.inl (Or.inr ⟨heq, hle⟩)
    · exact Or.inr (Or.inr ⟨heq.symm, hle⟩)
  · exact Or.inl (Or.inl hlt)

/-- The pivots of chosen entries are listed by sorting their rows. -/
lemma orderedPivots_eq (s : MemoryStore) (chosen : StoredEntry → Bool) :
    s.orderedPivots ((s.entries.values.filter chosen).map (·.entity)) =
      ((s.rows chosen).mergeSort Row.before).map Row.pivot := by
  have hkeyed : (((s.entries.values.filter chosen).map (·.entity)).filterMap fun e =>
      (s.pivotOf? e).map (depth e, ·)) = (s.rows chosen).map fun row => (row.depth, row.pivot) := by
    rw [rows, List.map_filterMap, TextMap.values, List.filter_map, List.map_map,
      List.filterMap_map]
    refine List.filterMap_congr fun x _ => ?_
    cases hp : s.pivotOf? x.2.entity <;> simp [row?, hp, Row.depth]
  have hsorted := List.map_mergeSort (r := Row.before) (s := listedBefore)
    (f := fun row : Row => (row.depth, row.pivot)) (l := s.rows chosen) fun _ _ _ _ => rfl
  simp only [orderedPivots]
  rw [hkeyed, ← hsorted, List.map_map]
  rfl

/-! ## Listings -/

/-- The rows of a listing of the entries that are chosen. -/
structure Listing (s : MemoryStore) (chosen : StoredEntry → Bool) (rows : List Row) : Prop where
  /-- What is listed is the pivot of a chosen entry. -/
  sound : ∀ row ∈ rows, s.entries.get? row.key = some row.entry ∧ chosen row.entry = true ∧
    s.pivotOf? row.entry.entity = some row.pivot
  /-- Every chosen entry with a pivot value is listed. -/
  complete : ∀ k entry, s.entries.get? k = some entry → chosen entry = true →
    entry.entity.values s.pivotAttribute ≠ [] → ∃ row ∈ rows, row.key = k
  /-- No entry is listed twice. -/
  once : (rows.map Row.key).Nodup
  /-- Longer identifiers come first, and among those of one length the pivots ascend. -/
  ordered : rows.Pairwise fun a b =>
    b.depth < a.depth ∨ a.depth = b.depth ∧ a.pivot.id ≤ b.pivot.id
  /-- A child is listed before its parent. -/
  hierarchical : ∀ i j (hi : i < rows.length) (hj : j < rows.length) (r p : String),
    rows[i].entry.entity.identifier = some (r ++ "," ++ p) →
    rows[j].entry.entity.identifier = some p → i < j

lemma exists_pivot_of_values_ne_nil {e : Entity} (h : e.values s.pivotAttribute ≠ []) :
    ∃ p, s.pivotOf? e = some p := by
  unfold Entity.values at h
  split at h
  next a ha =>
    obtain ⟨v, rest, hv⟩ := List.exists_cons_of_ne_nil h
    exact ⟨_, pivotOf?_eq_some_iff.2 ⟨v, by simp [Entity.first?, ha, Attribute.first?, hv], rfl⟩⟩
  next => exact absurd rfl h

/-- The identifier of a child is longer than that of its parent. -/
lemma Row.depth_lt_of_child {a b : Row} {r p : String}
    (ha : a.entry.entity.identifier = some (r ++ "," ++ p))
    (hb : b.entry.entity.identifier = some p) : b.depth < a.depth := by
  have hcomma : ",".utf8ByteSize = 1 := rfl
  simp only [Row.depth, MemoryStore.depth, ha, hb, Option.map_some, Option.getD_some,
    String.utf8ByteSize_append, hcomma]
  omega

lemma child_before_parent {rows : List Row}
    (hordered : rows.Pairwise fun a b =>
      b.depth < a.depth ∨ a.depth = b.depth ∧ a.pivot.id ≤ b.pivot.id)
    {i j : Nat} {hi : i < rows.length} {hj : j < rows.length} {r p : String}
    (hchild : rows[i].entry.entity.identifier = some (r ++ "," ++ p))
    (hparent : rows[j].entry.entity.identifier = some p) : i < j := by
  have hdeeper := Row.depth_lt_of_child hchild hparent
  by_contra hnot
  rcases Nat.lt_or_eq_of_le (Nat.le_of_not_lt hnot) with hlt | rfl
  · have := List.pairwise_iff_getElem.1 hordered j i hj hi hlt
    omega
  · omega

/-- Sorting the rows of the chosen entries gives a listing of them. -/
theorem listing_mergeSort (s : MemoryStore) (chosen : StoredEntry → Bool) :
    s.Listing chosen ((s.rows chosen).mergeSort Row.before) := by
  have hperm := List.mergeSort_perm (s.rows chosen) Row.before
  have hordered : ((s.rows chosen).mergeSort Row.before).Pairwise fun a b =>
      b.depth < a.depth ∨ a.depth = b.depth ∧ a.pivot.id ≤ b.pivot.id := by
    refine (List.pairwise_mergeSort Row.before_trans Row.before_total _).imp fun hab => ?_
    exact listedBefore_iff.1 hab
  refine ⟨fun row hrow => mem_rows_iff.1 (hperm.mem_iff.1 hrow), ?complete, ?once, hordered,
    fun i j hi hj r p => child_before_parent hordered⟩
  case complete =>
    intro k entry hget hchosen hvalues
    obtain ⟨p, hp⟩ := exists_pivot_of_values_ne_nil hvalues
    exact ⟨⟨k, entry, p⟩, hperm.mem_iff.2 (mem_rows_iff.2 ⟨hget, hchosen, hp⟩), rfl⟩
  case once => exact (hperm.map _).nodup_iff.2 nodup_keys_rows

/-- **Listings are complete, and children come before their parents**: in the listing of a whole
store, and with a change feed in the listing of the entries that match a filter, which sees the time
of their last write under the name of the timestamp. -/
theorem listings_of_connected (hlost : s.connectionLost = false) :
    (∃ rows, s.list = .ok (rows.map Row.pivot) ∧ s.Listing (fun _ => true) rows) ∧
      (s.changeFeed = true → ∀ filter, ∃ rows, s.changed filter = .ok (rows.map Row.pivot) ∧
        s.Listing (fun entry => filter.holds (s.lookup entry)) rows) := by
  refine ⟨⟨_, ?_, s.listing_mergeSort _⟩, fun hfeed filter => ⟨_, ?_, s.listing_mergeSort _⟩⟩
  · rw [← orderedPivots_eq]
    simp [list, checkConnection, hlost, entities, bind, Except.bind, pure, Except.pure]
  · rw [← orderedPivots_eq]
    simp [changed, checkConnection, hlost, hfeed, bind, Except.bind, pure, Except.pure]

/-! ### Branches with people

The keys are in another order than the listing, a letter counts two bytes, two identifiers have one
length, somebody has no identifier and somebody else no pivot value. -/

def branches : MemoryStore :=
  (MemoryStore.new "ldap" "uid").insertAll
    [((Entity.named "dc=x").put "uid" [.integer 0], ⟨0⟩),
      ((Entity.named "OU=É,dc=x").put "uid" [.integer 1], ⟨0⟩),
      ((Entity.named "cn=Zoë,OU=É,dc=x").put "UID" [.integer 3, .integer 4], ⟨5000⟩),
      ((Entity.named "cn=Anna,OU=É,dc=x").put "uid" [.integer 2], ⟨0⟩),
      (Entity.anonymous.put "uid" [.integer 9], ⟨5999⟩),
      (.named "cn=nobody", ⟨5000⟩)]

lemma list_branches :
    branches.list = .ok [branches.pivotFor "cn=Anna,OU=É,dc=x" "2",
      branches.pivotFor "cn=Zoë,OU=É,dc=x" "3", branches.pivotFor "OU=É,dc=x" "1",
      branches.pivotFor "dc=x" "0", branches.pivotFor "9" "9"] := by
  have hkeyed : branches.entities.filterMap (fun e => (branches.pivotOf? e).map (depth e, ·)) =
      [(0, branches.pivotFor "9" "9"), (18, branches.pivotFor "cn=Anna,OU=É,dc=x" "2"),
        (18, branches.pivotFor "cn=Zoë,OU=É,dc=x" "3"), (4, branches.pivotFor "dc=x" "0"),
        (10, branches.pivotFor "OU=É,dc=x" "1")] := by decide +kernel
  show Except.ok (branches.orderedPivots branches.entities) = _
  rw [orderedPivots, hkeyed]
  have hid : ∀ id v, (branches.pivotFor id v).id = id := fun _ _ => rfl
  have hle : "cn=Anna,OU=É,dc=x" ≤ "cn=Zoë,OU=É,dc=x" := by decide +kernel
  simp [List.mergeSort, List.MergeSort.Internal.splitInTwo, listedBefore, hid, hle]

/-- What has been written since a time within second five. -/
def sinceFive : Filter := .changedSince "MODIFYtimestamp" ⟨5500⟩

theorem listings_of_branches :
    branches.connectionLost = false ∧ branches.changeFeed = true ∧
    (∃ rows, branches.Listing (fun _ => true) rows ∧ rows.map Row.pivot =
      [branches.pivotFor "cn=Anna,OU=É,dc=x" "2", branches.pivotFor "cn=Zoë,OU=É,dc=x" "3",
        branches.pivotFor "OU=É,dc=x" "1", branches.pivotFor "dc=x" "0",
        branches.pivotFor "9" "9"]) ∧
    ∃ rows, branches.changed sinceFive = .ok (rows.map Row.pivot) ∧
      branches.Listing (fun entry => sinceFive.holds (branches.lookup entry)) rows := by
  obtain ⟨⟨rows, hlist, hrows⟩, hchanged⟩ := listings_of_connected (s := branches) rfl
  rw [list_branches] at hlist
  exact ⟨rfl, rfl, ⟨rows, hrows, (Except.ok.inj hlist).symm⟩, hchanged rfl sinceFive⟩

end MemoryStore

end StoreSync
