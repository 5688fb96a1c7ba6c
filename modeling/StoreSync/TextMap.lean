/-!
# Finite maps from text, in ascending key order

Every place where records, policies and stores are keyed by text walks its keys in ascending
code-point order.  The order is therefore part of the value: a map is its list of entries
together with a proof that the keys ascend strictly.  Two maps with the same look-ups are
then the same map (`TextMap.ext_get?`), and a key is never held twice.
-/

namespace StoreSync

universe u v

/-- A finite map from text to `α`, held in strictly ascending order of the keys. -/
structure TextMap (α : Type u) where
  entries : List (String × α)
  ascending : entries.Pairwise (fun a b => a.1 < b.1)
deriving DecidableEq

namespace TextMap

variable {α : Type u} {β : Type v}

/-! ## Entry lists -/

/-- The value that an entry list gives to a key: the first entry under that key. -/
def lookupEntry (key : String) : List (String × α) → Option α
  | [] => none
  | (k, v) :: rest => if k = key then some v else lookupEntry key rest

/-- Put a value under a key, before the first larger key or over the equal one. -/
def insertEntry (key : String) (value : α) : List (String × α) → List (String × α)
  | [] => [(key, value)]
  | (k, v) :: rest =>
    if key < k then (key, value) :: (k, v) :: rest
    else if key = k then (key, value) :: rest
    else (k, v) :: insertEntry key value rest

theorem fst_of_mem_insertEntry {key : String} {value : α} {l : List (String × α)}
    {e : String × α} (h : e ∈ insertEntry key value l) : e = (key, value) ∨ e ∈ l := by
  induction l with
  | nil => simpa [insertEntry] using h
  | cons head tail ih =>
    obtain ⟨k, v⟩ := head
    unfold insertEntry at h
    split at h
    · simpa using h
    · split at h
      · simp only [List.mem_cons] at h ⊢
        exact h.imp id Or.inr
      · simp only [List.mem_cons] at h ⊢
        rcases h with rfl | h
        · exact Or.inr (Or.inl rfl)
        · exact (ih h).imp id Or.inr

theorem lt_of_not_lt_of_ne {a b : String} (h : ¬ a < b) (hne : a ≠ b) : b < a :=
  Std.lt_of_le_of_ne (Std.not_lt.1 h) (Ne.symm hne)

theorem pairwise_insertEntry (key : String) (value : α) {l : List (String × α)}
    (h : l.Pairwise (fun a b => a.1 < b.1)) :
    (insertEntry key value l).Pairwise (fun a b => a.1 < b.1) := by
  induction l with
  | nil => simp [insertEntry]
  | cons head tail ih =>
    obtain ⟨k, v⟩ := head
    obtain ⟨hhead, htail⟩ := List.pairwise_cons.1 h
    unfold insertEntry
    split
    next hlt =>
      refine List.pairwise_cons.2 ⟨fun e he => ?_, h⟩
      rcases List.mem_cons.1 he with rfl | he
      · exact hlt
      · exact String.lt_trans hlt (hhead e he)
    next hlt =>
      split
      next heq => subst heq; exact List.pairwise_cons.2 ⟨hhead, htail⟩
      next hne =>
        refine List.pairwise_cons.2 ⟨fun e he => ?_, ih htail⟩
        rcases fst_of_mem_insertEntry he with rfl | he
        · exact lt_of_not_lt_of_ne hlt hne
        · exact hhead e he

theorem lookupEntry_insertEntry (key key' : String) (value : α) (l : List (String × α)) :
    lookupEntry key' (insertEntry key value l) =
      if key = key' then some value else lookupEntry key' l := by
  induction l with
  | nil => simp [insertEntry, lookupEntry]
  | cons head tail ih =>
    obtain ⟨k, v⟩ := head
    unfold insertEntry
    split
    · simp [lookupEntry]
    · split
      next heq => subst heq; by_cases hk : key = key' <;> simp [lookupEntry, hk]
      next hne =>
        by_cases hk : k = key'
        · subst hk; simp [lookupEntry, hne]
        · simp [lookupEntry, hk, ih]

theorem lookupEntry_eq_none {key : String} {l : List (String × α)}
    (h : ∀ e ∈ l, e.1 ≠ key) : lookupEntry key l = none := by
  induction l with
  | nil => rfl
  | cons head tail ih =>
    obtain ⟨k, v⟩ := head
    have hk : k ≠ key := h (k, v) List.mem_cons_self
    simp only [lookupEntry, if_neg hk]
    exact ih fun e he => h e (List.mem_cons_of_mem _ he)

theorem lookupEntry_filter_ne (key key' : String) (l : List (String × α)) :
    lookupEntry key' (l.filter (fun e => e.1 != key)) =
      if key = key' then none else lookupEntry key' l := by
  induction l with
  | nil => simp [lookupEntry]
  | cons head tail ih =>
    obtain ⟨k, v⟩ := head
    by_cases hk : k = key
    · subst hk
      by_cases hk' : k = key'
      · subst hk'; simpa [lookupEntry] using ih
      · simp [lookupEntry, hk', ih]
    · by_cases hk' : k = key'
      · subst hk'; simp [lookupEntry, hk, Ne.symm hk]
      · simp [lookupEntry, hk, hk', ih]

theorem mem_iff_lookupEntry {l : List (String × α)}
    (h : l.Pairwise (fun a b => a.1 < b.1)) {key : String} {value : α} :
    (key, value) ∈ l ↔ lookupEntry key l = some value := by
  induction l with
  | nil => simp [lookupEntry]
  | cons head tail ih =>
    obtain ⟨k, v⟩ := head
    obtain ⟨hhead, htail⟩ := List.pairwise_cons.1 h
    by_cases hk : k = key
    · subst hk
      have hnone : (k, value) ∉ tail := fun hm => String.lt_irrefl k (hhead _ hm)
      simp [lookupEntry, hnone, eq_comm]
    · simp [lookupEntry, hk, Ne.symm hk, ih htail]

/-! ## Maps -/

/-- The map without entries. -/
def empty : TextMap α := ⟨[], List.Pairwise.nil⟩

instance : EmptyCollection (TextMap α) := ⟨empty⟩

instance : Inhabited (TextMap α) := ⟨empty⟩

/-- The value under a key. -/
def get? (m : TextMap α) (key : String) : Option α := lookupEntry key m.entries

/-- Whether some value is held under the key. -/
def contains (m : TextMap α) (key : String) : Bool := (m.get? key).isSome

/-- Put a value under a key, over the one that stood there. -/
def insert (m : TextMap α) (key : String) (value : α) : TextMap α :=
  ⟨insertEntry key value m.entries, pairwise_insertEntry key value m.ascending⟩

/-- Drop the entry under a key. -/
def erase (m : TextMap α) (key : String) : TextMap α :=
  ⟨m.entries.filter (fun e => e.1 != key), m.ascending.filter _⟩

/-- The map of a list of pairs; of pairs with one key the last one counts. -/
def ofList (pairs : List (String × α)) : TextMap α :=
  pairs.foldl (fun m e => m.insert e.1 e.2) empty

/-- The keys, ascending. -/
def keys (m : TextMap α) : List String := m.entries.map (·.1)

/-- The values, in ascending order of their keys. -/
def values (m : TextMap α) : List α := m.entries.map (·.2)

/-- Number of entries. -/
def size (m : TextMap α) : Nat := m.entries.length

/-- Change every value and keep the keys. -/
def map (f : α → β) (m : TextMap α) : TextMap β :=
  ⟨m.entries.map (fun e => (e.1, f e.2)), by
    rw [List.pairwise_map]; exact m.ascending⟩

@[ext] theorem ext_entries {m m' : TextMap α} (h : m.entries = m'.entries) : m = m' := by
  cases m; cases m'; cases h; rfl

@[simp] theorem get?_empty (key : String) : (∅ : TextMap α).get? key = none := rfl

theorem get?_insert (m : TextMap α) (key key' : String) (value : α) :
    (m.insert key value).get? key' = if key = key' then some value else m.get? key' :=
  lookupEntry_insertEntry key key' value m.entries

@[simp] theorem get?_insert_self (m : TextMap α) (key : String) (value : α) :
    (m.insert key value).get? key = some value := by
  simp [get?_insert]

theorem get?_insert_of_ne (m : TextMap α) {key key' : String} (h : key ≠ key') (value : α) :
    (m.insert key value).get? key' = m.get? key' := by
  simp [get?_insert, h]

theorem get?_erase (m : TextMap α) (key key' : String) :
    (m.erase key).get? key' = if key = key' then none else m.get? key' :=
  lookupEntry_filter_ne key key' m.entries

@[simp] theorem get?_erase_self (m : TextMap α) (key : String) :
    (m.erase key).get? key = none := by
  simp [get?_erase]

theorem get?_erase_of_ne (m : TextMap α) {key key' : String} (h : key ≠ key') :
    (m.erase key).get? key' = m.get? key' := by
  simp [get?_erase, h]

theorem mem_entries_iff (m : TextMap α) {key : String} {value : α} :
    (key, value) ∈ m.entries ↔ m.get? key = some value :=
  mem_iff_lookupEntry m.ascending

theorem eq_of_mem_iff {l l' : List (String × α)}
    (h : l.Pairwise (fun a b => a.1 < b.1)) (h' : l'.Pairwise (fun a b => a.1 < b.1))
    (hmem : ∀ e, e ∈ l ↔ e ∈ l') : l = l' := by
  induction l generalizing l' with
  | nil =>
    cases l' with
    | nil => rfl
    | cons head tail => exact absurd ((hmem head).2 List.mem_cons_self) (by simp)
  | cons head tail ih =>
    cases l' with
    | nil => exact absurd ((hmem head).1 List.mem_cons_self) (by simp)
    | cons head' tail' =>
      obtain ⟨hh, ht⟩ := List.pairwise_cons.1 h
      obtain ⟨hh', ht'⟩ := List.pairwise_cons.1 h'
      have heq : head = head' := by
        rcases List.mem_cons.1 ((hmem head).1 List.mem_cons_self) with e | hm
        · exact e
        · rcases List.mem_cons.1 ((hmem head').2 List.mem_cons_self) with e | hm'
          · exact e.symm
          · exact absurd (hh _ hm') (String.lt_asymm (hh' _ hm))
      subst heq
      congr 1
      refine ih ht ht' fun e => ⟨fun he => ?_, fun he => ?_⟩
      · rcases List.mem_cons.1 ((hmem e).1 (List.mem_cons_of_mem _ he)) with rfl | hm
        · exact absurd (hh _ he) (String.lt_irrefl _)
        · exact hm
      · rcases List.mem_cons.1 ((hmem e).2 (List.mem_cons_of_mem _ he)) with rfl | hm
        · exact absurd (hh' _ he) (String.lt_irrefl _)
        · exact hm

/-- Maps that answer every look-up alike are equal. -/
theorem ext_get? {m m' : TextMap α} (h : ∀ key, m.get? key = m'.get? key) : m = m' := by
  refine ext_entries (eq_of_mem_iff m.ascending m'.ascending fun e => ?_)
  obtain ⟨k, v⟩ := e
  rw [mem_entries_iff, mem_entries_iff, h k]

end TextMap

end StoreSync
