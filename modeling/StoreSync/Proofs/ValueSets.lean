import Mathlib.Data.List.Perm.Basic
import StoreSync.Proofs.Values

/-!
# The laws of lists of values

Three helpers decide what an update writes: one normalizes a list of values, one compares two lists,
and one takes the difference.  They are written in three ways, by the texts seen so far, by the
number of times that each text occurs, and by what a list does not contain, and agree on what a
value is: its canonical text, unless that is empty.

* `ValueSet.normalize_cons` and `ValueSet.missing_eq` — both lists are got from the first
  occurrences of texts by leaving some out;
* `ValueSet.Kept` — the first occurrence of each text that counts, in order; there is only one list
  of this kind (`ValueSet.eq_normalize_iff`);
* `ValueSet.laws` — what the helpers have to do with each other (`ValueSet.Laws`).
-/

namespace StoreSync.ValueSet

variable {a a' b kept vs rest : List AttributeValue} {v w : AttributeValue} {t u : String}

/-! ## Leaving values out -/

/-- The values with none of the texts. -/
def without (seen : List String) (vs : List AttributeValue) : List AttributeValue :=
  vs.filter fun v => !seen.contains v.canonical

lemma mem_without {seen : List String} : v ∈ without seen vs ↔ v ∈ vs ∧ v.canonical ∉ seen := by
  simp [without]

lemma without_cons {seen : List String} (v : AttributeValue) (vs : List AttributeValue) :
    without seen (v :: vs) =
      if v.canonical ∈ seen then without seen vs else v :: without seen vs := by
  by_cases h : v.canonical ∈ seen <;> simp [without, h]

lemma without_comm (seen seen' : List String) (vs : List AttributeValue) :
    without seen (without seen' vs) = without seen' (without seen vs) := by
  rw [without, without, without, without, List.filter_filter, List.filter_filter]
  exact List.filter_congr fun v _ => Bool.and_comm ..

lemma without_without_singleton (t : String) (seen : List String) (vs : List AttributeValue) :
    without seen (without [t] vs) = without (t :: seen) vs := by
  rw [without, without, without, List.filter_filter]
  refine List.filter_congr fun v _ => ?_
  simp [Bool.and_comm]

/-- What is left out once need not be left out again. -/
lemma without_without_of_mem {seen : List String} (h : t ∈ seen) (vs : List AttributeValue) :
    without seen (without [t] vs) = without seen vs := by
  rw [without, without, without, List.filter_filter]
  refine List.filter_congr fun v _ => ?_
  by_cases hv : v.canonical = t
  · simp [hv, h]
  · simp [hv]

/-! ## First occurrences -/

/-- Texts that were seen are left out of the first occurrences. -/
lemma distinct_eq_without (seen : List String) (vs : List AttributeValue) :
    distinct seen vs = without seen (distinct [] vs) := by
  induction vs generalizing seen with
  | nil => rfl
  | cons v rest ih =>
    have hfirst : distinct [] (v :: rest) = v :: without [v.canonical] (distinct [] rest) := by
      rw [← ih]
      simp [distinct]
    rw [hfirst, without_cons]
    by_cases hv : v.canonical ∈ seen
    · rw [if_pos hv, without_without_of_mem hv, ← ih]
      simp [distinct, hv]
    · rw [if_neg hv, without_without_singleton, ← ih]
      simp [distinct, hv]

lemma normalize_cons_of_isEmpty (h : v.isEmpty = true) :
    normalize (v :: rest) = normalize rest := by
  simp [normalize, h]

/-- A value that counts is kept at the head, and none that equals it behind. -/
lemma normalize_cons (h : v.isEmpty = false) :
    normalize (v :: rest) = v :: without [v.canonical] (normalize rest) := by
  rw [normalize, normalize, ← distinct_eq_without]
  simp [distinct, h]

/-- Values can be left out before or after a list is normalized. -/
lemma normalize_without (seen : List String) (vs : List AttributeValue) :
    normalize (without seen vs) = without seen (normalize vs) := by
  induction vs with
  | nil => rfl
  | cons v rest ih =>
    rw [without_cons]
    cases hempty : v.isEmpty with
    | true =>
      rw [normalize_cons_of_isEmpty hempty, ← ih]
      split
      · rfl
      · exact normalize_cons_of_isEmpty hempty
    | false =>
      rw [normalize_cons hempty, without_cons]
      split
      next hv => rw [without_without_of_mem hv, ih]
      next => rw [normalize_cons hempty, ih, without_comm]

lemma missing_eq (a b : List AttributeValue) : missing a b = without (texts b) (normalize a) :=
  normalize_without (texts b) a

lemma without_eq_self {seen : List String} (h : ∀ v ∈ vs, v.canonical ∉ seen) :
    without seen vs = vs :=
  List.filter_eq_self.2 fun v hv => by simpa using h v hv

/-! ## Normal forms -/

/-- The first occurrence of each text that counts, in order. -/
structure Kept (vs kept : List AttributeValue) : Prop where
  mem_iff : ∀ t, t ∈ kept.map AttributeValue.canonical ↔
    ∃ v ∈ vs, v.isEmpty = false ∧ v.canonical = t
  once : (kept.map AttributeValue.canonical).Nodup
  first : ∀ v ∈ kept, vs.find? (fun w => w.canonical = v.canonical) = some v
  ordered : (kept.map AttributeValue.canonical).Pairwise fun t u =>
    (vs.map AttributeValue.canonical).idxOf t < (vs.map AttributeValue.canonical).idxOf u

/-- A list is normal if all of its values count and no two are equal. -/
lemma normalize_eq_self_iff : normalize vs = vs ↔
    (∀ v ∈ vs, v.isEmpty = false) ∧ (vs.map AttributeValue.canonical).Nodup := by
  constructor
  · intro h
    rw [← h]
    exact ⟨fun v => isEmpty_of_mem_normalize, nodup_canonical_distinct _ _⟩
  · rintro ⟨hcounts, honce⟩
    induction vs with
    | nil => rfl
    | cons v rest ih =>
      obtain ⟨hv, hcounts⟩ := List.forall_mem_cons.1 hcounts
      obtain ⟨hnot, honce⟩ := List.nodup_cons.1 honce
      rw [normalize_cons hv, ih hcounts honce, without_eq_self]
      intro w hw heq
      exact hnot (List.mem_singleton.1 heq ▸ List.mem_map_of_mem hw)

lemma normalize_normalize (vs : List AttributeValue) : normalize (normalize vs) = normalize vs :=
  normalize_eq_self_iff.2 ⟨fun _ => isEmpty_of_mem_normalize, nodup_canonical_distinct _ _⟩

/-- A value that counts is not the same as one that does not. -/
lemma canonical_ne_of_isEmpty (hw : w.isEmpty = true) (hv : v.isEmpty = false) :
    w.canonical ≠ v.canonical := by
  intro heq
  rw [← AttributeValue.canonical_eq_empty_iff, heq, AttributeValue.canonical_eq_empty_iff, hv] at hw
  exact Bool.false_ne_true hw

/-- Nothing in the normal form of the rest is the same as the head, once that is left out. -/
lemma normalize_cons_cases (v : AttributeValue) (rest : List AttributeValue) :
    ∃ later, (normalize (v :: rest) = later ∨ normalize (v :: rest) = v :: later) ∧
      later.Sublist (normalize rest) ∧ ∀ w ∈ later, v.canonical ≠ w.canonical := by
  cases hempty : v.isEmpty with
  | true =>
    exact ⟨_, Or.inl (normalize_cons_of_isEmpty hempty), List.Sublist.refl _,
      fun w hw => canonical_ne_of_isEmpty hempty (isEmpty_of_mem_normalize hw)⟩
  | false =>
    exact ⟨_, Or.inr (normalize_cons hempty), List.filter_sublist,
      fun w hw heq => (mem_without.1 hw).2 (List.mem_singleton.2 heq.symm)⟩

lemma find?_normalize (h : v ∈ normalize vs) :
    vs.find? (fun w => w.canonical = v.canonical) = some v := by
  induction vs with
  | nil => simp [normalize, distinct] at h
  | cons u rest ih =>
    obtain ⟨later, hlater, hsub, hne⟩ := normalize_cons_cases u rest
    have hbehind : v ∈ later → (u :: rest).find? (fun w => w.canonical = v.canonical) = some v := by
      intro hv
      rw [List.find?_cons_of_neg (by simpa using hne v hv), ih (hsub.subset hv)]
    rcases hlater with heq | heq
    · exact hbehind (heq ▸ h)
    · rw [heq] at h
      rcases List.mem_cons.1 h with rfl | h
      · simp
      · exact hbehind h

lemma pairwise_idxOf_normalize (vs : List AttributeValue) :
    ((normalize vs).map AttributeValue.canonical).Pairwise fun t u =>
      (vs.map AttributeValue.canonical).idxOf t < (vs.map AttributeValue.canonical).idxOf u := by
  induction vs with
  | nil => exact .nil
  | cons v rest ih =>
    obtain ⟨later, hlater, hsub, hne⟩ := normalize_cons_cases v rest
    -- Behind the head every text is found one place later than in the rest.
    have hshift : ∀ w ∈ later, ((v :: rest).map AttributeValue.canonical).idxOf w.canonical =
        (rest.map AttributeValue.canonical).idxOf w.canonical + 1 := fun w hw => by
      rw [List.map_cons, List.idxOf_cons_ne _ (hne w hw)]
    have hbehind : (later.map AttributeValue.canonical).Pairwise fun t u =>
        ((v :: rest).map AttributeValue.canonical).idxOf t <
          ((v :: rest).map AttributeValue.canonical).idxOf u := by
      rw [List.pairwise_map] at ih ⊢
      refine (ih.sublist hsub).imp_of_mem fun {w w'} hw hw' hlt => ?_
      rw [hshift w hw, hshift w' hw']
      exact Nat.succ_lt_succ hlt
    rcases hlater with heq | heq
    · rwa [heq]
    · rw [heq]
      refine List.pairwise_cons.2 ⟨fun u hu => ?_, hbehind⟩
      obtain ⟨w, hw, rfl⟩ := List.mem_map.1 hu
      rw [hshift w hw, List.map_cons, List.idxOf_cons_self]
      exact Nat.succ_pos _

lemma kept_normalize (vs : List AttributeValue) : Kept vs (normalize vs) where
  mem_iff t := by
    rw [← texts_normalize, mem_texts_normalize, texts, List.mem_map]
    simp only [List.mem_filter, Bool.not_eq_true', and_assoc]
  once := nodup_canonical_distinct _ _
  first _ := find?_normalize
  ordered := pairwise_idxOf_normalize vs

/-- The texts of a kept list tell its values. -/
lemma Kept.eq_filterMap (h : Kept vs kept) :
    kept = (kept.map AttributeValue.canonical).filterMap fun t =>
      vs.find? (fun w => w.canonical = t) := by
  rw [List.filterMap_map]
  conv_lhs => rw [← List.filterMap_some (l := kept)]
  exact List.filterMap_congr fun v hv => (h.first v hv).symm

lemma eq_normalize_iff : kept = normalize vs ↔ Kept vs kept := by
  constructor
  · rintro rfl
    exact kept_normalize vs
  · intro h
    have h' := kept_normalize vs
    have htexts : kept.map AttributeValue.canonical =
        (normalize vs).map AttributeValue.canonical := by
      have hperm := (List.perm_ext_iff_of_nodup h.once h'.once).2 fun t =>
        (h.mem_iff t).trans (h'.mem_iff t).symm
      exact hperm.eq_of_pairwise (fun t u _ _ hlt hgt => absurd hlt (Nat.lt_asymm hgt)) h.ordered
        h'.ordered
    rw [h.eq_filterMap, htexts, ← h'.eq_filterMap]

/-! ## Differences -/

/-- What is missing from a list. -/
structure Missing (a b kept : List AttributeValue) : Prop where
  normal : normalize kept = kept
  /-- Nothing of it is there already. -/
  apart : ∀ v ∈ kept, ∀ w ∈ b, w.isEmpty = false → v.canonical ≠ w.canonical
  /-- Nothing else is missing. -/
  covers : ∀ v ∈ a, v.isEmpty = false →
    ∃ w ∈ kept ++ b, w.isEmpty = false ∧ w.canonical = v.canonical
  subset : kept ⊆ a

lemma missing_missing (a b : List AttributeValue) : Missing a b (missing a b) where
  normal := normalize_normalize _
  apart v hv w hw hcounts heq := by
    rw [missing_eq, mem_without] at hv
    refine hv.2 (heq ▸ List.mem_map_of_mem (List.mem_filter.2 ⟨hw, ?_⟩))
    rw [hcounts]
    rfl
  covers v hv hcounts := by
    have htext : v.canonical ∈ texts a := by
      exact List.mem_map_of_mem (List.mem_filter.2 ⟨hv, by rw [hcounts]; rfl⟩)
    have hcovered : v.canonical ∈ texts (missing a b ++ b) := by
      rw [mem_texts_append, mem_texts_missing]
      by_cases hb : v.canonical ∈ texts b
      · exact Or.inr hb
      · exact Or.inl ⟨htext, hb⟩
    obtain ⟨w, hw, heq⟩ := List.mem_map.1 hcovered
    obtain ⟨hw, hcounts⟩ := List.mem_filter.1 hw
    exact ⟨w, hw, by simpa using hcounts, heq⟩
  subset v hv := by
    rw [missing_eq, mem_without] at hv
    exact (List.mem_filter.1 (mem_of_mem_distinct hv.1)).1

lemma missing_eq_nil_iff : missing a b = [] ↔ ∀ t ∈ texts a, t ∈ texts b := by
  rw [← (missing_missing a b).normal, normalize_eq_nil_iff]
  simp only [mem_texts_missing, not_and, not_not]

/-! ## Comparison -/

lemma same_iff : same a b = true ↔ (texts a).Perm (texts b) := List.isPerm_iff

lemma same_iff_count : same a b = true ↔ ∀ t, (texts a).count t = (texts b).count t :=
  same_iff.trans List.perm_iff_count

lemma equivalence_same : Equivalence fun a b => same a b = true where
  refl _ := same_iff.2 (.refl _)
  symm h := same_iff.2 (same_iff.1 h).symm
  trans h h' := same_iff.2 ((same_iff.1 h).trans (same_iff.1 h'))

/-- Lists with the same texts, in any order, are compared with the same result. -/
lemma same_congr (h : (texts a).Perm (texts a')) (b : List AttributeValue) :
    same a b = same a' b := by
  rw [Bool.eq_iff_iff, same_iff, same_iff]
  exact ⟨h.symm.trans, h.trans⟩

lemma texts_insert (h : v.isEmpty = true) (before after : List AttributeValue) :
    texts (before ++ v :: after) = texts (before ++ after) := by
  simp [texts, h]

lemma same_iff_missing (ha : normalize a = a) (hb : normalize b = b) :
    same a b = true ↔ missing a b = [] ∧ missing b a = [] := by
  rw [← ha, ← hb, same_normalize_iff, ha, hb, missing_eq_nil_iff, missing_eq_nil_iff]
  exact ⟨fun h => ⟨fun t => (h t).1, fun t => (h t).2⟩, fun ⟨h, h'⟩ t => ⟨h t, h' t⟩⟩

/-! ## The laws -/

/-- What the helpers have to do with each other. -/
structure Laws : Prop where
  /-- Normalizing gives the first occurrences, and there is nothing else that it could give. -/
  normalize_iff : ∀ vs kept, kept = normalize vs ↔ Kept vs kept
  idempotent : ∀ vs, normalize (normalize vs) = normalize vs
  missing : ∀ a b, Missing a b (missing a b)
  /-- Lists are the same if every text that counts occurs equally often. -/
  counted : ∀ a b, same a b = true ↔ ∀ t, (texts a).count t = (texts b).count t
  equivalence : Equivalence fun a b => same a b = true
  /-- The order of a list does not count. -/
  perm : ∀ {a a'}, a.Perm a' → ∀ b, same a b = same a' b
  /-- Empty values do not count, wherever they stand. -/
  empty : ∀ {v}, v.isEmpty = true →
    ∀ before after b, same (before ++ v :: after) b = same (before ++ after) b
  /-- Normal lists are the same if and only if neither misses anything of the other. -/
  same_iff : ∀ {a b}, normalize a = a → normalize b = b →
    (same a b = true ↔ ValueSet.missing a b = [] ∧ ValueSet.missing b a = [])

/-- **The helpers agree on what a list of values is.** -/
theorem laws : Laws where
  normalize_iff _ _ := eq_normalize_iff
  idempotent := normalize_normalize
  missing := missing_missing
  counted _ _ := same_iff_count
  equivalence := equivalence_same
  perm h := same_congr ((h.filter _).map _)
  empty h before after := same_congr (by rw [texts_insert h])
  same_iff := same_iff_missing

/-- The integer, the text and the bytes are one value, which is kept as it came first. -/
example :
    normalize [.string "", .string "AQ==", .integer 7, .binary [1], .string "7", .boolean true] =
      [.string "AQ==", .integer 7, .boolean true] ∧
    missing [.integer 7, .boolean true, .string ""] [.string "7", .string ""] = [.boolean true] ∧
    same [.integer 7, .string "", .binary [1]] [.string "AQ==", .string "7"] = true ∧
    same [.integer 7, .string "7"] [.integer 7] = false := by
  decide +kernel

end StoreSync.ValueSet
