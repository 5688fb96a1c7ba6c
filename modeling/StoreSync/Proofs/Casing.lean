import Mathlib.Tactic.Lemma
import StoreSync.Policy

/-!
# Where the two case foldings agree

Keys are folded as whole texts, names are compared character by character, and the two differ on
the capital sigma alone.  A text of ASCII characters has no sigma, and nothing but an ASCII text
folds to one; so as soon as one of two texts is ASCII, comparing them and comparing their keys is
the same (`Text.sameFolded_iff_fold_eq`).

The names of a write scope are kept once up to comparison.  When they are ASCII their keys differ
as well (`Policy.pairwise_fold_distinctNames`), which is why no two operations of a plan meet in
one attribute.
-/

namespace StoreSync

namespace Text

instance (s : String) : Decidable (IsAscii s) :=
  List.decidableBAll (fun c : Char => c.toNat < 128) s.toList

lemma foldFrom_of_notMem_sigma {cs : List Char} (h : 'Σ' ∉ cs) (before : Bool) :
    foldFrom before cs = cs.flatMap lowerChar := by
  induction cs generalizing before with
  | nil => rfl
  | cons c rest ih =>
    simp only [List.mem_cons, not_or] at h
    simp [foldFrom, Ne.symm h.1, ih h.2]

/-- A sigma leaves a character beyond ASCII behind, in whichever of its forms. -/
lemma exists_notAscii_foldFrom {cs : List Char} (h : 'Σ' ∈ cs) (before : Bool) :
    ∃ c ∈ foldFrom before cs, ¬ c.toNat < 128 := by
  induction cs generalizing before with
  | nil => simp at h
  | cons c rest ih =>
    unfold foldFrom
    split
    · refine ⟨_, List.mem_cons_self, ?_⟩
      split <;> decide
    next hc =>
      have hrest : 'Σ' ∈ rest := (List.mem_cons.1 h).resolve_left (Ne.symm hc)
      obtain ⟨d, hd, hascii⟩ := ih hrest (casedAfter before c)
      exact ⟨d, List.mem_append_right _ hd, hascii⟩

lemma toLower_lt_of_ascii {c : Char} (h : c.toNat < 128) : c.toLower.toNat < 128 := by
  unfold Char.toLower
  split
  next hc =>
    have hle : c.val.toNat ≤ 'Z'.val.toNat := UInt32.le_iff_toNat_le.1 hc.2
    have hZ : 'Z'.val.toNat = 90 := rfl
    have hshift : ('a'.val - 'A'.val).toNat = 32 := by decide
    simp only [Char.toNat, UInt32.toNat_add, hshift]
    omega
  next => exact h

/-- One ASCII text is enough for comparing texts to be comparing their keys. -/
theorem sameFolded_iff_fold_eq {a b : String} (ha : IsAscii a) :
    sameFolded a b = true ↔ fold a = fold b := by
  have hlower : a.toList.flatMap lowerChar = a.toList.map Char.toLower :=
    flatMap_lowerChar_of_ascii ha
  have hfold : foldFrom false a.toList = a.toList.map Char.toLower := foldFrom_of_ascii ha false
  have hascii : ∀ c ∈ a.toList.map Char.toLower, c.toNat < 128 := by
    intro c hc
    obtain ⟨d, hd, rfl⟩ := List.mem_map.1 hc
    exact toLower_lt_of_ascii (ha d hd)
  simp only [sameFolded, fold, beq_iff_eq, String.ofList_inj, hlower, hfold]
  constructor
  · intro h
    have hsigma : 'Σ' ∉ b.toList := by
      intro hm
      have hσ : 'σ' ∈ b.toList.flatMap lowerChar :=
        List.mem_flatMap.2 ⟨'Σ', hm, by decide +kernel⟩
      rw [← h] at hσ
      exact absurd (hascii 'σ' hσ) (by decide)
    rw [foldFrom_of_notMem_sigma hsigma, h]
  · intro h
    have hsigma : 'Σ' ∉ b.toList := by
      intro hm
      obtain ⟨c, hc, hnot⟩ := exists_notAscii_foldFrom hm false
      rw [← h] at hc
      exact hnot (hascii c hc)
    rw [h, foldFrom_of_notMem_sigma hsigma]

lemma lowerChar_ne_nil (c : Char) : lowerChar c ≠ [] := by
  unfold lowerChar
  split
  · simp
  · split
    · simp
    · split <;> simp

lemma eq_empty_of_sameFolded {text : String} (h : sameFolded "" text = true) :
    text = "" := by
  have hnil : text.toList.flatMap lowerChar = [] := by
    simp only [sameFolded, String.toList_empty, List.flatMap_nil, beq_iff_eq] at h
    exact h.symm
  have hchars : text.toList = [] := by
    refine List.eq_nil_iff_forall_not_mem.2 fun c hc => ?_
    exact lowerChar_ne_nil c (List.flatMap_eq_nil_iff.1 hnil c hc)
  simpa using hchars

end Text

namespace Policy

open Text (sameFolded)

lemma mem_of_mem_foldl_distinctNames {names acc : List String} {n : String}
    (h : n ∈ names.foldl (fun acc n => if acc.any (sameFolded · n) then acc else acc ++ [n]) acc) :
    n ∈ acc ∨ n ∈ names := by
  induction names generalizing acc with
  | nil => exact Or.inl h
  | cons m rest ih =>
    rcases ih h with h | h
    · dsimp only at h
      split at h
      · exact Or.inl h
      · rcases List.mem_append.1 h with h | h
        · exact Or.inl h
        · exact Or.inr (List.mem_cons.2 (Or.inl (List.mem_singleton.1 h)))
    · exact Or.inr (List.mem_cons_of_mem _ h)

lemma mem_of_mem_distinctNames {names : List String} {n : String} (h : n ∈ distinctNames names) :
    n ∈ names :=
  (mem_of_mem_foldl_distinctNames h).resolve_left (by simp)

lemma exists_mem_foldl_distinctNames {names acc : List String} {n : String}
    (h : (∃ m ∈ acc, sameFolded m n = true) ∨ n ∈ names) :
    ∃ m ∈ names.foldl (fun acc n => if acc.any (sameFolded · n) then acc else acc ++ [n]) acc,
      sameFolded m n = true := by
  induction names generalizing acc with
  | nil => exact h.resolve_right (by simp)
  | cons m rest ih =>
    rw [List.foldl_cons]
    refine ih ?_
    split
    next hany =>
      rcases h with h | h
      · exact Or.inl h
      · rcases List.mem_cons.1 h with rfl | h
        · exact Or.inl (List.any_eq_true.1 hany)
        · exact Or.inr h
    next =>
      rcases h with ⟨x, hx, hsame⟩ | h
      · exact Or.inl ⟨x, List.mem_append_left _ hx, hsame⟩
      · rcases List.mem_cons.1 h with rfl | h
        · exact Or.inl ⟨n, by simp, Text.sameFolded_self n⟩
        · exact Or.inr h

/-- Every name is kept, up to case. -/
lemma exists_mem_distinctNames {names : List String} {n : String} (h : n ∈ names) :
    ∃ m ∈ distinctNames names, sameFolded m n = true :=
  exists_mem_foldl_distinctNames (Or.inr h)

lemma pairwise_foldl_distinctNames (names : List String) {acc : List String}
    (hacc : acc.Pairwise fun a b => sameFolded a b = false) :
    (names.foldl (fun acc n => if acc.any (sameFolded · n) then acc else acc ++ [n]) acc).Pairwise
      fun a b => sameFolded a b = false := by
  induction names generalizing acc with
  | nil => exact hacc
  | cons m rest ih =>
    refine ih ?_
    dsimp only
    split
    · exact hacc
    next h =>
      refine List.pairwise_append.2 ⟨hacc, List.pairwise_singleton _ _, fun a ha b hb => ?_⟩
      rw [List.mem_singleton.1 hb]
      simpa using fun he => h (List.any_eq_true.2 ⟨a, ha, he⟩)

/-- The names that are kept differ pairwise. -/
lemma pairwise_distinctNames (names : List String) :
    (distinctNames names).Pairwise fun a b => sameFolded a b = false :=
  pairwise_foldl_distinctNames names List.Pairwise.nil

lemma pairwise_fold_distinctNames {names : List String} (h : ∀ n ∈ names, Text.IsAscii n) :
    (distinctNames names).Pairwise fun a b => Text.fold a ≠ Text.fold b := by
  refine (pairwise_distinctNames names).imp_of_mem fun {a b} ha _ hne heq => ?_
  rw [(Text.sameFolded_iff_fold_eq (h a (mem_of_mem_distinctNames ha))).2 heq] at hne
  exact absurd hne (by simp)

/-- Names that agree up to case have one policy. -/
lemma attribute?_congr (p : Policy) {a b : String} (h : sameFolded a b = true) :
    p.attribute? a = p.attribute? b := by
  have hsame : ∀ e : String × AttributePolicy, sameFolded e.1 a = sameFolded e.1 b := fun e => by
    rw [Bool.eq_iff_iff]
    exact ⟨fun he => Text.sameFolded_trans he h,
      fun he => Text.sameFolded_trans he (by rw [Text.sameFolded_comm]; exact h)⟩
  simp only [attribute?, hsame]

lemma statusOf_congr (p : Policy) {a b : String} (h : sameFolded a b = true) :
    p.statusOf a = p.statusOf b := by
  simp only [statusOf, p.attribute?_congr h]

end Policy

end StoreSync
