import Mathlib.Data.Set.Basic
import Mathlib.Tactic.Lemma
import Mathlib.Tactic.Tauto
import StoreSync.Reconcile

/-!
# Values as sets of texts

The planner compares lists of values by their canonical texts and takes empty values for absent.
This module reads every helper of `ValueSet`, and every operation of `Attribute`, as an operation
on the set of texts that count:

* `ValueSet.mem_texts_iff` — a text counts when it is not empty and some value has it as its
  canonical form, because only empty values have the empty canonical form
  (`AttributeValue.canonical_eq_empty_iff`);
* `ValueSet.mem_texts_normalize`, `ValueSet.mem_texts_missing` — normalizing keeps the set, and
  what is missing is the set difference;
* `ValueSet.same_normalize_iff` — on normalized lists, comparison as multisets is equality of sets.

`Entity.heldTexts` is the set of texts of one attribute of an entity; the specification of an
update is written with it.
-/

namespace StoreSync

/-! ## Canonical texts -/

namespace AttributeValue

lemma canonical_eq_empty_iff (v : AttributeValue) : v.canonical = "" ↔ v.isEmpty = true := by
  cases v with
  | string s => simp [canonical, isEmpty]
  | integer i =>
    have hne : i.toInt.repr ≠ "" := by
      cases i.toInt with
      | ofNat n => exact Nat.repr_ne_empty
      | negSucc n => exact fun h => by simpa [Int.repr] using congrArg String.toList h
    simp [canonical, isEmpty, hne]
  | boolean b => cases b <;> simp [canonical, isEmpty]
  | binary bytes =>
    match bytes with
    | [] => simp [canonical, isEmpty, Text.Base64.encode, Text.Base64.encodeBytes]
    | [a] | [a, b] | a :: b :: c :: rest =>
      simp [canonical, isEmpty, Text.Base64.encode, Text.Base64.encodeBytes]

end AttributeValue

/-! ## Lists of values -/

namespace ValueSet

lemma mem_texts_iff {vs : List AttributeValue} {t : String} :
    t ∈ texts vs ↔ t ≠ "" ∧ t ∈ vs.map AttributeValue.canonical := by
  simp only [texts, List.mem_map, List.mem_filter, Bool.not_eq_true']
  constructor
  · rintro ⟨v, ⟨hv, hne⟩, rfl⟩
    refine ⟨fun h => ?_, v, hv, rfl⟩
    rw [AttributeValue.canonical_eq_empty_iff, hne] at h
    exact absurd h (by simp)
  · rintro ⟨hne, v, hv, rfl⟩
    refine ⟨v, ⟨hv, ?_⟩, rfl⟩
    rw [← Bool.not_eq_true, ← AttributeValue.canonical_eq_empty_iff]
    exact hne

lemma mem_texts_append {a b : List AttributeValue} {t : String} :
    t ∈ texts (a ++ b) ↔ t ∈ texts a ∨ t ∈ texts b := by
  simp [texts]

lemma mem_texts_strings {ts : List String} {t : String} :
    t ∈ texts (ts.map .string) ↔ t ≠ "" ∧ t ∈ ts := by
  simp [mem_texts_iff, AttributeValue.canonical]

lemma mem_canonical_distinct {vs : List AttributeValue} {seen : List String} {t : String} :
    t ∈ (distinct seen vs).map AttributeValue.canonical ↔
      t ∉ seen ∧ t ∈ vs.map AttributeValue.canonical := by
  induction vs generalizing seen with
  | nil => simp [distinct]
  | cons v rest ih =>
    by_cases h : v.canonical ∈ seen
    · simp only [distinct, List.contains_eq_mem, h, decide_true, if_true, ih, List.map_cons,
        List.mem_cons]
      constructor
      · rintro ⟨hs, ht⟩
        exact ⟨hs, Or.inr ht⟩
      · rintro ⟨hs, rfl | ht⟩
        · exact absurd h hs
        · exact ⟨hs, ht⟩
    · simp only [distinct, List.contains_eq_mem, h, decide_false, if_false, Bool.false_eq_true,
        List.map_cons, List.mem_cons, ih, not_or]
      constructor
      · rintro (rfl | ⟨⟨_, hs⟩, ht⟩)
        · exact ⟨h, Or.inl rfl⟩
        · exact ⟨hs, Or.inr ht⟩
      · rintro ⟨hs, rfl | ht⟩
        · exact Or.inl rfl
        · by_cases he : t = v.canonical
          · exact Or.inl he
          · exact Or.inr ⟨⟨he, hs⟩, ht⟩

lemma nodup_canonical_distinct (vs : List AttributeValue) (seen : List String) :
    ((distinct seen vs).map AttributeValue.canonical).Nodup := by
  induction vs generalizing seen with
  | nil => simp [distinct]
  | cons v rest ih =>
    by_cases h : v.canonical ∈ seen
    · simpa [distinct, h] using ih seen
    · simp only [distinct, List.contains_eq_mem, h, decide_false, if_false, Bool.false_eq_true,
        List.map_cons, List.nodup_cons]
      refine ⟨fun hm => ?_, ih _⟩
      exact (mem_canonical_distinct.1 hm).1 List.mem_cons_self

lemma mem_of_mem_distinct {vs : List AttributeValue} {seen : List String} {v : AttributeValue}
    (h : v ∈ distinct seen vs) : v ∈ vs := by
  induction vs generalizing seen with
  | nil => simp [distinct] at h
  | cons w rest ih =>
    unfold distinct at h
    split at h
    · exact List.mem_cons_of_mem _ (ih h)
    · rcases List.mem_cons.1 h with rfl | h
      · exact List.mem_cons_self
      · exact List.mem_cons_of_mem _ (ih h)

lemma isEmpty_of_mem_normalize {vs : List AttributeValue} {v : AttributeValue}
    (h : v ∈ normalize vs) : v.isEmpty = false := by
  simpa using (List.mem_filter.1 (mem_of_mem_distinct h)).2

/-- A normalized list has no empty values, so all its texts count. -/
lemma texts_normalize (vs : List AttributeValue) :
    texts (normalize vs) = (normalize vs).map AttributeValue.canonical := by
  unfold texts
  rw [List.filter_eq_self.2]
  intro v hv
  simp [isEmpty_of_mem_normalize hv]

@[simp] lemma mem_texts_normalize {vs : List AttributeValue} {t : String} :
    t ∈ texts (normalize vs) ↔ t ∈ texts vs := by
  rw [texts_normalize, normalize, mem_canonical_distinct]
  simp [texts]

lemma nodup_texts_normalize (vs : List AttributeValue) : (texts (normalize vs)).Nodup := by
  rw [texts_normalize]
  exact nodup_canonical_distinct _ _

lemma normalize_eq_nil_iff {vs : List AttributeValue} :
    normalize vs = [] ↔ ∀ t, t ∉ texts vs := by
  constructor
  · intro h t ht
    rw [← mem_texts_normalize, h] at ht
    simp [texts] at ht
  · intro h
    rw [← List.map_eq_nil_iff (f := AttributeValue.canonical), ← texts_normalize,
      List.eq_nil_iff_forall_not_mem]
    intro t ht
    exact h t (mem_texts_normalize.1 ht)

/-- Normalized lists hold no text twice, so as multisets they agree as soon as they do as sets. -/
lemma same_normalize_iff {a b : List AttributeValue} :
    same (normalize a) (normalize b) = true ↔ ∀ t, t ∈ texts a ↔ t ∈ texts b := by
  rw [same, List.isPerm_iff, List.perm_ext_iff_of_nodup (nodup_texts_normalize a)
    (nodup_texts_normalize b)]
  simp

lemma mem_texts_missing {a b : List AttributeValue} {t : String} :
    t ∈ texts (missing a b) ↔ t ∈ texts a ∧ t ∉ texts b := by
  rw [missing, mem_texts_normalize, mem_texts_iff, mem_texts_iff]
  simp only [List.mem_map, List.mem_filter, Bool.not_eq_true', List.contains_eq_mem,
    decide_eq_false_iff_not]
  constructor
  · rintro ⟨hne, v, ⟨hv, hb⟩, rfl⟩
    exact ⟨⟨hne, v, hv, rfl⟩, hb⟩
  · rintro ⟨⟨hne, v, hv, rfl⟩, hb⟩
    exact ⟨hne, v, ⟨hv, hb⟩, rfl⟩

end ValueSet

/-! ## The texts of an attribute -/

open Reconciler (valuesOf)

/-- The texts of an entity's attribute that count; none when it is absent. -/
def Entity.heldTexts (e : Entity) (name : String) : Set String :=
  {t | t ∈ ValueSet.texts (valuesOf e name)}

/-- The texts of an attribute that may be absent. -/
def Attribute.heldTexts (a : Option Attribute) : Set String :=
  {t | t ∈ ValueSet.texts ((a.map Attribute.values).getD [])}

lemma Entity.heldTexts_eq (e : Entity) (name : String) :
    e.heldTexts name = Attribute.heldTexts (e.attribute? name) := by
  unfold Entity.heldTexts Attribute.heldTexts valuesOf
  cases e.attribute? name <;> rfl

namespace Attribute

lemma mem_texts_addAll {a : Attribute} {vs : List AttributeValue} {t : String} :
    t ∈ (a.addAll vs).texts ↔ t ∈ vs.map AttributeValue.canonical ∨ t ∈ a.texts := by
  induction vs generalizing a with
  | nil => simp [addAll]
  | cons v rest ih =>
    have hstep : a.addAll (v :: rest) = (a.add v).addAll rest := rfl
    rw [hstep, ih, mem_texts_add, List.map_cons, List.mem_cons]
    tauto

lemma mem_texts_removeAll {a : Attribute} {vs : List AttributeValue} {t : String} :
    t ∈ (vs.foldl remove a).texts ↔ t ∉ vs.map AttributeValue.canonical ∧ t ∈ a.texts := by
  induction vs generalizing a with
  | nil => simp
  | cons v rest ih =>
    rw [List.foldl_cons, ih, mem_texts_remove, List.map_cons, List.mem_cons]
    tauto

/-- Additions stand behind the values that were there. -/
lemma prefix_values_addAll (a : Attribute) (vs : List AttributeValue) :
    a.values <+: (a.addAll vs).values := by
  induction vs generalizing a with
  | nil => exact List.prefix_rfl
  | cons v rest ih =>
    refine List.IsPrefix.trans ?_ (ih (a.add v))
    unfold add
    split
    · exact List.prefix_rfl
    · exact List.prefix_append _ _

lemma mem_heldTexts_some {a : Attribute} {t : String} :
    t ∈ heldTexts (some a) ↔ t ≠ "" ∧ t ∈ a.texts := ValueSet.mem_texts_iff

@[simp] lemma heldTexts_none : heldTexts none = ∅ := by
  ext t
  simp [heldTexts, ValueSet.texts]

end Attribute

end StoreSync
