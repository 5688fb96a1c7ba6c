import Mathlib.Data.List.Find
import StoreSync.Proofs.Likeness

/-!
# Where the two case foldings part

Keys are folded as whole texts, names are compared letter by letter.  A capital sigma that ends a
word is the one letter that the two treat differently: folding gives it its final form, a comparison
the usual one.  So `ΑΣ` and `ας` have one key and do not compare, while `ΟΔΟΣ` and `οδοσ` compare
and have two keys.  `Text.finals` marks these letters, and two texts that are taken for one in
either way are so in both exactly if their marks are the same (`Text.sameFolded_iff_iff_finals`).

Entities and stores are searched by key, while policies, write scopes and changes of identifier go
by comparison.  Each of these pairs is of one mind on exactly the names on which the foldings are
(`oneFolding_iff_uses`).
-/

namespace StoreSync

namespace Text

variable {a b : String}

/-! ## Marked letters -/

/-- The letters of the lower-cased text, each with a mark if folding gives it the final form of the
sigma; `before` is the state in which `foldFrom` starts. -/
def lettersFrom (before : Bool) : List Char → List (Bool × Char)
  | [] => []
  | c :: rest =>
    (if c = 'Σ' then [(before && !startsCased rest, 'σ')] else (lowerChar c).map (false, ·)) ++
      lettersFrom (casedAfter before c) rest

def letters (s : String) : List (Bool × Char) := lettersFrom false s.toList

/-- A letter as it stands in the folded text. -/
def folded (l : Bool × Char) : Char := if l.1 then 'ς' else l.2

/-- The marks of the letters that folding gives the final form of the sigma. -/
def finals (s : String) : List Bool := (letters s).map (·.1)

lemma map_snd_lettersFrom (before : Bool) (cs : List Char) :
    (lettersFrom before cs).map (·.2) = cs.flatMap lowerChar := by
  induction cs generalizing before with
  | nil => rfl
  | cons c rest ih =>
    rw [lettersFrom, List.map_append, ih, List.flatMap_cons]
    congr 1
    split
    next hc =>
      subst hc
      exact (by decide +kernel : ['σ'] = lowerChar 'Σ')
    next => rw [List.map_map]; exact List.map_id _

lemma map_folded_lettersFrom (before : Bool) (cs : List Char) :
    (lettersFrom before cs).map folded = foldFrom before cs := by
  induction cs generalizing before with
  | nil => rfl
  | cons c rest ih =>
    rw [lettersFrom, List.map_append, ih, foldFrom]
    split
    next => rfl
    next => simp [folded, Function.comp_def]

/-- Nothing but a sigma is marked. -/
lemma snd_eq_of_mem_lettersFrom {before : Bool} {cs : List Char} {l : Bool × Char}
    (h : l ∈ lettersFrom before cs) (hmark : l.1 = true) : l.2 = 'σ' := by
  induction cs generalizing before with
  | nil => simp [lettersFrom] at h
  | cons c rest ih =>
    rcases List.mem_append.1 h with h | h
    · split at h
      next => rw [List.mem_singleton.1 h]
      next =>
        obtain ⟨d, -, rfl⟩ := List.mem_map.1 h
        simp at hmark
    · exact ih h

lemma sameFolded_iff_letters :
    sameFolded a b = true ↔ (letters a).map (·.2) = (letters b).map (·.2) := by
  rw [letters, letters, map_snd_lettersFrom, map_snd_lettersFrom, sameFolded, beq_iff_eq]

lemma fold_eq_iff_letters : fold a = fold b ↔ (letters a).map folded = (letters b).map folded := by
  rw [letters, letters, map_folded_lettersFrom, map_folded_lettersFrom, fold, fold,
    String.ofList_inj]

lemma eq_of_map_eq_map {α β γ : Type} {f : α → β} {g : α → γ} {xs ys : List α}
    (hinj : ∀ x ∈ xs, ∀ y ∈ ys, f x = f y → g x = g y → x = y)
    (hf : xs.map f = ys.map f) (hg : xs.map g = ys.map g) : xs = ys := by
  induction xs generalizing ys with
  | nil => simpa using hf.symm
  | cons x rest ih =>
    cases ys with
    | nil => simp at hf
    | cons y rest' =>
      simp only [List.map_cons, List.cons.injEq] at hf hg
      rw [hinj x List.mem_cons_self y List.mem_cons_self hf.1 hg.1,
        ih (fun x hx y hy => hinj x (List.mem_cons_of_mem _ hx) y (List.mem_cons_of_mem _ hy))
          hf.2 hg.2]

/-- Of the letters by themselves, their folded forms and their marks any two give the third. -/
lemma letters_eq_of_two
    (h : (sameFolded a b = true ∧ fold a = fold b) ∨
      ((sameFolded a b = true ∨ fold a = fold b) ∧ finals a = finals b)) :
    letters a = letters b := by
  have hsigma : ∀ s, ∀ l ∈ letters s, l.1 = true → l.2 = 'σ' := fun s l hl =>
    snd_eq_of_mem_lettersFrom hl
  rw [sameFolded_iff_letters, fold_eq_iff_letters] at h
  rcases h with ⟨hlower, hfold⟩ | ⟨hlower | hfold, hfinals⟩
  · refine eq_of_map_eq_map (fun x hx y hy hlower hfold => ?_) hlower hfold
    -- A marked sigma differs from its final form, an unmarked letter does not.
    rcases x with ⟨_ | _, c⟩ <;> rcases y with ⟨_ | _, d⟩
    case false.false => exact Prod.ext rfl hlower
    case true.true => exact Prod.ext rfl hlower
    case false.true =>
      obtain rfl : d = 'σ' := hsigma b _ hy rfl
      obtain rfl : c = 'σ' := hlower
      exact absurd hfold (by decide)
    case true.false =>
      obtain rfl : c = 'σ' := hsigma a _ hx rfl
      obtain rfl : 'σ' = d := hlower
      exact absurd hfold (by decide)
  · exact eq_of_map_eq_map (fun x _ y _ hmark hlower => Prod.ext hmark hlower) hfinals hlower
  · refine eq_of_map_eq_map (fun x hx y hy hmark hfold => Prod.ext hmark ?_) hfinals hfold
    cases hx' : x.1 with
    | false => simpa [folded, hx', ← hmark] using hfold
    | true => rw [hsigma a x hx hx', hsigma b y hy (by rw [← hmark, hx'])]

/-- Comparing two texts is comparing their keys, unless they are taken for one in either way with
final sigmas at different places. -/
theorem sameFolded_iff_iff_finals :
    (sameFolded a b = true ↔ fold a = fold b) ↔
      (sameFolded a b = true ∨ fold a = fold b → finals a = finals b) := by
  constructor
  · intro hagree hone
    have hboth : sameFolded a b = true ∧ fold a = fold b :=
      hone.elim (fun h => ⟨h, hagree.1 h⟩) (fun h => ⟨hagree.2 h, h⟩)
    rw [finals, finals, letters_eq_of_two (Or.inl hboth)]
  · intro hfinals
    constructor
    · intro hsame
      have hone : sameFolded a b = true ∨ fold a = fold b := Or.inl hsame
      rw [fold_eq_iff_letters, letters_eq_of_two (Or.inr ⟨hone, hfinals hone⟩)]
    · intro hfold
      have hone : sameFolded a b = true ∨ fold a = fold b := Or.inr hfold
      rw [sameFolded_iff_letters, letters_eq_of_two (Or.inr ⟨hone, hfinals hone⟩)]

example : fold "ΑΣ" = fold "ας" ∧ sameFolded "ΑΣ" "ας" = false ∧
    fold "ΟΔΟΣ" ≠ fold "οδοσ" ∧ sameFolded "ΟΔΟΣ" "οδοσ" = true := by decide +kernel

end Text

open Text (sameFolded OneFolding)

/-! ## Look-up in entities -/

namespace Entity

variable {e : Entity} {a b n : String}

/-- Two names of one attribute, whatever the entity. -/
def SameAttribute (a b : String) : Prop := ∀ e : Entity, e.attribute? a = e.attribute? b

lemma sameAttribute_iff : SameAttribute a b ↔ Text.fold a = Text.fold b := by
  constructor
  · intro h
    by_contra hne
    have hput := h (anonymous.put a [])
    rw [attribute?_put, attribute?_put, if_pos rfl, if_neg hne] at hput
    cases hput
  · intro h e
    rw [attribute?, attribute?, h]

instance (a b : String) : Decidable (SameAttribute a b) :=
  decidable_of_iff _ sameAttribute_iff.symm

/-- The attributes that a name finds are those that stand under its key. -/
lemma Built.attribute?_eq_some_iff (h : e.Built) {x : Attribute} :
    e.attribute? n = some x ↔ x ∈ e.attributeList ∧ Text.fold x.name = Text.fold n := by
  constructor
  · intro hx
    exact ⟨TextMap.mem_values_iff.2 ⟨_, hx⟩, (h.fold_name hx).symm⟩
  · rintro ⟨hx, hkey⟩
    obtain ⟨k, hk⟩ := TextMap.mem_values_iff.1 hx
    rw [attribute?, ← hkey, ← h.fold_name hk]
    exact hk

/-- A name finds the attributes that have it exactly if it folds in one way with every name of the
entity. -/
lemma Built.attribute?_iff_hasName (h : e.Built) :
    (∀ x, e.attribute? n = some x ↔ x ∈ e.attributeList ∧ x.hasName n = true) ↔
      ∀ x ∈ e.attributeList, sameFolded x.name n = true ↔ Text.fold x.name = Text.fold n := by
  simp only [h.attribute?_eq_some_iff, Attribute.hasName]
  exact ⟨fun hall x hx => ⟨fun hsame => ((hall x).2 ⟨hx, hsame⟩).2,
      fun hkey => ((hall x).1 ⟨hx, hkey⟩).2⟩,
    fun hall x => and_congr_right fun hx => (hall x hx).symm⟩

/-- With these names, an attribute is found by the names that it has. -/
def FoundByName (names : List String) : Prop :=
  ∀ e : Entity, e.Built → e.attributeNames ⊆ names → ∀ n ∈ names, ∀ x,
    e.attribute? n = some x ↔ x ∈ e.attributeList ∧ x.hasName n = true

lemma oneFolding_iff_foundByName (names : List String) : OneFolding names ↔ FoundByName names := by
  constructor
  · intro h e hbuilt hnames n hn
    exact hbuilt.attribute?_iff_hasName.2 fun x hx =>
      h x.name (hnames (List.mem_map_of_mem hx)) n hn
  · intro h a ha b hb
    have hbuilt : (anonymous.put a []).Built := (Built.start none none).set _
    have hone : (anonymous.put a []).attributeList = [⟨a, []⟩] := rfl
    have hfound := h _ hbuilt (by simpa [attributeNames, hone] using ha) b hb
    simpa [hone] using hbuilt.attribute?_iff_hasName.1 hfound

end Entity

/-! ## Look-up in policies and write scopes -/

namespace Policy

open Entity (SameAttribute)

/-- With these names, the policy of a name is the first one for the same attribute. -/
def FoundByAttribute (names : List String) : Prop :=
  ∀ p : Policy, p.attributes.keys ⊆ names → ∀ n ∈ names,
    p.attribute? n = (p.attributes.entries.find? fun entry => SameAttribute entry.1 n).map (·.2)

lemma oneFolding_iff_foundByAttribute (names : List String) :
    OneFolding names ↔ FoundByAttribute names := by
  constructor
  · intro h p hkeys n hn
    have hsame : ∀ entry ∈ p.attributes.entries,
        sameFolded entry.1 n = decide (SameAttribute entry.1 n) := by
      intro entry hentry
      rw [Bool.eq_iff_iff, decide_eq_true_iff, Entity.sameAttribute_iff]
      exact h _ (hkeys (List.mem_map_of_mem hentry)) n hn
    rw [attribute?, List.find?_congr hsame]
  · intro h a ha b hb
    have hone : ([(a, AttributePolicy.empty)].find? fun entry => sameFolded entry.1 b).map (·.2) =
        ([(a, AttributePolicy.empty)].find? fun entry => SameAttribute entry.1 b).map (·.2) :=
      h { empty with attributes := .ofList [(a, AttributePolicy.empty)] }
        (List.cons_subset.2 ⟨ha, List.nil_subset _⟩) b hb
    rw [← Entity.sameAttribute_iff]
    cases hsame : sameFolded a b <;> by_cases hattribute : SameAttribute a b <;>
      simp [hsame, hattribute] at hone ⊢

/-- The names that a write scope is taken from. -/
def namesInScope (p : Policy) (source : Option Entity) : List String :=
  p.writeAttributes.getD ((source.map Entity.attributeNames).getD [] ++ p.attributes.keys)

lemma writeScope_eq (p : Policy) (source : Option Entity) :
    p.writeScope source = distinctNames (p.namesInScope source) := by
  unfold writeScope namesInScope
  split
  next h => rw [h, Option.getD_some]
  next h => rw [h, Option.getD_none]

/-- With these names, a write scope has every attribute once. -/
def ScopedByAttribute (names : List String) : Prop :=
  ∀ (p : Policy) (source : Option Entity), p.namesInScope source ⊆ names →
    (p.writeScope source).Pairwise (fun a b => ¬ SameAttribute a b) ∧
      ∀ n ∈ p.namesInScope source, ∃ m ∈ p.writeScope source, SameAttribute m n

lemma oneFolding_iff_scopedByAttribute (names : List String) :
    OneFolding names ↔ ScopedByAttribute names := by
  constructor
  · intro h p source hnames
    rw [writeScope_eq]
    constructor
    · refine (pairwise_distinctNames _).imp_of_mem fun {a b} ha hb hne hsame => ?_
      rw [(h a (hnames (mem_of_mem_distinctNames ha)) b (hnames (mem_of_mem_distinctNames hb))).2
        (Entity.sameAttribute_iff.1 hsame)] at hne
      exact absurd hne (by simp)
    · intro n hn
      obtain ⟨m, hm, hsame⟩ := exists_mem_distinctNames hn
      exact ⟨m, hm, Entity.sameAttribute_iff.2
        ((h m (hnames (mem_of_mem_distinctNames hm)) n (hnames hn)).1 hsame)⟩
  · intro h a ha b hb
    obtain ⟨hapart, hcovered⟩ := h { empty with writeAttributes := some [a, b] } none
      (by simp [namesInScope, ha, hb])
    cases hsame : sameFolded a b with
    | true =>
      have hscope : distinctNames [a, b] = [a] := by simp [distinctNames, hsame]
      obtain ⟨m, hm, hattribute⟩ := hcovered b (by simp [namesInScope])
      rw [writeScope_eq, namesInScope, Option.getD_some, hscope, List.mem_singleton] at hm
      subst hm
      exact iff_of_true rfl (Entity.sameAttribute_iff.1 hattribute)
    | false =>
      have hscope : distinctNames [a, b] = [a, b] := by simp [distinctNames, hsame]
      rw [writeScope_eq, namesInScope, Option.getD_some, hscope, List.pairwise_pair] at hapart
      exact iff_of_false (by simp) fun hkey => hapart (Entity.sameAttribute_iff.2 hkey)

end Policy

/-! ## Changes of identifier -/

/-- With these identifiers, a rename is planned between different keys of a store. -/
def RenamedByKey (names : List String) : Prop :=
  ∀ (store : MemoryStore) (s d : Entity), ∀ i ∈ names, ∀ j ∈ names,
    s.identifier = some i → d.identifier = some j →
      (classify (some s) (some d) = some .rename ↔ store.entryKey? s ≠ store.entryKey? d)

lemma oneFolding_iff_renamedByKey (names : List String) :
    OneFolding names ↔ RenamedByKey names := by
  have hrename : ∀ (store : MemoryStore) {s d : Entity} {i j : String}, s.identifier = some i →
      d.identifier = some j →
      ((classify (some s) (some d) = some .rename ↔ store.entryKey? s ≠ store.entryKey? d) ↔
        (sameFolded i j = true ↔ Text.fold i = Text.fold j)) := by
    intro store s d i j hs hd
    have hkeys : store.entryKey? s = store.entryKey? d ↔ Text.fold i = Text.fold j := by
      simp [MemoryStore.entryKey?, hs, hd]
    cases hsame : sameFolded i j <;> simp [classify, hs, hd, hsame, hkeys]
  constructor
  · intro h store s d i hi j hj hs hd
    exact (hrename store hs hd).2 (h i hi j hj)
  · intro h a ha b hb
    exact (hrename (.new "" "") rfl rfl).1 (h (.new "" "") (.named a) (.named b) a ha b hb rfl rfl)

/-- **Everything that goes by names agrees where the foldings do, and nowhere else.**  On a list of
names comparing is comparing keys exactly if names that are taken for one have their final sigmas at
the same places.  The same holds of a name finding the attribute that has it, of the policy of a
name being the one for its attribute, of write scopes with every attribute once, and of renames
between different keys of a store. -/
theorem oneFolding_iff_uses (names : List String) :
    (OneFolding names ↔ ∀ a ∈ names, ∀ b ∈ names,
      sameFolded a b = true ∨ Text.fold a = Text.fold b → Text.finals a = Text.finals b) ∧
    (OneFolding names ↔ Entity.FoundByName names) ∧
    (OneFolding names ↔ Policy.FoundByAttribute names) ∧
    (OneFolding names ↔ Policy.ScopedByAttribute names) ∧
    (OneFolding names ↔ RenamedByKey names) := by
  refine ⟨?foldings, Entity.oneFolding_iff_foundByName names,
    Policy.oneFolding_iff_foundByAttribute names, Policy.oneFolding_iff_scopedByAttribute names,
    oneFolding_iff_renamedByKey names⟩
  exact forall₄_congr fun _ _ _ _ => Text.sameFolded_iff_iff_finals

end StoreSync
