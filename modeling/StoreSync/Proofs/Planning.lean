import StoreSync.Proofs.Casing
import StoreSync.Proofs.Operations

/-!
# What the planner plans for one attribute

The planner asks an arbitrary evaluator and stops at its first error.  A plan that succeeds has
therefore asked every question successfully, and each of its parts is described by sets of texts:

* `Evaluator.yields` — what a list of expressions evaluates to;
* `Reconciler.givenTexts`, `Reconciler.extendedTexts` — the two steps in which the values of an
  attribute come about, on whatever bindings;
* `Reconciler.ownTexts`, `Reconciler.defaultTexts` — the two sources of an attribute's values,
  which `Reconciler.resolvedTexts` combines; `Reconciler.mem_texts_wantedValues` — an update wants
  exactly the resolved texts;
* `Reconciler.heldTexts_diff_force`, `Reconciler.heldTexts_diff_merge` — what the operation for one
  attribute makes of it;
* `Reconciler.createdTexts`, `Reconciler.createOperation_eq_ok` — the texts with which an attribute
  is created;
* `Reconciler.collectOperations_eq_ok` — the operations of a plan are those of its names, in order.
-/

namespace StoreSync

/-! ## Computations that succeed -/

lemma Asked.result_bind_eq_ok {α β : Type} {x : Asked α} {f : α → Asked β} {b : β} :
    (x >>= f).result = .ok b ↔ ∃ a, x.result = .ok a ∧ (f a).result = .ok b := by
  rw [Asked.result_bind]
  cases x.result with
  | ok a => simp [bind, Except.bind]
  | error e => simp [bind, Except.bind]

/-- The texts, other than the empty one, to which expressions evaluate. -/
def Evaluator.yields (ev : Evaluator) (expressions : List String) (b : Bindings) : Set String :=
  {t | t ≠ "" ∧ ∃ e ∈ expressions, ∃ texts, ev.evalTexts e b = .ok texts ∧ t ∈ texts}

/-- The change of a plan carried out on an entity; without a change the entity stays. -/
def PlannedChange.after (plan : Option PlannedChange) (e : Entity) : Entity :=
  plan.elim e fun p => p.change.applyTo e

namespace Reconciler

variable {r : Reconciler}

lemma mem_texts_expand {expressions : List String} {b : Bindings} {vs : List AttributeValue}
    (h : (r.expand expressions b).result = .ok vs) {t : String} :
    t ∈ ValueSet.texts vs ↔ t ∈ r.evaluator.yields expressions b := by
  induction expressions generalizing vs with
  | nil =>
    obtain rfl : ([] : List AttributeValue) = vs := by simpa [expand] using h
    simp [ValueSet.texts, Evaluator.yields]
  | cons e rest ih =>
    simp only [expand, Asked.result_bind_eq_ok, Asked.result_pure] at h
    obtain ⟨texts, htexts, more, hmore, hvs⟩ := h
    obtain rfl : texts.map .string ++ more = vs := by simpa using hvs
    rw [ValueSet.mem_texts_append, ValueSet.mem_texts_strings, ih hmore]
    have htexts : r.evaluator.evalTexts e b = .ok texts := htexts
    simp only [Evaluator.yields, Set.mem_ofPred_eq, List.mem_cons, exists_eq_or_imp, htexts]
    constructor
    · rintro (⟨hne, ht⟩ | ⟨hne, ht⟩)
      · exact ⟨hne, Or.inl ⟨texts, rfl, ht⟩⟩
      · exact ⟨hne, Or.inr ht⟩
    · rintro ⟨hne, ⟨ts, hts, ht⟩ | ht⟩
      · obtain rfl : texts = ts := by simpa using hts
        exact Or.inl ⟨hne, ht⟩
      · exact Or.inr ⟨hne, ht⟩

/-! ## The values of one attribute -/

/-- The forced values of an attribute on bindings if the policy declares any, else those of the
source. -/
def givenTexts (r : Reconciler) (s : Entity) (name : String) (b : Bindings) : Set String :=
  match r.policy.attribute? name with
  | some a => if a.forceValues = [] then s.heldTexts name else r.evaluator.yields a.forceValues b
  | none => s.heldTexts name

lemma mem_texts_given {s : Entity} {name : String} {b : Bindings} {vs : List AttributeValue}
    (h : (r.ownValues name (valuesOf s name) b).result = .ok vs) {t : String} :
    t ∈ ValueSet.texts vs ↔ t ∈ r.givenTexts s name b := by
  unfold ownValues at h
  unfold givenTexts
  cases ha : r.policy.attribute? name with
  | none =>
    simp only [ha, Asked.result_pure, Except.ok.injEq] at h
    subst h
    rfl
  | some a =>
    simp only [ha, List.isEmpty_iff] at h ⊢
    by_cases hforce : a.forceValues = []
    · simp only [hforce, if_true, Asked.result_pure, Except.ok.injEq] at h ⊢
      subst h
      rfl
    · simp only [hforce, if_false] at h ⊢
      exact mem_texts_expand h

/-- Texts joined by those of expressions, when merging or when there are none so far. -/
def extendedTexts (r : Reconciler) (status : AttributeStatus) (expressions : List String)
    (b : Bindings) (texts : Set String) : Set String :=
  {t | t ∈ texts ∨ (status = .merge ∨ texts = ∅) ∧ t ∈ r.evaluator.yields expressions b}

lemma extendedTexts_merge (expressions : List String) (b : Bindings) (texts : Set String) :
    r.extendedTexts .merge expressions b texts = texts ∪ r.evaluator.yields expressions b := by
  ext t
  simp [extendedTexts]

lemma extendedTexts_empty (status : AttributeStatus) (expressions : List String) (b : Bindings) :
    r.extendedTexts status expressions b ∅ = r.evaluator.yields expressions b := by
  ext t
  simp [extendedTexts]

lemma extendedTexts_of_ne_empty {status : AttributeStatus} (hstatus : status ≠ .merge)
    {texts : Set String} (h : texts ≠ ∅) (expressions : List String) (b : Bindings) :
    r.extendedTexts status expressions b texts = texts := by
  ext t
  simp [extendedTexts, hstatus, h]

lemma mem_texts_extendValues {status : AttributeStatus} {expressions : List String}
    {b : Bindings} {vs vs' : List AttributeValue} {texts : Set String}
    (hvs : ∀ t, t ∈ ValueSet.texts vs ↔ t ∈ texts)
    (h : (r.extendValues status expressions b vs).result = .ok vs') {t : String} :
    t ∈ ValueSet.texts vs' ↔ t ∈ r.extendedTexts status expressions b texts := by
  have hempty : ValueSet.normalize vs = [] ↔ texts = ∅ := by
    rw [ValueSet.normalize_eq_nil_iff, Set.eq_empty_iff_forall_notMem]
    simp only [hvs]
  unfold extendValues at h
  simp only [hempty] at h
  split at h
  next hjoin =>
    simp only [Asked.result_bind_eq_ok, Asked.result_pure, Except.ok.injEq] at h
    obtain ⟨more, hmore, rfl⟩ := h
    rw [ValueSet.mem_texts_append, hvs, mem_texts_expand hmore]
    simp [extendedTexts, hjoin]
  next hjoin =>
    simp only [Asked.result_pure, Except.ok.injEq] at h
    subst h
    simp [extendedTexts, hjoin, hvs]

/-- Values are extended unless an expression fails that has to be evaluated. -/
lemma exists_extendValues_iff {status : AttributeStatus} {expressions : List String}
    {b : Bindings} {vs : List AttributeValue} {texts : Set String}
    (hvs : ∀ t, t ∈ ValueSet.texts vs ↔ t ∈ texts) :
    (∃ vs', (r.extendValues status expressions b vs).result = .ok vs') ↔
      (status = .merge ∨ texts = ∅ → ∃ more, (r.expand expressions b).result = .ok more) := by
  have hempty : ValueSet.normalize vs = [] ↔ texts = ∅ := by
    rw [ValueSet.normalize_eq_nil_iff, Set.eq_empty_iff_forall_notMem]
    simp only [hvs]
  unfold extendValues
  simp only [hempty]
  split
  next hjoin =>
    simp only [hjoin, true_imp_iff, Asked.result_bind_eq_ok, Asked.result_pure]
    constructor
    · rintro ⟨-, more, hmore, -⟩
      exact ⟨more, hmore⟩
    · rintro ⟨more, hmore⟩
      exact ⟨_, more, hmore, rfl⟩
  next hjoin => simp [hjoin]

/-- What the expressions of an attribute see during an update. -/
def updateBindings (s d : Entity) (name : String) : Bindings :=
  (Bindings.pair (some s) (some d)).withAttribute
    (ValueSet.texts (valuesOf s name)) (ValueSet.texts (valuesOf d name))

/-- The forced values of an attribute if the policy declares any, else those of the source. -/
def ownTexts (r : Reconciler) (s d : Entity) (name : String) : Set String :=
  match r.policy.attribute? name with
  | some p =>
    if p.forceValues = [] then s.heldTexts name
    else r.evaluator.yields p.forceValues (updateBindings s d name)
  | none => s.heldTexts name

/-- The default values of an attribute. -/
def defaultTexts (r : Reconciler) (s d : Entity) (name : String) : Set String :=
  match r.policy.attribute? name with
  | some p => r.evaluator.yields p.defaultValues (updateBindings s d name)
  | none => ∅

/-- The texts an update resolves for an attribute: its own, joined by the defaults when the
attribute is merged or has none of its own. -/
def resolvedTexts (r : Reconciler) (s d : Entity) (name : String) : Set String :=
  {t | t ∈ r.ownTexts s d name ∨
    (r.policy.statusOf name = .merge ∨ r.ownTexts s d name = ∅) ∧ t ∈ r.defaultTexts s d name}

lemma mem_texts_ownValues {s d : Entity} {name : String} {vs : List AttributeValue}
    (h : (r.ownValues name (valuesOf s name) (updateBindings s d name)).result = .ok vs)
    {t : String} : t ∈ ValueSet.texts vs ↔ t ∈ r.ownTexts s d name :=
  mem_texts_given h

/-- The wanted values are normalized, and their texts are the resolved ones. -/
theorem mem_texts_wantedValues {s d : Entity} {name : String} {vs : List AttributeValue}
    (h : (r.wantedValues s d name).result = .ok vs) :
    (∃ raw, vs = ValueSet.normalize raw) ∧
      ∀ t, t ∈ ValueSet.texts vs ↔ t ∈ r.resolvedTexts s d name := by
  unfold resolvedTexts
  simp only [wantedValues, Asked.result_bind_eq_ok] at h
  obtain ⟨own, hown, h⟩ := h
  have hmem : ∀ t, t ∈ ValueSet.texts own ↔ t ∈ r.ownTexts s d name := fun t =>
    mem_texts_ownValues hown
  cases hp : r.policy.attribute? name with
  | none =>
    simp only [hp, Asked.result_pure, Except.ok.injEq] at h
    subst h
    refine ⟨⟨own, rfl⟩, fun t => ?_⟩
    simp [hmem, defaultTexts, hp]
  | some p =>
    simp only [hp, Asked.result_bind_eq_ok, Asked.result_pure, Except.ok.injEq] at h
    obtain ⟨extended, hextended, rfl⟩ := h
    refine ⟨⟨extended, rfl⟩, fun t => ?_⟩
    have hnormal : ∀ u, u ∈ ValueSet.texts (ValueSet.normalize own) ↔ u ∈ r.ownTexts s d name :=
      fun u => ValueSet.mem_texts_normalize.trans (hmem u)
    rw [ValueSet.mem_texts_normalize, mem_texts_extendValues hnormal hextended]
    simp [extendedTexts, defaultTexts, hp, updateBindings]

/-- With the own values evaluated, the values of an update are found unless an expression fails
among the default values, where these are needed. -/
lemma exists_wantedValues_iff {s d : Entity} {name : String}
    {own : List AttributeValue}
    (hown : (r.ownValues name (valuesOf s name) (updateBindings s d name)).result = .ok own) :
    (∃ vs, (r.wantedValues s d name).result = .ok vs) ↔
      ∀ a, r.policy.attribute? name = some a →
        r.policy.statusOf name = .merge ∨ r.ownTexts s d name = ∅ →
        ∃ vs, (r.expand a.defaultValues (updateBindings s d name)).result = .ok vs := by
  have hnormal : ∀ t, t ∈ ValueSet.texts (ValueSet.normalize own) ↔ t ∈ r.ownTexts s d name :=
    fun t => ValueSet.mem_texts_normalize.trans (mem_texts_ownValues hown)
  cases ha : r.policy.attribute? name with
  | none =>
    simp only [reduceCtorEq, false_imp_iff, implies_true, iff_true]
    refine ⟨ValueSet.normalize own, ?_⟩
    simp only [wantedValues, ha, Asked.result_bind_eq_ok]
    exact ⟨own, hown, rfl⟩
  | some a =>
    simp only [Option.some.injEq, forall_eq', ← exists_extendValues_iff hnormal, wantedValues, ha,
      Asked.result_bind_eq_ok]
    constructor
    · rintro ⟨vs, own', hown', extended, hextended, -⟩
      obtain rfl : own = own' := Except.ok.inj (hown.symm.trans hown')
      exact ⟨extended, hextended⟩
    · rintro ⟨extended, hextended⟩
      exact ⟨_, own, hown, extended, hextended, rfl⟩

/-! ## The operation on one attribute -/

/-- The values of an attribute that may be absent. -/
def presentValues (a : Option Attribute) : List AttributeValue := (a.map Attribute.values).getD []

lemma valuesOf_eq (e : Entity) (name : String) :
    valuesOf e name = presentValues (e.attribute? name) := by
  unfold valuesOf presentValues
  cases e.attribute? name <;> rfl

/-- A planned operation, if there is one, on the attribute it addresses. -/
def afterOperation (op : Option AttributeOperation) (a : Option Attribute) : Option Attribute :=
  op.elim a fun op => op.onAttribute a

lemma mem_heldTexts_ofValues {name : String} {raw : List AttributeValue} {t : String} :
    t ∈ Attribute.heldTexts (some (Attribute.ofValues name (ValueSet.normalize raw))) ↔
      t ∈ ValueSet.texts raw := by
  rw [Attribute.mem_heldTexts_some, Attribute.ofValues, Attribute.mem_texts_addAll,
    ← @ValueSet.mem_texts_normalize raw, ValueSet.mem_texts_iff]
  simp [Attribute.texts]

/-- Removing all values that count leaves none that do. -/
lemma heldTexts_delete_normalize {name : String} {a : Option Attribute}
    (h : ValueSet.normalize (presentValues a) ≠ []) :
    Attribute.heldTexts ((AttributeOperation.mk .delete name
      (ValueSet.normalize (presentValues a))).onAttribute a) = ∅ := by
  simp only [AttributeOperation.onAttribute, List.isEmpty_iff, h, if_false]
  cases a with
  | none => simp
  | some a =>
    simp only [Option.bind_some]
    split
    · simp
    · ext t
      simp only [Attribute.mem_heldTexts_some, Attribute.mem_texts_removeAll,
        Set.mem_empty_iff_false, iff_false]
      rintro ⟨hne, hnot, ht⟩
      rw [← ValueSet.texts_normalize, ValueSet.mem_texts_normalize, ValueSet.mem_texts_iff] at hnot
      exact hnot ⟨hne, ht⟩

/-- Forcing leaves exactly the wanted texts. -/
theorem heldTexts_diff_force (name : String) (raw : List AttributeValue) (a : Option Attribute) :
    Attribute.heldTexts (afterOperation (diffAttribute .force name (ValueSet.normalize raw)
      (ValueSet.normalize (presentValues a))) a) = {t | t ∈ ValueSet.texts raw} := by
  by_cases hwanted : ValueSet.normalize raw = []
  · have hnone : {t | t ∈ ValueSet.texts raw} = ∅ :=
      Set.eq_empty_of_forall_notMem (ValueSet.normalize_eq_nil_iff.1 hwanted)
    by_cases hold : ValueSet.normalize (presentValues a) = []
    · simp only [diffAttribute, hwanted, hold, List.isEmpty_nil, afterOperation, Option.elim_none]
      rw [hnone]
      exact Set.eq_empty_of_forall_notMem (ValueSet.normalize_eq_nil_iff.1 hold)
    · have hdelete := @heldTexts_delete_normalize name a hold
      simp only [diffAttribute, hwanted, List.isEmpty_nil, List.isEmpty_eq_false_iff.2 hold,
        afterOperation, Option.elim_some, hnone]
      exact hdelete
  · have hreplace : Attribute.heldTexts
        ((AttributeOperation.mk .replace name (ValueSet.normalize raw)).onAttribute a) =
          {t | t ∈ ValueSet.texts raw} := by
      ext t
      simp only [AttributeOperation.onAttribute, List.isEmpty_iff, hwanted, if_false]
      exact mem_heldTexts_ofValues
    by_cases hold : ValueSet.normalize (presentValues a) = []
    · simp only [diffAttribute, hold, List.isEmpty_nil, List.isEmpty_eq_false_iff.2 hwanted,
        afterOperation, Option.elim_some]
      exact hreplace
    · simp only [diffAttribute, List.isEmpty_eq_false_iff.2 hold,
        List.isEmpty_eq_false_iff.2 hwanted, afterOperation]
      split
      next hsame =>
        ext t
        exact (ValueSet.same_normalize_iff.1 hsame t).symm
      next => exact hreplace

/-- Merging adds the wanted texts, and keeps the values that were there in front. -/
theorem heldTexts_diff_merge (name : String) (raw : List AttributeValue) (a : Option Attribute) :
    Attribute.heldTexts (afterOperation (diffAttribute .merge name (ValueSet.normalize raw)
      (ValueSet.normalize (presentValues a))) a) =
        Attribute.heldTexts a ∪ {t | t ∈ ValueSet.texts raw} ∧
    presentValues a <+: presentValues (afterOperation (diffAttribute .merge name
      (ValueSet.normalize raw) (ValueSet.normalize (presentValues a))) a) := by
  have hadd : ∀ added : List AttributeValue, (∀ t, t ∈ ValueSet.texts (presentValues a) ∨
        t ∈ ValueSet.texts added ↔ t ∈ ValueSet.texts (presentValues a) ∨ t ∈ ValueSet.texts raw) →
      Attribute.heldTexts ((AttributeOperation.mk .add name added).onAttribute a) =
        Attribute.heldTexts a ∪ {t | t ∈ ValueSet.texts raw} ∧
      presentValues a <+:
        presentValues ((AttributeOperation.mk .add name added).onAttribute a) := by
    intro added hadded
    have hstart : (a.getD ⟨name, []⟩).values = presentValues a := by cases a <;> rfl
    refine ⟨?_, ?_⟩
    · ext t
      simp only [AttributeOperation.onAttribute, Attribute.mem_heldTexts_some,
        Attribute.mem_texts_addAll, Set.mem_union, Set.mem_ofPred_eq]
      have h := hadded t
      rw [@ValueSet.mem_texts_iff (presentValues a), ← hstart,
        @ValueSet.mem_texts_iff added] at h
      have hheld : t ∈ Attribute.heldTexts a ↔ t ≠ "" ∧ t ∈ (a.getD ⟨name, []⟩).texts := by
        show t ∈ ValueSet.texts (presentValues a) ↔ _
        rw [← hstart]
        exact ValueSet.mem_texts_iff
      rw [hheld]
      unfold Attribute.texts
      tauto
    · rw [← hstart]
      exact Attribute.prefix_values_addAll _ _
  have hkeep : (∀ t, t ∈ ValueSet.texts raw → t ∈ ValueSet.texts (presentValues a)) →
      Attribute.heldTexts a = Attribute.heldTexts a ∪ {t | t ∈ ValueSet.texts raw} := fun h =>
    (Set.union_eq_self_of_subset_right fun t ht => h t ht).symm
  by_cases hwanted : ValueSet.normalize raw = []
  · simp only [diffAttribute, hwanted, List.isEmpty_nil, if_true, afterOperation, Option.elim_none]
    exact ⟨hkeep fun t ht => absurd ht (ValueSet.normalize_eq_nil_iff.1 hwanted t),
      List.prefix_rfl⟩
  · by_cases hold : ValueSet.normalize (presentValues a) = []
    · simp only [diffAttribute, hold, List.isEmpty_nil, if_true,
        List.isEmpty_eq_false_iff.2 hwanted, Bool.false_eq_true, if_false, afterOperation,
        Option.elim_some]
      exact hadd _ fun t => by rw [ValueSet.mem_texts_normalize]
    · simp only [diffAttribute, List.isEmpty_eq_false_iff.2 hold,
        List.isEmpty_eq_false_iff.2 hwanted, Bool.false_eq_true, if_false, afterOperation]
      have hmissing : ∀ t, t ∈ ValueSet.texts (ValueSet.missing (ValueSet.normalize raw)
          (ValueSet.normalize (presentValues a))) ↔
            t ∈ ValueSet.texts raw ∧ t ∉ ValueSet.texts (presentValues a) := fun t => by
        rw [ValueSet.mem_texts_missing, ValueSet.mem_texts_normalize, ValueSet.mem_texts_normalize]
      split
      next hnone =>
        refine ⟨hkeep fun t ht => ?_, List.prefix_rfl⟩
        by_contra hnot
        have h := (hmissing t).2 ⟨ht, hnot⟩
        rw [List.isEmpty_iff.1 hnone] at h
        simp [ValueSet.texts] at h
      next => exact hadd _ fun t => by rw [hmissing]; tauto

lemma mem_texts_operation {kind : OperationKind} {name : String} {raw : List AttributeValue}
    {t : String} :
    t ∈ (AttributeOperation.mk kind name (ValueSet.normalize raw)).texts ↔
      t ∈ ValueSet.texts raw := by
  rw [AttributeOperation.texts, ← ValueSet.texts_normalize, ValueSet.mem_texts_normalize]

/-! ## What a plan gives a new entry -/

section Creation

variable {s : Entity} {name : String}

/-- What the expressions of an attribute see during a creation. -/
def createBindings (s : Entity) (name : String) : Bindings :=
  (Bindings.ofSource s).withAttribute (ValueSet.texts (valuesOf s name)) []

/-- The texts with which an attribute is created: its forced values or those of the source, then
the creation values and the default values of the policy. -/
def createdTexts (r : Reconciler) (s : Entity) (name : String) : Set String :=
  let b := createBindings s name
  match r.policy.attribute? name with
  | some a =>
    r.extendedTexts (r.policy.statusOf name) a.defaultValues b
      (r.extendedTexts (r.policy.statusOf name) a.createValues b (r.givenTexts s name b))
  | none => r.givenTexts s name b

lemma givenTexts_subset_createdTexts :
    r.givenTexts s name (createBindings s name) ⊆ r.createdTexts s name := by
  intro t ht
  unfold createdTexts
  split
  · exact Or.inl (Or.inl ht)
  · exact ht

/-- An attribute is created by one addition of normalized values, or left out if it has none. -/
lemma exists_values_of_createOperation {op : Option AttributeOperation}
    (h : (r.createOperation s name).result = .ok op) :
    ∃ vs, (∀ t, t ∈ ValueSet.texts vs ↔ t ∈ r.createdTexts s name) ∧
      op = if (ValueSet.normalize vs).isEmpty then none
        else some ⟨.add, name, ValueSet.normalize vs⟩ := by
  obtain ⟨given, hgiven, h⟩ := Asked.result_bind_eq_ok.1 h
  have hown : ∀ t, t ∈ ValueSet.texts given ↔ t ∈ r.givenTexts s name (createBindings s name) :=
    fun t => mem_texts_given hgiven
  unfold createdTexts
  cases ha : r.policy.attribute? name with
  | none =>
    simp only [ha] at h
    exact ⟨given, hown, (Except.ok.inj h).symm⟩
  | some a =>
    simp only [ha, Asked.result_bind_eq_ok] at h
    obtain ⟨created, hcreated, vs, hdefaults, h⟩ := h
    exact ⟨vs, fun t => mem_texts_extendValues (fun u => mem_texts_extendValues hown hcreated)
      hdefaults, (Except.ok.inj h).symm⟩

/-- The texts that are added are those of the attribute. -/
lemma createOperation_eq_ok {op : Option AttributeOperation}
    (h : (r.createOperation s name).result = .ok op) :
    (∀ o ∈ op, o.kind = .add ∧ o.target = name) ∧
      ∀ t, (∃ o ∈ op, t ∈ o.texts) ↔ t ∈ r.createdTexts s name := by
  obtain ⟨vs, hvs, rfl⟩ := exists_values_of_createOperation h
  split
  next hnone =>
    refine ⟨by simp, fun t => ?_⟩
    have hnot := ValueSet.normalize_eq_nil_iff.1 (List.isEmpty_iff.1 hnone) t
    simp [← hvs, hnot]
  next =>
    refine ⟨by simp, fun t => ?_⟩
    simp only [Option.mem_def, Option.some.injEq, exists_eq_left', mem_texts_operation, hvs]

/-- The values of a creation stand alone where there is nothing yet. -/
lemma heldTexts_after_creation (name : String) (vs : List AttributeValue) :
    Attribute.heldTexts (afterOperation (if (ValueSet.normalize vs).isEmpty then none
      else some ⟨.add, name, ValueSet.normalize vs⟩) none) = {t | t ∈ ValueSet.texts vs} := by
  split
  next hempty =>
    have hnone := ValueSet.normalize_eq_nil_iff.1 (List.isEmpty_iff.1 hempty)
    simp only [afterOperation, Option.elim_none, Attribute.heldTexts_none]
    exact (Set.eq_empty_of_forall_notMem hnone).symm
  next =>
    ext t
    exact mem_heldTexts_ofValues

end Creation

/-! ## The operations of several attributes -/

/-- Collecting succeeds when planning does for every name, and gives the planned operations in the
order of the names. -/
lemma collectOperations_eq_ok {plan : String → Asked (Option AttributeOperation)}
    {names : List String} {ops : List AttributeOperation}
    (h : (collectOperations plan names).result = .ok ops) :
    ∃ f : String → Option AttributeOperation,
      ops = names.filterMap f ∧ ∀ n ∈ names, (plan n).result = .ok (f n) := by
  refine ⟨fun n => (plan n).result.toOption.join, ?_⟩
  induction names generalizing ops with
  | nil => simpa [collectOperations, eq_comm] using h
  | cons n rest ih =>
    simp only [collectOperations, Asked.result_bind_eq_ok, Asked.result_pure,
      Except.ok.injEq] at h
    obtain ⟨op, hop, more, hmore, rfl⟩ := h
    obtain ⟨hops, hrest⟩ := ih hmore
    refine ⟨?_, fun m hm => ?_⟩
    · rw [List.filterMap_cons, hop]
      cases op with
      | none => simpa [Except.toOption] using hops
      | some op => simpa [Except.toOption] using hops
    · rcases List.mem_cons.1 hm with rfl | hm
      · simp [hop, Except.toOption]
      · exact hrest m hm

lemma mem_collectOperations_iff {plan : String → Asked (Option AttributeOperation)}
    {names : List String} {ops : List AttributeOperation} {op : AttributeOperation}
    (h : (collectOperations plan names).result = .ok ops) :
    op ∈ ops ↔ ∃ n ∈ names, (plan n).result = .ok (some op) := by
  obtain ⟨f, rfl, hf⟩ := collectOperations_eq_ok h
  rw [List.mem_filterMap]
  refine exists_congr fun n => and_congr_right fun hn => ?_
  rw [hf n hn, Except.ok.injEq]

end Reconciler

end StoreSync
