import StoreSync.Proofs.Update

/-!
# Updates as fixed points

An update aims at what it resolves from the source record.  Where the aim is reached, nothing is
planned any more (`Reconciler.planUpdate_of_reached`).

One update reaches the aim, but the aim could move with it: expressions may look at the
destination, which the update has changed.  An evaluator that answers lists of texts without
looking there is `Evaluator.Blind`, and with such an evaluator every update is final
(`Reconciler.computeChange_after_update`), whatever the policy says; the conditions may look
wherever they want.
-/

namespace StoreSync

/-- Bindings that differ in what they show of the destination at most. -/
structure Bindings.SameSource (b b' : Bindings) : Prop where
  source : b.source = b'.source
  sourceAttribute : b.sourceAttribute = b'.sourceAttribute

/-- Lists of texts are answered without a look at the destination. -/
def Evaluator.Blind (ev : Evaluator) : Prop :=
  ∀ e b b', b.SameSource b' → ev.evalTexts e b = ev.evalTexts e b'

namespace Reconciler

variable {r : Reconciler} {s d : Entity} {name : String}

/-! ## The aim of an update -/

/-- The destination holds what an update aims at. -/
def Reached (r : Reconciler) (s d : Entity) : Prop :=
  ∀ n ∈ r.policy.writeScope (some s),
    (r.policy.statusOf n = .force → d.heldTexts n = r.resolvedTexts s d n) ∧
    (r.policy.statusOf n = .merge → r.resolvedTexts s d n ⊆ d.heldTexts n)

/-- A forced attribute is left alone exactly if it has what is wanted. -/
lemma diffAttribute_force_eq_none_iff {raw existing : List AttributeValue} :
    diffAttribute .force name (ValueSet.normalize raw) (ValueSet.normalize existing) = none ↔
      ∀ t, t ∈ ValueSet.texts raw ↔ t ∈ ValueSet.texts existing := by
  rw [← ValueSet.same_normalize_iff]
  have hperm : ValueSet.same (ValueSet.normalize raw) (ValueSet.normalize existing) = true ↔
      ((ValueSet.normalize raw).map AttributeValue.canonical).Perm
        ((ValueSet.normalize existing).map AttributeValue.canonical) := by
    rw [ValueSet.same, List.isPerm_iff, ValueSet.texts_normalize, ValueSet.texts_normalize]
  simp only [diffAttribute]
  split
  next hwanted hexisting =>
    rw [hperm, List.isEmpty_iff.1 hwanted, List.isEmpty_iff.1 hexisting]
    simp
  next hwanted hexisting =>
    rw [hperm, List.isEmpty_iff.1 hwanted]
    simpa using hexisting
  next hwanted hexisting =>
    rw [hperm, List.isEmpty_iff.1 hexisting]
    simpa using hwanted
  next =>
    split <;> simp_all

lemma diffAttribute_merge_eq_none {raw existing : List AttributeValue}
    (h : ∀ t ∈ ValueSet.texts raw, t ∈ ValueSet.texts existing) :
    diffAttribute .merge name (ValueSet.normalize raw) (ValueSet.normalize existing) = none := by
  by_cases hwanted : ValueSet.normalize raw = []
  · simp [diffAttribute, hwanted]
  · have hold : ValueSet.normalize existing ≠ [] := by
      intro he
      rw [ValueSet.normalize_eq_nil_iff] at he
      exact hwanted (ValueSet.normalize_eq_nil_iff.2 fun t ht => he t (h t ht))
    have hmissing : ValueSet.missing (ValueSet.normalize raw) (ValueSet.normalize existing) =
        [] := by
      rw [ValueSet.missing, ValueSet.normalize_eq_nil_iff]
      intro t ht
      have hmem : t ∈ ValueSet.texts (ValueSet.missing (ValueSet.normalize raw)
          (ValueSet.normalize existing)) := ValueSet.mem_texts_normalize.2 ht
      rw [ValueSet.mem_texts_missing, ValueSet.mem_texts_normalize,
        ValueSet.mem_texts_normalize] at hmem
      exact hmem.2 (h t hmem.1)
    simp [diffAttribute, List.isEmpty_eq_false_iff.2 hwanted, List.isEmpty_eq_false_iff.2 hold,
      hmissing]

lemma exists_collectOperations {plan : String → Asked (Option AttributeOperation)}
    {names : List String} (h : ∀ n ∈ names, ∃ op, (plan n).result = .ok op) :
    ∃ ops, (collectOperations plan names).result = .ok ops := by
  induction names with
  | nil => exact ⟨_, rfl⟩
  | cons n rest ih =>
    obtain ⟨op, hop⟩ := h n List.mem_cons_self
    obtain ⟨ops, hops⟩ := ih fun m hm => h m (List.mem_cons_of_mem _ hm)
    simp only [collectOperations, Asked.result_bind_eq_ok]
    exact ⟨_, op, hop, ops, hops, rfl⟩

/-- A forced attribute gets no operation exactly if it holds what is resolved for it. -/
lemma eq_none_iff_of_force {n : String} {op : Option AttributeOperation}
    (hop : (r.updateOperation s d n).result = .ok op) (hforce : r.policy.statusOf n = .force) :
    op = none ↔ d.heldTexts n = r.resolvedTexts s d n := by
  rcases updateOperation_eq_ok hop with ⟨hkeep, -⟩ | ⟨raw, hraw, rfl⟩
  · simp [hforce] at hkeep
  · rw [hforce, diffAttribute_force_eq_none_iff, Set.ext_iff]
    exact forall_congr' fun t => (iff_congr (hraw t) Iff.rfl).trans Iff.comm

/-- A merged attribute gets no operation if nothing of what is resolved for it is missing. -/
lemma eq_none_of_merge {n : String} {op : Option AttributeOperation}
    (hop : (r.updateOperation s d n).result = .ok op) (hmerge : r.policy.statusOf n = .merge)
    (hheld : r.resolvedTexts s d n ⊆ d.heldTexts n) : op = none := by
  rcases updateOperation_eq_ok hop with ⟨hkeep, -⟩ | ⟨raw, hraw, rfl⟩
  · simp [hmerge] at hkeep
  · rw [hmerge]
    exact diffAttribute_merge_eq_none fun t ht => hheld ((hraw t).1 ht)

lemma result_updateOperation_of_keep {n : String} (hkeep : r.policy.statusOf n = .keep) :
    (r.updateOperation s d n).result = .ok none := by
  unfold updateOperation
  simp only [hkeep, if_true]
  rfl

/-- No operation is planned for an attribute that is as it should be. -/
lemma Reached.updateOperation_eq_none (h : r.Reached s d) {n : String}
    (hn : n ∈ r.policy.writeScope (some s)) {op : Option AttributeOperation}
    (hop : (r.updateOperation s d n).result = .ok op) : op = none := by
  obtain ⟨hforce, hmerge⟩ := h n hn
  cases hstatus : r.policy.statusOf n with
  | force => exact (eq_none_iff_of_force hop hstatus).2 (hforce hstatus)
  | merge => exact eq_none_of_merge hop hstatus (hmerge hstatus)
  | keep => exact Except.ok.inj (hop.symm.trans (result_updateOperation_of_keep hstatus))

lemma collectOperations_eq_nil_iff {plan : String → Asked (Option AttributeOperation)}
    {names : List String} :
    (collectOperations plan names).result = .ok [] ↔ ∀ n ∈ names, (plan n).result = .ok none := by
  constructor
  · intro h n hn
    obtain ⟨f, hf, hplan⟩ := collectOperations_eq_ok h
    rw [hplan n hn, List.filterMap_eq_nil_iff.1 hf.symm n hn]
  · intro h
    obtain ⟨ops, hops⟩ := exists_collectOperations fun n hn => ⟨none, h n hn⟩
    obtain ⟨f, rfl, hplan⟩ := collectOperations_eq_ok hops
    rw [hops, List.filterMap_eq_nil_iff.2]
    intro n hn
    have heq := (hplan n hn).symm.trans (h n hn)
    exact Except.ok.inj heq

/-- Nothing is planned exactly if nothing is planned for any name in scope. -/
lemma planUpdate_eq_none_iff :
    (r.planUpdate s d).result = .ok none ↔
      ∀ n ∈ r.policy.writeScope (some s), (r.updateOperation s d n).result = .ok none := by
  rw [← collectOperations_eq_nil_iff, planUpdate, Asked.result_bind_eq_ok]
  constructor
  · rintro ⟨ops, hops, h⟩
    split at h
    next hempty => rwa [List.isEmpty_iff.1 hempty] at hops
    next =>
      obtain ⟨id, -, h⟩ := Asked.result_bind_eq_ok.1 h
      obtain ⟨allowed, -, h⟩ := Asked.result_bind_eq_ok.1 h
      simp at h
  · exact fun h => ⟨[], h, rfl⟩

/-- Where the aim is reached, nothing is planned. -/
theorem planUpdate_of_reached (h : r.Reached s d)
    (hsolvable : ∀ n ∈ r.policy.writeScope (some s),
      ∃ op, (r.updateOperation s d n).result = .ok op) :
    (r.planUpdate s d).result = .ok none := by
  rw [planUpdate_eq_none_iff]
  intro n hn
  obtain ⟨op, hop⟩ := hsolvable n hn
  rw [hop, h.updateOperation_eq_none hn hop]

lemma inScope_of_mem {n : String} (hn : n ∈ r.policy.writeScope (some s)) : r.InScope s n :=
  ⟨n, hn, Text.sameFolded_self n⟩

/-! ## Without a look at the destination -/

section Blind

variable {b b' : Bindings}

lemma sameSource_updateBindings (s d d' : Entity) (name : String) :
    (updateBindings s d name).SameSource (updateBindings s d' name) := ⟨rfl, rfl⟩

lemma result_expand_congr (h : r.evaluator.Blind) (hb : b.SameSource b')
    (expressions : List String) :
    (r.expand expressions b).result = (r.expand expressions b').result := by
  induction expressions with
  | nil => rfl
  | cons e rest ih =>
    simp only [expand, Asked.result_bind, ih, Evaluator.askTexts, h e b b' hb]

lemma result_ownValues_congr (h : r.evaluator.Blind) (hb : b.SameSource b')
    (vs : List AttributeValue) :
    (r.ownValues name vs b).result = (r.ownValues name vs b').result := by
  unfold ownValues
  split
  · split
    · rfl
    · exact result_expand_congr h hb _
  · rfl

lemma result_extendValues_congr (h : r.evaluator.Blind) (hb : b.SameSource b')
    (status : AttributeStatus) (expressions : List String) (vs : List AttributeValue) :
    (r.extendValues status expressions b vs).result =
      (r.extendValues status expressions b' vs).result := by
  unfold extendValues
  split
  · simp only [Asked.result_bind, result_expand_congr h hb]
  · rfl

/-- The values that an update wants do not depend on the destination. -/
lemma result_wantedValues_of_blind (h : r.evaluator.Blind) (s d d' : Entity) (name : String) :
    (r.wantedValues s d name).result = (r.wantedValues s d' name).result := by
  have hown : (r.ownValues name (valuesOf s name) (updateBindings s d name)).result =
      (r.ownValues name (valuesOf s name) (updateBindings s d' name)).result :=
    result_ownValues_congr h (sameSource_updateBindings s d d' name) _
  have hextend : ∀ status expressions vs,
      (r.extendValues status expressions (updateBindings s d name) vs).result =
        (r.extendValues status expressions (updateBindings s d' name) vs).result :=
    result_extendValues_congr h (sameSource_updateBindings s d d' name)
  simp only [updateBindings] at hown hextend
  simp only [wantedValues, Asked.result_bind, hown]
  cases r.policy.attribute? name with
  | none => rfl
  | some p => simp only [Asked.result_bind, hextend]

lemma exists_updateOperation_of_blind (h : r.evaluator.Blind) (d' : Entity)
    {op : Option AttributeOperation} (hop : (r.updateOperation s d name).result = .ok op) :
    ∃ op', (r.updateOperation s d' name).result = .ok op' := by
  by_cases hkeep : r.policy.statusOf name = .keep
  · exact ⟨none, result_updateOperation_of_keep hkeep⟩
  · obtain ⟨wanted, hwanted⟩ := (exists_updateOperation_iff hkeep).1 ⟨op, hop⟩
    rw [result_wantedValues_of_blind h s d d'] at hwanted
    exact (exists_updateOperation_iff hkeep).2 ⟨wanted, hwanted⟩

lemma yields_congr {ev : Evaluator} (h : ev.Blind) (hb : b.SameSource b')
    (expressions : List String) :
    ev.yields expressions b = ev.yields expressions b' := by
  ext t
  simp only [Evaluator.yields, h _ b b' hb]

/-- Nor do the texts that it resolves. -/
lemma resolvedTexts_of_blind (h : r.evaluator.Blind) (s d d' : Entity) (name : String) :
    r.resolvedTexts s d name = r.resolvedTexts s d' name := by
  have hyields : ∀ expressions, r.evaluator.yields expressions (updateBindings s d name) =
      r.evaluator.yields expressions (updateBindings s d' name) :=
    yields_congr h (sameSource_updateBindings s d d' name)
  simp only [resolvedTexts, ownTexts, defaultTexts, hyields]

end Blind

/-! ## After an update -/

/-- One update reaches its aim. -/
lemma reached_after_planUpdate (h : r.evaluator.Blind) (hascii : AsciiNames r.policy s)
    {plan : Option PlannedChange} (hplan : (r.planUpdate s d).result = .ok plan) :
    r.Reached s (PlannedChange.after plan d) := by
  intro n hn
  rw [resolvedTexts_of_blind h s (PlannedChange.after plan d) d]
  constructor
  · exact heldTexts_after_force hascii hplan (inScope_of_mem hn)
  · intro hmerge
    rw [(heldTexts_after_merge hascii hplan (inScope_of_mem hn) hmerge).1]
    exact Set.subset_union_right

lemma planUpdate_after_planUpdate (h : r.evaluator.Blind) (hascii : AsciiNames r.policy s)
    {plan : Option PlannedChange} (hplan : (r.planUpdate s d).result = .ok plan) :
    (r.planUpdate s (PlannedChange.after plan d)).result = .ok none := by
  obtain ⟨ops, hops, -⟩ := planUpdate_eq_ok hplan
  obtain ⟨f, -, hf⟩ := collectOperations_eq_ok hops
  exact planUpdate_of_reached (reached_after_planUpdate h hascii hplan)
    fun n hn => exists_updateOperation_of_blind h _ (hf n hn)

/-- A pair that is not renamed is updated. -/
lemma classify_pair (s d : Entity) :
    classify (some s) (some d) = some .rename ∨ classify (some s) (some d) = some .update := by
  simp only [classify]
  split
  · split
    · exact Or.inr rfl
    · exact Or.inl rfl
  · exact Or.inr rfl

lemma classify_congr {d' : Entity} (h : d'.identifier = d.identifier) :
    classify (some s) (some d') = classify (some s) (some d) := by
  simp only [classify, h]

lemma classify_of_update {plan : PlannedChange}
    (h : (r.computeChange (some s) (some d)).result = .ok (some plan))
    (hupdate : plan.change.modification = .update) :
    classify (some s) (some d) = some .update := by
  refine (classify_pair s d).resolve_left fun hrename => ?_
  simp only [computeChange, hrename, planRename, Asked.result_bind_eq_ok, Asked.result_pure,
    Except.ok.injEq, Option.some.injEq] at h
  obtain ⟨planned, ⟨old, -, h⟩, rfl⟩ := h
  cases hid : s.identifier with
  | none => simp [hid] at h
  | some new =>
    simp only [hid, Asked.result_bind_eq_ok, Asked.result_pure, Except.ok.injEq] at h
    obtain ⟨allowed, -, rfl⟩ := h
    simp [Change.rename] at hupdate

/-- **An applied update is a fixed point**: when its operations have been carried out on the
destination, the same source calls for no further change.  The statuses, the expressions, the
allow-list and the conditions of the policy may be any. -/
theorem computeChange_after_update (hascii : AsciiNames r.policy s) (hblind : r.evaluator.Blind)
    {plan : PlannedChange} (hplan : (r.computeChange (some s) (some d)).result = .ok (some plan))
    (hupdate : plan.change.modification = .update) :
    (r.computeChange (some s) (some (plan.change.applyTo d))).result = .ok none := by
  have hclass := classify_of_update hplan hupdate
  have hid : (plan.change.applyTo d).identifier = d.identifier :=
    Change.identifier_applyOperations _ d
  rw [computeChange_update hclass] at hplan
  rw [computeChange_update ((classify_congr hid).trans hclass)]
  have hafter : PlannedChange.after (some plan) d = plan.change.applyTo d := rfl
  rw [← hafter]
  exact planUpdate_after_planUpdate hblind hascii hplan

/-! ### A locker that is assigned anew

The values of one attribute are computed from those of the source, and the condition looks at the
destination.  One attribute loses every value that counts and keeps an empty text, another one has
as an integer what is computed as a text, and only some of what is merged is new. -/

/-- Keys of a locker come with those that are lent to everybody; rooms are given up. -/
def lockerEvaluator : Evaluator where
  evalBool _ b := .ok b.destination.isSome
  evalTexts expression b :=
    match expression with
    | "lent" => .ok (b.sourceAttribute ++ ["42", ""])
    | "nobody" => .ok []
    | _ => .error (.evaluation expression "unknown")

lemma blind_lockerEvaluator : lockerEvaluator.Blind := by
  intro e b b' h
  simp only [lockerEvaluator, h.sourceAttribute]

def lockers : Reconciler :=
  ⟨{ Policy.empty with
      conditions := { Conditions.always with update := .expression "destination" }
      attributes := .ofList [("key", ⟨some .merge, ["lent"], [], []⟩),
        ("phone", ⟨some .keep, [], [], []⟩), ("room", ⟨none, [], ["nobody"], []⟩)]
      writeAttributes := some ["KEY", "room", "cn", "phone"] },
    lockerEvaluator⟩

def lockerBooked : Entity :=
  Entity.putAll (.named "uid=1") [("cn", [.string "B", .string "b", .string "B"]),
    ("Key", [.string "7"]), ("room", [.string "9"]), ("phone", [.string "1"])]

def lockerHeld : Entity :=
  Entity.putAll (.named "UID=1") [("CN", [.string "A"]), ("key", [.integer 42, .boolean true]),
    ("Room", [.string "", .string "5"]), ("phone", [.string "2"])]

def lockerUpdate : Change :=
  .update "UID=1" [⟨.add, "KEY", [.string "7"]⟩, ⟨.delete, "room", [.string "5"]⟩,
    ⟨.replace, "cn", [.string "B", .string "b"]⟩]

/-- The update adds a key, empties the room and writes the name, and it is the last one. -/
theorem computeChange_after_lockerUpdate :
    AsciiNames lockers.policy lockerBooked ∧ lockers.evaluator.Blind ∧
    (lockers.computeChange (some lockerBooked) (some lockerHeld)).result =
      .ok (some ⟨lockerUpdate, true⟩) ∧
    lockerUpdate.modification = .update ∧
    valuesOf (lockerUpdate.applyTo lockerHeld) "room" = [.string ""] ∧
    (lockers.computeChange (some lockerBooked) (some (lockerUpdate.applyTo lockerHeld))).result =
      .ok none := by
  have hascii : AsciiNames lockers.policy lockerBooked :=
    ⟨by decide +kernel, by decide +kernel, by decide +kernel⟩
  have hplan : (lockers.computeChange (some lockerBooked) (some lockerHeld)).result =
      .ok (some ⟨lockerUpdate, true⟩) := by rfl
  exact ⟨hascii, blind_lockerEvaluator, hplan, rfl, by decide +kernel,
    computeChange_after_update hascii blind_lockerEvaluator hplan rfl⟩

end Reconciler

end StoreSync
