import StoreSync.Proofs.FixedPoints

/-!
# Policies without expressions

A plain policy (`Policy.Plain`) asks no evaluator: every plan for a source record that has an
identifier succeeds and is let through, and the values of an attribute are those of the source.

* `Reconciler.Settled` — what an update under a plain policy aims at;
  `Reconciler.planUpdate_of_settled` says that nothing is planned there any more, and
  `Reconciler.settled_after_planUpdate` that one update gets there;
* `Reconciler.exists_planCreate`, `Reconciler.exists_planUpdate`, `Reconciler.exists_planRename`
  — the plans, and what the records hold after them.
-/

namespace StoreSync

/-- A policy that has nothing evaluated and restricts no attribute. -/
structure Policy.Plain (p : Policy) : Prop where
  values : ∀ a ∈ p.attributes.values, a.expressions = []
  conditions : p.conditions = .always
  identifier : p.identifier.expression = none
  scope : p.writeAttributes = none

/-- A policy whose attributes have the values of the source and no others. -/
def Policy.Unscripted (p : Policy) : Prop := ∀ a ∈ p.attributes.values, a.expressions = []

lemma Policy.Unscripted.attribute {p : Policy} (h : p.Unscripted) {name : String}
    {a : AttributePolicy} (ha : p.attribute? name = some a) :
    a.defaultValues = [] ∧ a.forceValues = [] ∧ a.createValues = [] := by
  obtain ⟨e, he, rfl⟩ := Option.map_eq_some_iff.1 ha
  have hmem : e.2 ∈ p.attributes.values :=
    List.mem_map_of_mem (List.mem_of_find?_eq_some he)
  simpa [AttributePolicy.expressions, List.append_eq_nil_iff, and_assoc] using h _ hmem

namespace Reconciler

variable {r : Reconciler} {s d : Entity} {name : String}

lemma result_isAllowed (h : r.policy.Plain) (m : Modification) (b : Bindings) :
    (r.isAllowed m b).result = .ok true := by
  rw [isAllowed, h.conditions]
  cases m <;> rfl

lemma result_ownValues (h : r.policy.Unscripted) (vs : List AttributeValue) (b : Bindings) :
    (r.ownValues name vs b).result = .ok vs := by
  unfold ownValues
  split
  next a ha => simp [(h.attribute ha).2.1]
  next => rfl

/-- Nothing is added by a list of no expressions. -/
lemma result_extendValues_nil (status : AttributeStatus) (b : Bindings)
    (vs : List AttributeValue) : (r.extendValues status [] b vs).result = .ok vs := by
  unfold extendValues
  split
  · rw [expand, Asked.result_bind_eq_ok]
    exact ⟨[], rfl, by simp⟩
  · rfl

lemma exists_wantedValues (h : r.policy.Unscripted) (s d : Entity) (name : String) :
    ∃ vs, (r.wantedValues s d name).result = .ok vs := by
  refine (exists_wantedValues_iff (result_ownValues h _ _)).2 fun a ha _ => ?_
  rw [(h.attribute ha).1]
  exact ⟨[], rfl⟩

/-- Without value expressions an update wants what the source holds. -/
lemma resolvedTexts_of_unscripted (h : r.policy.Unscripted) (s d : Entity) (name : String) :
    r.resolvedTexts s d name = s.heldTexts name := by
  have hown : r.ownTexts s d name = s.heldTexts name := by
    unfold ownTexts
    split
    next a ha => rw [if_pos (h.attribute ha).2.1]
    next => rfl
  have hdefault : r.defaultTexts s d name = ∅ := by
    unfold defaultTexts
    split
    next a ha =>
      rw [(h.attribute ha).1]
      ext t
      simp [Evaluator.yields]
    next => rfl
  ext t
  simp [resolvedTexts, hown, hdefault]

/-! ## Updates -/

/-- The destination holds what an update under a plain policy aims at. -/
def Settled (r : Reconciler) (s d : Entity) : Prop :=
  ∀ n ∈ r.policy.writeScope (some s),
    (r.policy.statusOf n = .force → d.heldTexts n = s.heldTexts n) ∧
    (r.policy.statusOf n = .merge → s.heldTexts n ⊆ d.heldTexts n)

lemma exists_updateOperation (h : r.policy.Unscripted) (s d : Entity) (name : String) :
    ∃ op, (r.updateOperation s d name).result = .ok op := by
  by_cases hkeep : r.policy.statusOf name = .keep
  · exact ⟨none, result_updateOperation_of_keep hkeep⟩
  · exact (exists_updateOperation_iff hkeep).2 (exists_wantedValues h s d name)

lemma exists_operations (h : r.policy.Unscripted) (s d : Entity) :
    ∃ ops, (collectOperations (r.updateOperation s d)
      (r.policy.writeScope (some s))).result = .ok ops :=
  exists_collectOperations fun n _ => exists_updateOperation h s d n

/-- An update is planned, let through, and about the record itself. -/
lemma exists_planUpdate (h : r.policy.Plain) {id : String} (hid : d.identifier = some id) :
    (r.planUpdate s d).result = .ok none ∨
      ∃ ops, (r.planUpdate s d).result = .ok (some ⟨.update id ops, true⟩) := by
  obtain ⟨ops, hops⟩ := exists_operations h.values s d
  rw [result_planUpdate hops (result_isAllowed h .update), destinationIdentifier, hid]
  by_cases hempty : ops = []
  · exact Or.inl (if_pos hempty)
  · exact Or.inr ⟨ops, if_neg hempty⟩

lemma Settled.reached (h : r.policy.Plain) (hsettled : r.Settled s d) : r.Reached s d := by
  intro n hn
  rw [resolvedTexts_of_unscripted h.values]
  exact hsettled n hn

/-- Where the aim is reached, nothing is planned. -/
theorem planUpdate_of_settled (h : r.policy.Plain) (hsettled : r.Settled s d) :
    (r.planUpdate s d).result = .ok none :=
  planUpdate_of_reached (hsettled.reached h) fun n _ => exists_updateOperation h.values s d n

/-- One update reaches the aim. -/
theorem settled_after_planUpdate (h : r.policy.Plain) (hascii : AsciiNames r.policy s)
    {plan : Option PlannedChange} (hplan : (r.planUpdate s d).result = .ok plan) :
    r.Settled s (PlannedChange.after plan d) := by
  intro n hn
  constructor
  · intro hforce
    rw [heldTexts_after_force hascii hplan (inScope_of_mem hn) hforce,
      resolvedTexts_of_unscripted h.values]
  · intro hmerge
    rw [(heldTexts_after_merge hascii hplan (inScope_of_mem hn) hmerge).1,
      resolvedTexts_of_unscripted h.values]
    exact Set.subset_union_right

/-- What an attribute holds after an update: what it held, or what the source holds, or both. -/
lemma heldTexts_after_planUpdate (h : r.policy.Plain) (hascii : AsciiNames r.policy s)
    {plan : Option PlannedChange} (hplan : (r.planUpdate s d).result = .ok plan) (name : String) :
    (PlannedChange.after plan d).heldTexts name = d.heldTexts name ∨
      (PlannedChange.after plan d).heldTexts name = s.heldTexts name ∨
      (PlannedChange.after plan d).heldTexts name = d.heldTexts name ∪ s.heldTexts name := by
  by_cases hname : r.InScope s name
  · cases hstatus : r.policy.statusOf name with
    | force =>
      rw [heldTexts_after_force hascii hplan hname hstatus, resolvedTexts_of_unscripted h.values]
      exact Or.inr (Or.inl rfl)
    | merge =>
      rw [(heldTexts_after_merge hascii hplan hname hstatus).1,
        resolvedTexts_of_unscripted h.values]
      exact Or.inr (Or.inr rfl)
    | keep =>
      rw [Entity.heldTexts_eq, attribute?_after_keep hascii hplan hname hstatus,
        ← Entity.heldTexts_eq]
      exact Or.inl rfl
  · rw [Entity.heldTexts_eq, attribute?_after_planUpdate_of_notInScope hascii hplan hname,
      ← Entity.heldTexts_eq]
    exact Or.inl rfl

/-! ## Renames and creations -/

lemma exists_planRename (h : r.policy.Plain) {old new : String} (hd : d.identifier = some old)
    (hs : s.identifier = some new) :
    (r.planRename s d).result = .ok ⟨.rename old new, true⟩ := by
  rw [planRename, Asked.result_bind_eq_ok]
  refine ⟨old, by simp [destinationIdentifier, hd], ?_⟩
  simp only [hs, Asked.result_bind_eq_ok]
  exact ⟨true, result_isAllowed h _ _, rfl⟩

/-- Without value expressions an attribute is created with the values of the source. -/
lemma result_createOperation (h : r.policy.Unscripted) (s : Entity) (name : String) :
    (r.createOperation s name).result =
      .ok (if (ValueSet.normalize (valuesOf s name)).isEmpty then none
        else some ⟨.add, name, ValueSet.normalize (valuesOf s name)⟩) := by
  unfold createOperation
  simp only [Asked.result_bind_eq_ok]
  refine ⟨_, result_ownValues h _ _, ?_⟩
  split
  next a ha =>
    simp only [(h.attribute ha).1, (h.attribute ha).2.2, Asked.result_bind_eq_ok]
    exact ⟨_, result_extendValues_nil .., _, result_extendValues_nil .., rfl⟩
  next =>
    rw [Asked.result_bind_eq_ok]
    exact ⟨_, rfl, rfl⟩

/-- A creation is planned and let through, and the new record holds what the source holds. -/
theorem exists_planCreate (h : r.policy.Plain) (hascii : AsciiNames r.policy s) {id : String}
    (hid : s.identifier = some id) :
    ∃ ops, (r.planCreate s).result = .ok ⟨.create id ops, true⟩ ∧
      ∀ name, r.InScope s name →
        (Change.applyOperations ops (.named id)).heldTexts name = s.heldTexts name := by
  obtain ⟨ops, hops⟩ :=
    exists_collectOperations fun n (_ : n ∈ r.policy.writeScope (some s)) =>
      ⟨_, result_createOperation h.values s n⟩
  obtain ⟨f, rfl, hf⟩ := collectOperations_eq_ok hops
  have hop : ∀ n ∈ r.policy.writeScope (some s), f n =
      if (ValueSet.normalize (valuesOf s n)).isEmpty then none
      else some ⟨.add, n, ValueSet.normalize (valuesOf s n)⟩ := by
    intro n hn
    have hresult := hf n hn
    rw [result_createOperation h.values] at hresult
    exact (Except.ok.inj hresult).symm
  refine ⟨(r.policy.writeScope (some s)).filterMap f, ?_, ?_⟩
  · unfold planCreate
    simp only [hid]
    rw [Asked.result_bind_eq_ok]
    refine ⟨id, rfl, ?_⟩
    rw [Asked.result_bind_eq_ok]
    refine ⟨_, hops, ?_⟩
    rw [Asked.result_bind_eq_ok]
    exact ⟨true, result_isAllowed h _ _, rfl⟩
  · rintro name ⟨n, hn, hsame⟩
    have hfold := (Text.sameFolded_iff_fold_eq (hascii.writeScope.1 n hn)).1 hsame
    have htarget : ∀ m ∈ r.policy.writeScope (some s), ∀ op, f m = some op → op.target = m := by
      intro m hm op hfm
      rw [hop m hm] at hfm
      split at hfm
      · simp at hfm
      · rw [← Option.some.inj hfm]
    have hfresh : (Entity.named id).attribute? name = none := rfl
    have hheld : s.heldTexts name = {t | t ∈ ValueSet.texts (valuesOf s n)} := by
      rw [Entity.heldTexts, valuesOf_congr s hfold]
    rw [Entity.heldTexts_eq,
      attribute?_applyOperations_filterMap hascii.writeScope.2 htarget hn _ hfold, hop n hn, hfresh,
      heldTexts_after_creation, hheld]

end Reconciler

end StoreSync
