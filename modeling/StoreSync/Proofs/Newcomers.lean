import StoreSync.Proofs.Counterparts
import StoreSync.Proofs.Creations

/-!
# New entries in the next pass

A creation and an update resolve the values of an attribute in the same way, but for the creation
values of the policy, which only count when a record is created.  So the next pass over the same
source finds a new entry as it should be, except where a forced attribute has nothing of its own
and was given creation values instead (`Reconciler.Provisional`): an update puts the default values
in their place, and leaves the entry alone only if these are the same (`Reconciler.Renewed`).

* `Reconciler.heldTexts_made` — a new entry holds what its attributes are created with;
* `Reconciler.updateOperation_of_lasting`, `Reconciler.updateOperation_of_provisional` — what the
  next pass makes of one attribute;
* `Reconciler.computeChange_after_creation` — what it makes of the entry.
-/

namespace StoreSync

namespace Reconciler

variable {r : Reconciler} {s d : Entity} {name : String}

/-! ## Values for the time being -/

/-- The creation values of an attribute. -/
def creationTexts (r : Reconciler) (s : Entity) (name : String) : Set String :=
  match r.policy.attribute? name with
  | some a => r.evaluator.yields a.createValues (createBindings s name)
  | none => ∅

/-- A forced attribute that has nothing of its own, but creation values. -/
def Provisional (r : Reconciler) (s : Entity) (name : String) : Prop :=
  r.policy.statusOf name = .force ∧ r.givenTexts s name (createBindings s name) = ∅ ∧
    r.creationTexts s name ≠ ∅

/-- The default values of an attribute can be evaluated, and are its creation values again. -/
def Renewed (r : Reconciler) (s : Entity) (name : String) : Prop :=
  ∃ a vs, r.policy.attribute? name = some a ∧
    (r.expand a.defaultValues (createBindings s name)).result = .ok vs ∧
    r.evaluator.yields a.defaultValues (createBindings s name) = r.creationTexts s name

lemma sameSource_createBindings (s d : Entity) (name : String) :
    (createBindings s name).SameSource (updateBindings s d name) := ⟨rfl, rfl⟩

lemma givenTexts_of_blind (h : r.evaluator.Blind) (s d : Entity) (name : String) :
    r.givenTexts s name (createBindings s name) = r.ownTexts s d name := by
  simp only [givenTexts, ownTexts, yields_congr h (sameSource_createBindings s d name)]

/-- An update resolves the own values of an attribute, extended by the default ones. -/
lemma resolvedTexts_of_attribute? (h : r.evaluator.Blind) (s d : Entity)
    {a : AttributePolicy} (ha : r.policy.attribute? name = some a) :
    r.resolvedTexts s d name = r.extendedTexts (r.policy.statusOf name) a.defaultValues
      (createBindings s name) (r.ownTexts s d name) := by
  ext t
  simp only [resolvedTexts, extendedTexts, defaultTexts, ha,
    yields_congr h (sameSource_createBindings s d name)]

/-- Before the default values, a forced attribute that lasts has its own values only. -/
lemma extendedTexts_of_lasting (h : r.evaluator.Blind) (d : Entity) {a : AttributePolicy}
    (ha : r.policy.attribute? name = some a) (hforce : r.policy.statusOf name = .force)
    (hlasting : ¬ r.Provisional s name) :
    r.extendedTexts .force a.createValues (createBindings s name) (r.ownTexts s d name) =
      r.ownTexts s d name := by
  by_cases hown : r.ownTexts s d name = ∅
  · have hcreation : r.creationTexts s name = ∅ := by
      by_contra hne
      exact hlasting ⟨hforce, (givenTexts_of_blind h s d name).trans hown, hne⟩
    rw [hown, extendedTexts_empty]
    simpa only [creationTexts, ha] using hcreation
  · exact extendedTexts_of_ne_empty (by simp) hown _ _

/-- A forced attribute that lasts is created with what an update resolves for it. -/
lemma createdTexts_of_lasting (h : r.evaluator.Blind) (d : Entity)
    (hforce : r.policy.statusOf name = .force) (hlasting : ¬ r.Provisional s name) :
    r.createdTexts s name = r.resolvedTexts s d name := by
  cases ha : r.policy.attribute? name with
  | none =>
    simp only [createdTexts, ha, givenTexts_of_blind h s d]
    ext t
    simp [resolvedTexts, defaultTexts, ha]
  | some a =>
    simp only [createdTexts, ha, givenTexts_of_blind h s d, hforce,
      resolvedTexts_of_attribute? h s d ha, extendedTexts_of_lasting h d ha hforce hlasting]

/-- A provisional attribute is created with its creation values, and an update resolves its default
ones. -/
lemma createdTexts_of_provisional (h : r.evaluator.Blind) (d : Entity) {a : AttributePolicy}
    (ha : r.policy.attribute? name = some a) (hprovisional : r.Provisional s name) :
    r.createdTexts s name = r.creationTexts s name ∧
      r.resolvedTexts s d name =
        r.evaluator.yields a.defaultValues (createBindings s name) := by
  obtain ⟨hforce, hgiven, hcreation⟩ := hprovisional
  have hown : r.ownTexts s d name = ∅ := (givenTexts_of_blind h s d name).symm.trans hgiven
  rw [resolvedTexts_of_attribute? h s d ha, hown, extendedTexts_empty]
  refine ⟨?_, rfl⟩
  simp only [creationTexts, ha] at hcreation ⊢
  simp only [createdTexts, ha, hgiven, hforce, extendedTexts_empty]
  exact extendedTexts_of_ne_empty (by simp) hcreation _ _

/-- A merged attribute is created with at least what an update resolves for it. -/
lemma resolvedTexts_subset_createdTexts (h : r.evaluator.Blind) (d : Entity)
    (hmerge : r.policy.statusOf name = .merge) :
    r.resolvedTexts s d name ⊆ r.createdTexts s name := by
  cases ha : r.policy.attribute? name with
  | none =>
    simp only [createdTexts, ha, givenTexts_of_blind h s d]
    intro t ht
    simpa [resolvedTexts, defaultTexts, ha] using ht
  | some a =>
    simp only [createdTexts, ha, givenTexts_of_blind h s d, hmerge,
      resolvedTexts_of_attribute? h s d ha, extendedTexts_merge]
    exact Set.union_subset_union_left _ Set.subset_union_left

/-! ## Expressions that are evaluated -/

/-- A creation has evaluated the own values of an attribute, and the default values unless there
were others before them. -/
lemma exists_of_createOperation {op : Option AttributeOperation}
    (h : (r.createOperation s name).result = .ok op) :
    (∃ own, (r.ownValues name (valuesOf s name) (createBindings s name)).result = .ok own) ∧
      ∀ a, r.policy.attribute? name = some a →
        (r.policy.statusOf name = .merge ∨
          r.extendedTexts (r.policy.statusOf name) a.createValues (createBindings s name)
            (r.givenTexts s name (createBindings s name)) = ∅) →
        ∃ vs, (r.expand a.defaultValues (createBindings s name)).result = .ok vs := by
  obtain ⟨own, hown, h⟩ := Asked.result_bind_eq_ok.1 h
  refine ⟨⟨own, hown⟩, fun a ha => ?_⟩
  simp only [ha, Asked.result_bind_eq_ok] at h
  obtain ⟨created, hcreated, vs, hdefaults, -⟩ := h
  exact (exists_extendValues_iff fun t =>
    mem_texts_extendValues (fun u => mem_texts_given hown) hcreated).1 ⟨vs, hdefaults⟩

/-- After a creation, an update fails only at default values that it needs and the creation did
not. -/
lemma exists_updateOperation_of_creation (h : r.evaluator.Blind) (d : Entity)
    {op : Option AttributeOperation} (hop : (r.createOperation s name).result = .ok op)
    (hkeep : r.policy.statusOf name ≠ .keep) :
    (∃ op', (r.updateOperation s d name).result = .ok op') ↔
      ∀ a, r.policy.attribute? name = some a →
        r.policy.statusOf name = .merge ∨ r.ownTexts s d name = ∅ →
        ∃ vs, (r.expand a.defaultValues (createBindings s name)).result = .ok vs := by
  obtain ⟨⟨own, hown⟩, -⟩ := exists_of_createOperation hop
  have hsame := sameSource_createBindings s d name
  rw [result_ownValues_congr h hsame] at hown
  rw [exists_updateOperation_iff hkeep, exists_wantedValues_iff hown]
  simp only [result_expand_congr h hsame]

/-! ## The next pass -/

section Next

variable {e : Entity} {op : Option AttributeOperation}

/-- An attribute that is not provisional is left as it was created. -/
lemma updateOperation_of_lasting (h : r.evaluator.Blind)
    (hop : (r.createOperation s name).result = .ok op)
    (hheld : e.heldTexts name = r.createdTexts s name) (hlasting : ¬ r.Provisional s name) :
    (r.updateOperation s e name).result = .ok none := by
  obtain ⟨-, hdefaults⟩ := exists_of_createOperation hop
  rw [givenTexts_of_blind h s e] at hdefaults
  cases hstatus : r.policy.statusOf name with
  | keep => exact result_updateOperation_of_keep hstatus
  | merge =>
    rw [hstatus] at hdefaults
    obtain ⟨op', hop'⟩ := (exists_updateOperation_of_creation h e hop (by simp [hstatus])).2
      fun a ha _ => hdefaults a ha (Or.inl rfl)
    rw [hop', eq_none_of_merge hop' hstatus
      (hheld ▸ resolvedTexts_subset_createdTexts h e hstatus)]
  | force =>
    rw [hstatus] at hdefaults
    obtain ⟨op', hop'⟩ := (exists_updateOperation_of_creation h e hop (by simp [hstatus])).2
      fun a ha hneeded => hdefaults a ha <| by
        rw [extendedTexts_of_lasting h e ha hstatus hlasting]
        simpa [hstatus] using hneeded
    rw [hop', (eq_none_iff_of_force hop' hstatus).2
      (hheld.trans (createdTexts_of_lasting h e hstatus hlasting))]

/-- A provisional attribute is left as it was created exactly if it is renewed. -/
lemma updateOperation_of_provisional (h : r.evaluator.Blind)
    (hop : (r.createOperation s name).result = .ok op)
    (hheld : e.heldTexts name = r.createdTexts s name) (hprovisional : r.Provisional s name) :
    (r.updateOperation s e name).result = .ok none ↔ r.Renewed s name := by
  obtain ⟨hforce, hgiven, hcreation⟩ := hprovisional
  have hown : r.ownTexts s e name = ∅ := (givenTexts_of_blind h s e name).symm.trans hgiven
  obtain ⟨a, ha⟩ : ∃ a, r.policy.attribute? name = some a := by
    cases ha : r.policy.attribute? name with
    | none => simp [creationTexts, ha] at hcreation
    | some a => exact ⟨a, rfl⟩
  obtain ⟨hcreated, hresolved⟩ := createdTexts_of_provisional h e ha ⟨hforce, hgiven, hcreation⟩
  have hsolvable := exists_updateOperation_of_creation h e hop (by simp [hforce])
  simp only [ha, Option.some.injEq, forall_eq', hown, or_true, true_imp_iff] at hsolvable
  have hrenewed : r.Renewed s name ↔
      (∃ vs, (r.expand a.defaultValues (createBindings s name)).result = .ok vs) ∧
        r.evaluator.yields a.defaultValues (createBindings s name) = r.creationTexts s name := by
    simp [Renewed, ha]
  rw [hrenewed, ← hsolvable, ← hresolved, ← hcreated, ← hheld]
  constructor
  · intro hnone
    exact ⟨⟨none, hnone⟩, ((eq_none_iff_of_force hnone hforce).1 rfl).symm⟩
  · rintro ⟨⟨op', hop'⟩, heq⟩
    rw [hop', (eq_none_iff_of_force hop' hforce).2 heq.symm]

end Next

/-! ## The new entry -/

variable {plan : PlannedChange}

lemma identifier_of_planCreate (h : (r.planCreate s).result = .ok plan) {id : String}
    (hid : s.identifier = some id) : plan.change.identifier = id := by
  simp only [planCreate, hid, Asked.result_bind_eq_ok] at h
  obtain ⟨id', hid', ops, -, allowed, -, hplan⟩ := h
  obtain rfl := Except.ok.inj hplan
  exact (Except.ok.inj hid').symm

/-- A source with an identifier and the entry created for it call for an update. -/
lemma classify_made (h : (r.planCreate s).result = .ok plan) (hid : s.identifier.isSome = true) :
    classify (some s) (some plan.change.made) = some .update := by
  obtain ⟨id, hid⟩ := Option.isSome_iff_exists.1 hid
  have hmade : plan.change.made.identifier = some id := by
    rw [← identifier_of_planCreate h hid]
    exact Change.identifier_applyOperations _ _
  simp [classify, hid, hmade, Text.sameFolded_self]

/-- A new entry holds, under every name in scope, what its attribute is created with. -/
theorem heldTexts_made (hascii : AsciiNames r.policy s) (h : (r.planCreate s).result = .ok plan)
    {n : String} (hn : n ∈ r.policy.writeScope (some s)) :
    (∃ op, (r.createOperation s n).result = .ok op) ∧
      plan.change.made.heldTexts n = r.createdTexts s n := by
  obtain ⟨id, ops, hchange, hops⟩ := operations_of_planCreate h
  obtain ⟨f, rfl, hf⟩ := collectOperations_eq_ok hops
  refine ⟨⟨f n, hf n hn⟩, ?_⟩
  have htarget : ∀ m ∈ r.policy.writeScope (some s), ∀ op, f m = some op → op.target = m :=
    fun m hm op hop => ((createOperation_eq_ok (hf m hm)).1 op hop).2
  obtain ⟨vs, hvs, hop⟩ := exists_values_of_createOperation (hf n hn)
  have hmade : plan.change.made.attribute? n = afterOperation (f n) none := by
    rw [hchange]
    exact attribute?_applyOperations_filterMap hascii.writeScope.2 htarget hn (.named id) rfl
  rw [Entity.heldTexts_eq, hmade, hop, heldTexts_after_creation]
  exact Set.ext hvs

/-- **A new entry in the next pass.**  An evaluator that does not look at the destination has the
next pass leave a new entry alone exactly if every provisional attribute is renewed.  Otherwise
the pass, unless it fails, updates such attributes, and leaves all others as they were created. -/
theorem computeChange_after_creation (hascii : AsciiNames r.policy s) (hblind : r.evaluator.Blind)
    (hid : s.identifier.isSome = true) (hplan : (r.planCreate s).result = .ok plan) :
    ((r.computeChange (some s) (some plan.change.made)).result = .ok none ↔
      ∀ n ∈ r.policy.writeScope (some s), r.Provisional s n → r.Renewed s n) ∧
    ∀ next, (r.computeChange (some s) (some plan.change.made)).result = .ok (some next) →
      next.change.modification = .update ∧
      (∀ op ∈ next.change.operations, r.Provisional s op.target ∧ ¬ r.Renewed s op.target) ∧
      ∀ name, (∀ n ∈ r.policy.writeScope (some s), r.Provisional s n → ¬ r.Renewed s n →
          Text.fold n ≠ Text.fold name) →
        (next.change.applyTo plan.change.made).attribute? name =
          plan.change.made.attribute? name := by
  rw [computeChange_update (classify_made hplan hid)]
  have hnone : ∀ n ∈ r.policy.writeScope (some s),
      (r.updateOperation s plan.change.made n).result = .ok none ↔
        (r.Provisional s n → r.Renewed s n) := by
    intro n hn
    obtain ⟨⟨op, hop⟩, hheld⟩ := heldTexts_made hascii hplan hn
    by_cases hprovisional : r.Provisional s n
    · rw [updateOperation_of_provisional hblind hop hheld hprovisional]
      exact (imp_iff_right hprovisional).symm
    · exact iff_of_true (updateOperation_of_lasting hblind hop hheld hprovisional)
        fun h => absurd h hprovisional
  refine ⟨planUpdate_eq_none_iff.trans (forall₂_congr hnone), fun next hnext => ?_⟩
  obtain ⟨id, ops, -, hchange, -, hops⟩ := operations_of_planUpdate hnext
  obtain ⟨f, rfl, hf⟩ := collectOperations_eq_ok hops
  have hmem : ∀ op ∈ (r.policy.writeScope (some s)).filterMap f,
      op.target ∈ r.policy.writeScope (some s) ∧ r.Provisional s op.target ∧
        ¬ r.Renewed s op.target := by
    intro op hop
    obtain ⟨n, hn, hfn⟩ := List.mem_filterMap.1 hop
    have hplanned := hf n hn
    rw [hfn] at hplanned
    obtain rfl := target_updateOperation hplanned
    refine ⟨hn, Classical.not_imp.1 fun h => ?_⟩
    rw [(hnone _ hn).2 h] at hplanned
    simp at hplanned
  rw [hchange]
  refine ⟨rfl, fun op hop => (hmem op hop).2, fun name hname => ?_⟩
  refine Change.attribute?_applyOperations_of_forall_ne (fun op hop => ?_) _
  obtain ⟨hn, hprovisional, hrenewed⟩ := hmem op hop
  exact hname op.target hn hprovisional hrenewed

/-! ### A guest at an inn

Guests get a spare key and a language when they arrive, if nobody has noted others.  The language
is also what an update falls back to, the key is not. -/

def inn : Reconciler :=
  ⟨{ Policy.empty with
      attributes := .ofList [("door", ⟨some .merge, ["\"yard\""], [], ["\"attic\""]⟩),
        ("key", ⟨none, [], [], ["\"spare\""]⟩),
        ("language", ⟨none, ["\"en\""], [], ["\"en\""]⟩),
        ("note", ⟨some .keep, [], [], ["\"new\""]⟩)] },
    .ofTable [("\"attic\"", .texts ["attic"]), ("\"en\"", .texts ["en"]),
      ("\"new\"", .texts ["new"]), ("\"spare\"", .texts ["spare"]),
      ("\"yard\"", .texts ["yard"])]⟩

def guest : Entity :=
  Entity.putAll (.named "uid=7") [("uid", [.string "7"]), ("Door", [.string "12"]),
    ("KEY", [.string ""])]

def arriving : Change :=
  .create "uid=7" [⟨.add, "Door", [.string "12", .string "attic", .string "yard"]⟩,
    ⟨.add, "KEY", [.string "spare"]⟩, ⟨.add, "uid", [.string "7"]⟩,
    ⟨.add, "language", [.string "en"]⟩, ⟨.add, "note", [.string "new"]⟩]

lemma asciiNames_guest : AsciiNames inn.policy guest :=
  ⟨by decide +kernel, by decide +kernel, by decide +kernel⟩

lemma planCreate_guest : (inn.planCreate guest).result = .ok ⟨arriving, true⟩ := by rfl

lemma computeChange_guest :
    (inn.computeChange (some guest) (some arriving.made)).result =
      .ok (some ⟨.update "uid=7" [⟨.delete, "KEY", [.string "spare"]⟩], true⟩) := by rfl

/-- New entries are not always left alone: the guest loses the key. -/
theorem not_forall_rests_after_creation :
    ¬ ∀ (r : Reconciler) (s : Entity) (plan : PlannedChange), AsciiNames r.policy s → s.Built →
      s.identifier.isSome = true → r.evaluator.Blind → (r.planCreate s).result = .ok plan →
      (r.computeChange (some s) (some plan.change.made)).result = .ok none := by
  intro h
  have hrests := h inn guest ⟨arriving, true⟩ asciiNames_guest ((Entity.Built.named _).putAll _) rfl
    (fun _ _ _ _ => rfl) planCreate_guest
  simp [computeChange_guest] at hrests

/-- The key is all that the guest loses. -/
theorem computeChange_after_arriving :
    AsciiNames inn.policy guest ∧ inn.evaluator.Blind ∧ guest.identifier.isSome = true ∧
      (inn.planCreate guest).result = .ok ⟨arriving, true⟩ ∧
      (inn.computeChange (some guest) (some arriving.made)).result =
        .ok (some ⟨.update "uid=7" [⟨.delete, "KEY", [.string "spare"]⟩], true⟩) ∧
      inn.Provisional guest "KEY" ∧ ¬ inn.Renewed guest "KEY" ∧
      ¬ ∀ n ∈ inn.policy.writeScope (some guest),
        inn.Provisional guest n → inn.Renewed guest n := by
  have hblind : inn.evaluator.Blind := fun _ _ _ _ => rfl
  obtain ⟨hrests, hnext⟩ :=
    computeChange_after_creation asciiNames_guest hblind rfl planCreate_guest
  obtain ⟨-, hops, -⟩ := hnext _ computeChange_guest
  obtain ⟨hprovisional, hrenewed⟩ :=
    hops ⟨.delete, "KEY", [.string "spare"]⟩ (by simp [Change.update])
  refine ⟨asciiNames_guest, hblind, rfl, planCreate_guest, computeChange_guest, hprovisional,
    hrenewed, fun h => ?_⟩
  simpa [computeChange_guest] using hrests.2 h

end Reconciler

end StoreSync
