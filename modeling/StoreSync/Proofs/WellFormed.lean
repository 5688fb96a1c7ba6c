import StoreSync.Proofs.Fates
import StoreSync.Proofs.FixedPoints

/-!
# The form of planned changes

Whatever the policy and the answers of its expressions, a planned change is well formed: it has the
parts that its kind calls for, no two of its operations are on one attribute, and each operation has
values to carry out (`Change.WellFormed`).  The parts come from different places:

* the write scope holds every name once up to case, and with an allow-list nothing else
  (`Policy.pairwise_distinctNames`);
* an operation of a plan is on its own name, on values that have been normalized
  (`AttributeOperation.Proper`, `Reconciler.proper_of_createOperation`,
  `Reconciler.proper_of_updateOperation`);
* a rename is planned when the identifiers differ, and an update when some attribute does.

`Reconciler.wellFormed_of_computeChange` puts them together.
-/

namespace StoreSync

open Text (sameFolded)

/-- An operation with something to do: it has values, none of them empty and no two with the same
canonical form. -/
structure AttributeOperation.Proper (op : AttributeOperation) : Prop where
  some : op.values ≠ []
  filled : ∀ v ∈ op.values, v.isEmpty = false
  once : op.texts.Nodup

/-- A change as it is planned under a policy for a record of the destination, if there is one. -/
structure Change.WellFormed (policy : Policy) (destination : Option Entity) (c : Change) :
    Prop where
  /-- A creation adds values only. -/
  create : c.modification = .create → ∀ op ∈ c.operations, op.kind = .add
  /-- An update does something, to the record of the destination. -/
  update : c.modification = .update → c.operations ≠ [] ∧
    destination.bind Entity.identifier = some c.identifier
  /-- Neither renames nor deletions touch attributes. -/
  bare : c.modification = .rename ∨ c.modification = .delete → c.operations = []
  /-- A rename leads to another identifier. -/
  rename : c.modification = .rename →
    ∃ new, c.newIdentifier = some new ∧ sameFolded c.identifier new = false
  /-- No two operations are on one attribute. -/
  distinct : c.operations.Pairwise fun op op' => sameFolded op.target op'.target = false
  proper : ∀ op ∈ c.operations, op.Proper
  /-- An update spares what is kept, and removes nothing of what is merged. -/
  status : c.modification = .update → ∀ op ∈ c.operations,
    policy.statusOf op.target ≠ .keep ∧ (policy.statusOf op.target = .merge → op.kind = .add)
  /-- What is not on the allow-list is not written. -/
  allowed : ∀ names, policy.writeAttributes = some names → ∀ op ∈ c.operations, op.target ∈ names

/-! ## Names and values -/

lemma Policy.pairwise_writeScope (p : Policy) (source : Option Entity) :
    (p.writeScope source).Pairwise fun a b => sameFolded a b = false := by
  unfold writeScope
  split <;> exact pairwise_distinctNames _

/-- With an allow-list, the scope is part of it. -/
lemma Policy.mem_of_mem_writeScope {p : Policy} {source : Option Entity} {names : List String}
    (h : p.writeAttributes = some names) {n : String} (hn : n ∈ p.writeScope source) :
    n ∈ names := by
  simp only [writeScope, h] at hn
  exact mem_of_mem_distinctNames hn

lemma AttributeOperation.Proper.of_normalize {kind : OperationKind} {target : String}
    {vs : List AttributeValue} (h : ValueSet.normalize vs ≠ []) :
    (AttributeOperation.mk kind target (ValueSet.normalize vs)).Proper where
  some := h
  filled := fun _ hv => ValueSet.isEmpty_of_mem_normalize hv
  once := ValueSet.nodup_canonical_distinct _ _

namespace Reconciler

variable {r : Reconciler} {s d : Entity} {name : String} {op : AttributeOperation}

/-! ## Single operations -/

/-- What is planned for an attribute that is created: a proper addition. -/
lemma proper_of_createOperation (h : (r.createOperation s name).result = .ok (some op)) :
    op.target = name ∧ op.Proper ∧ op.kind = .add := by
  obtain ⟨vs, -, hop⟩ := exists_values_of_createOperation h
  split at hop
  · simp at hop
  next hsome =>
    obtain rfl := Option.some.inj hop
    exact ⟨rfl, .of_normalize (by simpa using hsome), rfl⟩

/-- A difference is made up by a proper operation, which the status permits. -/
lemma proper_of_diffAttribute {status : AttributeStatus} {wanted existing : List AttributeValue}
    (h : diffAttribute status name (ValueSet.normalize wanted) (ValueSet.normalize existing) =
      some op) : op.Proper ∧ status ≠ .keep ∧ (status = .merge → op.kind = .add) := by
  cases status with
  | force =>
    refine ⟨?_, by simp, by simp⟩
    simp only [diffAttribute] at h
    split at h
    · simp at h
    next hexisting =>
      obtain rfl := Option.some.inj h
      exact .of_normalize (List.isEmpty_eq_false_iff.1 hexisting)
    next hwanted _ =>
      obtain rfl := Option.some.inj h
      exact .of_normalize (List.isEmpty_eq_false_iff.1 hwanted)
    next hwanted _ =>
      split at h
      · simp at h
      · obtain rfl := Option.some.inj h
        exact .of_normalize (List.isEmpty_eq_false_iff.1 hwanted)
  | merge =>
    refine (?_ : op.Proper ∧ op.kind = .add).imp_right fun hadd => ⟨by simp, fun _ => hadd⟩
    simp only [diffAttribute] at h
    split at h
    · simp at h
    next hwanted =>
      split at h
      · obtain rfl := Option.some.inj h
        exact ⟨.of_normalize (by simpa using hwanted), rfl⟩
      · split at h
        · simp at h
        next hmissing =>
          obtain rfl := Option.some.inj h
          exact ⟨.of_normalize (by simpa [ValueSet.missing] using hmissing), rfl⟩
  | keep => simp [diffAttribute] at h

/-- What is planned for an attribute that is updated: a proper operation, which the status of the
attribute permits. -/
lemma proper_of_updateOperation (h : (r.updateOperation s d name).result = .ok (some op)) :
    op.target = name ∧ op.Proper ∧ r.policy.statusOf name ≠ .keep ∧
      (r.policy.statusOf name = .merge → op.kind = .add) := by
  refine ⟨target_updateOperation h, ?_⟩
  rcases updateOperation_eq_ok h with ⟨-, hnone⟩ | ⟨raw, -, hdiff⟩
  · simp at hnone
  · exact proper_of_diffAttribute hdiff.symm

/-! ## Lists of operations -/

section Collect

variable {plan : String → Asked (Option AttributeOperation)} {names : List String}
  {ops : List AttributeOperation}

/-- Operations on names that are pairwise distinct have pairwise distinct targets. -/
lemma pairwise_collectOperations (h : (collectOperations plan names).result = .ok ops)
    (htarget : ∀ n ∈ names, ∀ op, (plan n).result = .ok (some op) → op.target = n)
    (hnames : names.Pairwise fun a b => sameFolded a b = false) :
    ops.Pairwise fun op op' => sameFolded op.target op'.target = false := by
  obtain ⟨f, rfl, hf⟩ := collectOperations_eq_ok h
  rw [List.pairwise_filterMap]
  refine hnames.imp_of_mem fun {a b} ha hb hne x hx y hy => ?_
  rw [htarget a ha x (by rw [hf a ha, hx]), htarget b hb y (by rw [hf b hb, hy])]
  exact hne

end Collect

/-! ## Changes -/

variable {plan : PlannedChange}

lemma wellFormed_of_planCreate (h : (r.planCreate s).result = .ok plan)
    (destination : Option Entity) : plan.change.WellFormed r.policy destination := by
  obtain ⟨id, ops, hchange, hops⟩ := operations_of_planCreate h
  rw [hchange]
  have hmem : ∀ op ∈ ops, ∃ n ∈ r.policy.writeScope (some s),
      op.target = n ∧ op.Proper ∧ op.kind = .add := by
    intro op hop
    obtain ⟨n, hn, hplan⟩ := (mem_collectOperations_iff hops).1 hop
    exact ⟨n, hn, proper_of_createOperation hplan⟩
  refine { create := ?_, update := by simp [Change.create], bare := by simp [Change.create],
           rename := by simp [Change.create], distinct := ?_, proper := ?_,
           status := by simp [Change.create], allowed := ?_ }
  · intro _ op hop
    obtain ⟨n, -, -, -, hadd⟩ := hmem op hop
    exact hadd
  · exact pairwise_collectOperations hops
      (fun n _ op hplan => (proper_of_createOperation hplan).1) (r.policy.pairwise_writeScope _)
  · intro op hop
    obtain ⟨n, -, -, hproper, -⟩ := hmem op hop
    exact hproper
  · intro names hnames op hop
    obtain ⟨n, hn, rfl, -⟩ := hmem op hop
    exact Policy.mem_of_mem_writeScope hnames hn

lemma wellFormed_of_planUpdate (h : (r.planUpdate s d).result = .ok (some plan)) :
    plan.change.WellFormed r.policy (some d) := by
  obtain ⟨id, ops, hid, hchange, hsome, hops⟩ := operations_of_planUpdate h
  rw [hchange]
  have hmem : ∀ op ∈ ops, op.target ∈ r.policy.writeScope (some s) ∧ op.Proper ∧
      r.policy.statusOf op.target ≠ .keep ∧
      (r.policy.statusOf op.target = .merge → op.kind = .add) := by
    intro op hop
    obtain ⟨n, hn, hplan⟩ := (mem_collectOperations_iff hops).1 hop
    obtain ⟨rfl, hrest⟩ := proper_of_updateOperation hplan
    exact ⟨hn, hrest⟩
  refine { create := by simp [Change.update], update := fun _ => ⟨hsome, hid⟩,
           bare := by simp [Change.update], rename := by simp [Change.update], distinct := ?_,
           proper := fun op hop => (hmem op hop).2.1,
           status := fun _ op hop => (hmem op hop).2.2, allowed := ?_ }
  · exact pairwise_collectOperations hops (fun n _ op hplan => target_updateOperation hplan)
      (r.policy.pairwise_writeScope _)
  · intro names hnames op hop
    exact Policy.mem_of_mem_writeScope hnames (hmem op hop).1

/-- A change without operations is well formed as soon as it is a deletion, or a rename to another
identifier. -/
lemma wellFormed_of_bare {policy : Policy} {destination : Option Entity} {c : Change}
    (hkind : c.modification = .rename ∨ c.modification = .delete) (hbare : c.operations = [])
    (hrename : c.modification = .rename →
      ∃ new, c.newIdentifier = some new ∧ sameFolded c.identifier new = false) :
    c.WellFormed policy destination := by
  have hupdate : c.modification ≠ .update := by
    rcases hkind with hkind | hkind <;> simp [hkind]
  refine { create := ?_, update := fun h => absurd h hupdate, bare := fun _ => hbare,
           rename := hrename, distinct := ?_, proper := ?_,
           status := fun h => absurd h hupdate, allowed := ?_ } <;> simp [hbare]

/-- Identifiers that call for a rename differ. -/
lemma sameFolded_of_classify {old new : String} (h : classify (some s) (some d) = some .rename)
    (hold : d.identifier = some old) (hnew : s.identifier = some new) :
    sameFolded old new = false := by
  simp only [classify, hold, hnew] at h
  rw [Text.sameFolded_comm]
  simpa using h

/-- **Every planned change is well formed**, for any policy, any answers of its expressions and any
pair of records, either of which may be missing. -/
theorem wellFormed_of_computeChange {source destination : Option Entity}
    (h : (r.computeChange source destination).result = .ok (some plan)) :
    plan.change.WellFormed r.policy destination := by
  cases source with
  | none =>
    cases destination with
    | none => simp [computeChange] at h
    | some d =>
      obtain ⟨id, -, h⟩ := Asked.result_bind_eq_ok.1 h
      obtain ⟨plan', hplan, heq⟩ := Asked.result_bind_eq_ok.1 h
      obtain rfl : plan' = plan := by simpa using heq
      obtain ⟨allowed, -, hplan⟩ := Asked.result_bind_eq_ok.1 hplan
      obtain rfl := Except.ok.inj hplan
      exact wellFormed_of_bare (Or.inr rfl) rfl (by simp [Change.delete])
  | some s =>
    cases destination with
    | none =>
      obtain ⟨plan', hplan, heq⟩ := Asked.result_bind_eq_ok.1 h
      obtain rfl : plan' = plan := by simpa using heq
      exact wellFormed_of_planCreate hplan none
    | some d =>
      rcases classify_pair s d with hclass | hclass
      · simp only [computeChange, hclass] at h
        obtain ⟨plan', hplan, heq⟩ := Asked.result_bind_eq_ok.1 h
        obtain rfl : plan' = plan := by simpa using heq
        obtain ⟨old, new, hold, hnew, hchange⟩ := change_of_planRename hplan
        rw [hchange]
        exact wellFormed_of_bare (Or.inl rfl) rfl
          fun _ => ⟨new, rfl, sameFolded_of_classify hclass hold hnew⟩
      · rw [computeChange_update hclass] at h
        exact wellFormed_of_planUpdate h

/-! ### A singer who moves in the choir

Spellings and repetitions are all over the place: in the allow-list, in the values on both sides
and in what the expressions answer. -/

def choir : Reconciler :=
  ⟨{ Policy.empty with
      attributes := .ofList [("phone", ⟨some .keep, [], [], []⟩),
        ("robe", ⟨none, [], ["returned"], []⟩), ("voice", ⟨some .merge, ["spare"], [], []⟩)]
      writeAttributes := some ["Voice", "robe", "VOICE", "seat", "phone", "Seat"] },
    .ofTable [("returned", .texts [""]), ("spare", .texts ["alto", "", "bass", "alto"])]⟩

def singer : Entity :=
  Entity.putAll (.named "cn=Ida") [("cn", [.string "Ida"]), ("phone", [.string "1"]),
    ("Robe", [.integer 4]), ("SEAT", [.integer 12, .string "", .string "12"]),
    ("voice", [.string "tenor", .string "tenor"])]

def seated : Entity :=
  Entity.putAll (.named "CN=IDA") [("robe", [.string "4", .string "", .integer 4]),
    ("seat", [.string "7"]), ("VOICE", [.string "bass"])]

def move : Change :=
  .update "CN=IDA" [⟨.add, "Voice", [.string "tenor", .string "alto"]⟩,
    ⟨.delete, "robe", [.string "4"]⟩, ⟨.replace, "seat", [.integer 12]⟩]

theorem wellFormed_move :
    (choir.computeChange (some singer) (some seated)).result = .ok (some ⟨move, true⟩) ∧
      move.WellFormed choir.policy (some seated) := by
  have hplan : (choir.computeChange (some singer) (some seated)).result =
      .ok (some ⟨move, true⟩) := by rfl
  exact ⟨hplan, wellFormed_of_computeChange hplan⟩

end Reconciler

end StoreSync
