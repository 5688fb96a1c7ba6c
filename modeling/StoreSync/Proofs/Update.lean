import Mathlib.Data.List.Nodup
import StoreSync.Expression.Table
import StoreSync.Proofs.Planning

/-!
# What an update makes of a record

When a source record and its counterpart call for an update, the planned operations are carried
out one after the other.  This module says what the record holds afterwards, attribute by
attribute, without mentioning operations:

* a forced attribute holds exactly its resolved texts;
* a merged attribute holds its old texts and the resolved ones, behind the values it had;
* every other attribute is the one it was.

Names are taken up to case.  The write scope keeps one spelling of every name, and because its
names are ASCII each of them has a key of its own (`Casing.lean`); so the operations of a plan are
on different attributes, and each attribute meets at most its own operation
(`attribute?_after_planUpdate`, `attribute?_after_planUpdate_of_notInScope`).

The resolved texts (`resolvedTexts` in `Planning.lean`) refer to the policy, the evaluator and the
two records only.  They are the same for two spellings of a name (`resolvedTexts_congr`).
-/

namespace StoreSync

namespace Reconciler

variable {r : Reconciler}

/-! ## Scope -/

/-- Whether a change may touch the attribute that a name addresses. -/
def InScope (r : Reconciler) (s : Entity) (name : String) : Prop :=
  ∃ n ∈ r.policy.writeScope (some s), Text.sameFolded n name = true

instance (s : Entity) (name : String) : Decidable (r.InScope s name) :=
  inferInstanceAs (Decidable (∃ n ∈ r.policy.writeScope (some s), Text.sameFolded n name = true))

/-- All names that a plan for a source record can write are ASCII: those of the record's
attributes, and those of the policy. -/
structure AsciiNames (p : Policy) (s : Entity) : Prop where
  source : ∀ n ∈ s.attributeNames, Text.IsAscii n
  policy : ∀ n ∈ p.attributes.keys, Text.IsAscii n
  allowed : ∀ n ∈ p.writeAttributes.getD [], Text.IsAscii n

lemma AsciiNames.writeScope {p : Policy} {s : Entity} (h : AsciiNames p s) :
    (∀ n ∈ p.writeScope (some s), Text.IsAscii n) ∧
      (p.writeScope (some s)).Pairwise fun a b => Text.fold a ≠ Text.fold b := by
  unfold Policy.writeScope
  split
  next names hnames =>
    have hall : ∀ n ∈ names, Text.IsAscii n := by simpa [hnames] using h.allowed
    exact ⟨fun n hn => hall n (Policy.mem_of_mem_distinctNames hn),
      Policy.pairwise_fold_distinctNames hall⟩
  next =>
    have hall : ∀ n ∈ s.attributeNames ++ p.attributes.keys, Text.IsAscii n := fun n hn =>
      (List.mem_append.1 hn).elim (h.source n) (h.policy n)
    exact ⟨fun n hn => hall n (Policy.mem_of_mem_distinctNames hn),
      Policy.pairwise_fold_distinctNames hall⟩

/-! ## Two spellings of a name -/

lemma valuesOf_congr (e : Entity) {a b : String} (h : Text.fold a = Text.fold b) :
    valuesOf e a = valuesOf e b := by
  simp only [valuesOf, Entity.attribute?, h]

lemma heldTexts_congr (e : Entity) {a b : String} (h : Text.fold a = Text.fold b) :
    e.heldTexts a = e.heldTexts b := by
  simp only [Entity.heldTexts, valuesOf_congr e h]

lemma updateBindings_congr (s d : Entity) {a b : String} (h : Text.fold a = Text.fold b) :
    updateBindings s d a = updateBindings s d b := by
  simp only [updateBindings, valuesOf_congr _ h]

lemma ownTexts_congr (s d : Entity) {a b : String} (hsame : Text.sameFolded a b = true)
    (h : Text.fold a = Text.fold b) : r.ownTexts s d a = r.ownTexts s d b := by
  simp only [ownTexts, r.policy.attribute?_congr hsame, updateBindings_congr s d h,
    heldTexts_congr s h]

lemma defaultTexts_congr (s d : Entity) {a b : String} (hsame : Text.sameFolded a b = true)
    (h : Text.fold a = Text.fold b) : r.defaultTexts s d a = r.defaultTexts s d b := by
  simp only [defaultTexts, r.policy.attribute?_congr hsame, updateBindings_congr s d h]

lemma resolvedTexts_congr (s d : Entity) {a b : String} (hsame : Text.sameFolded a b = true)
    (h : Text.fold a = Text.fold b) : r.resolvedTexts s d a = r.resolvedTexts s d b := by
  simp only [resolvedTexts, ownTexts_congr s d hsame h, defaultTexts_congr s d hsame h,
    r.policy.statusOf_congr hsame]

/-! ## The operations of a plan -/

lemma target_diffAttribute {status : AttributeStatus} {name : String}
    {wanted existing : List AttributeValue} {op : AttributeOperation}
    (h : diffAttribute status name wanted existing = some op) : op.target = name := by
  unfold diffAttribute at h
  split at h
  · split at h
    · simp at h
    · simp only [Option.some.injEq] at h; rw [← h]
    · simp only [Option.some.injEq] at h; rw [← h]
    · split at h
      · simp at h
      · simp only [Option.some.injEq] at h; rw [← h]
  · split at h
    · simp at h
    · split at h
      · simp only [Option.some.injEq] at h; rw [← h]
      · dsimp only at h
        split at h
        · simp at h
        · simp only [Option.some.injEq] at h; rw [← h]
  · simp at h

lemma target_updateOperation {s d : Entity} {name : String} {op : AttributeOperation}
    (h : (r.updateOperation s d name).result = .ok (some op)) : op.target = name := by
  unfold updateOperation at h
  dsimp only at h
  split at h
  · simp at h
  · simp only [Asked.result_bind_eq_ok, Asked.result_pure, Except.ok.injEq] at h
    obtain ⟨wanted, _, hop⟩ := h
    exact target_diffAttribute hop

lemma exists_updateOperation_iff {s d : Entity} {name : String}
    (hkeep : r.policy.statusOf name ≠ .keep) :
    (∃ op, (r.updateOperation s d name).result = .ok op) ↔
      ∃ vs, (r.wantedValues s d name).result = .ok vs := by
  simp only [updateOperation, hkeep, if_false, Asked.result_bind_eq_ok, Asked.result_pure]
  constructor
  · rintro ⟨-, vs, hvs, -⟩
    exact ⟨vs, hvs⟩
  · rintro ⟨vs, hvs⟩
    exact ⟨_, vs, hvs, rfl⟩

/-- What comes of the operations of an update. -/
lemma result_planUpdate {s d : Entity} {ops : List AttributeOperation} {verdict : Bool}
    (hops : (collectOperations (r.updateOperation s d)
      (r.policy.writeScope (some s))).result = .ok ops)
    (hverdict : ∀ b, (r.isAllowed .update b).result = .ok verdict) :
    (r.planUpdate s d).result =
      if ops = [] then .ok none
      else (destinationIdentifier d).result.map fun id => some ⟨.update id ops, verdict⟩ := by
  have hplan : (r.planUpdate s d).result = (if ops.isEmpty then (pure none : Asked _) else do
      let identifier ← destinationIdentifier d
      let allowed ← r.isAllowed .update (.pair (some s) (some d))
      return some ⟨.update identifier ops, allowed⟩).result := by
    rw [planUpdate, Asked.result_bind, hops]
    rfl
  rw [hplan]
  split
  next hempty => simp [List.isEmpty_iff.1 hempty]
  next hsome =>
    rw [if_neg (by simpa using hsome), Asked.result_bind]
    cases (destinationIdentifier d).result with
    | error e => rfl
    | ok id =>
      show Asked.result _ = _
      rw [Asked.result_bind, hverdict]
      rfl

/-- A successful plan for an update is a list of operations, one at most for each name in scope. -/
lemma planUpdate_eq_ok {s d : Entity} {plan : Option PlannedChange}
    (h : (r.planUpdate s d).result = .ok plan) :
    ∃ ops, (collectOperations (r.updateOperation s d)
        (r.policy.writeScope (some s))).result = .ok ops ∧
      ∀ e, PlannedChange.after plan e = Change.applyOperations ops e := by
  simp only [planUpdate, Asked.result_bind_eq_ok] at h
  obtain ⟨ops, hops, h⟩ := h
  refine ⟨ops, hops, fun e => ?_⟩
  by_cases hempty : ops = []
  · simp only [hempty, List.isEmpty_nil, if_true, Asked.result_pure, Except.ok.injEq] at h
    rw [← h, hempty]
    rfl
  · simp only [List.isEmpty_eq_false_iff.2 hempty, Bool.false_eq_true, if_false,
      Asked.result_bind_eq_ok, Asked.result_pure, Except.ok.injEq] at h
    obtain ⟨identifier, _, allowed, _, rfl⟩ := h
    rfl

/-- Of operations that are planned name by name, the one for a name decides what becomes of its
attribute. -/
lemma attribute?_applyOperations_filterMap {names : List String}
    {f : String → Option AttributeOperation}
    (hdistinct : names.Pairwise fun a b => Text.fold a ≠ Text.fold b)
    (htarget : ∀ m ∈ names, ∀ op, f m = some op → op.target = m) {n : String} (hn : n ∈ names)
    (e : Entity) {name : String} (hname : Text.fold n = Text.fold name) :
    (Change.applyOperations (names.filterMap f) e).attribute? name =
      afterOperation (f n) (e.attribute? name) := by
  cases hop : f n with
  | none =>
    have hframe : ∀ op ∈ names.filterMap f, Text.fold op.target ≠ Text.fold name := by
      intro op hmem hfold
      obtain ⟨m, hm, hfm⟩ := List.mem_filterMap.1 hmem
      rw [htarget m hm op hfm, ← hname] at hfold
      have hmn : m = n :=
        List.inj_on_of_nodup_map (List.pairwise_map.2 hdistinct) hm hn hfold
      rw [hmn, hop] at hfm
      exact absurd hfm (by simp)
    exact Change.attribute?_applyOperations_of_forall_ne hframe e
  | some op =>
    have hpairwise : (names.filterMap f).Pairwise
        fun a b => Text.fold a.target ≠ Text.fold b.target := by
      rw [List.pairwise_filterMap]
      refine hdistinct.imp_of_mem fun {a b} ha hb hne x hx y hy => ?_
      rw [htarget a ha x hx, htarget b hb y hy]
      exact hne
    exact Change.attribute?_applyOperations hpairwise (List.mem_filterMap.2 ⟨n, hn, hop⟩)
      (by rw [htarget n hn op hop, hname]) e

/-- The operation planned for a name in scope decides what becomes of its attribute. -/
theorem attribute?_after_planUpdate {s d : Entity} {plan : Option PlannedChange}
    (hascii : AsciiNames r.policy s) (h : (r.planUpdate s d).result = .ok plan)
    {n : String} (hn : n ∈ r.policy.writeScope (some s)) :
    ∃ op, (r.updateOperation s d n).result = .ok op ∧
      ∀ name, Text.fold n = Text.fold name →
        (PlannedChange.after plan d).attribute? name = afterOperation op (d.attribute? name) := by
  obtain ⟨ops, hops, hafter⟩ := planUpdate_eq_ok h
  obtain ⟨f, rfl, hf⟩ := collectOperations_eq_ok hops
  have htarget : ∀ m ∈ r.policy.writeScope (some s), ∀ op, f m = some op → op.target = m :=
    fun m hm op hop => target_updateOperation (by rw [hf m hm, hop])
  refine ⟨f n, hf n hn, fun name hname => ?_⟩
  rw [hafter]
  exact attribute?_applyOperations_filterMap hascii.writeScope.2 htarget hn d hname

/-- An update leaves alone what is not in scope. -/
theorem attribute?_after_planUpdate_of_notInScope {s d : Entity} {plan : Option PlannedChange}
    (hascii : AsciiNames r.policy s) (h : (r.planUpdate s d).result = .ok plan) {name : String}
    (hname : ¬ r.InScope s name) :
    (PlannedChange.after plan d).attribute? name = d.attribute? name := by
  obtain ⟨ops, hops, hafter⟩ := planUpdate_eq_ok h
  obtain ⟨f, rfl, hf⟩ := collectOperations_eq_ok hops
  rw [hafter]
  refine Change.attribute?_applyOperations_of_forall_ne (fun op hmem hfold => hname ?_) d
  obtain ⟨n, hn, hop⟩ := List.mem_filterMap.1 hmem
  have htarget : op.target = n := target_updateOperation (by rw [hf n hn, hop])
  rw [htarget] at hfold
  exact ⟨n, hn, (Text.sameFolded_iff_fold_eq (hascii.writeScope.1 n hn)).2 hfold⟩

/-! ## The attributes after an update -/

lemma updateOperation_eq_ok {s d : Entity} {n : String} {op : Option AttributeOperation}
    (h : (r.updateOperation s d n).result = .ok op) :
    (r.policy.statusOf n = .keep ∧ op = none) ∨
      ∃ raw, (∀ t, t ∈ ValueSet.texts raw ↔ t ∈ r.resolvedTexts s d n) ∧
        op = diffAttribute (r.policy.statusOf n) n (ValueSet.normalize raw)
          (ValueSet.normalize (valuesOf d n)) := by
  unfold updateOperation at h
  dsimp only at h
  split at h
  next hkeep =>
    simp only [Asked.result_pure, Except.ok.injEq] at h
    exact Or.inl ⟨hkeep, h.symm⟩
  next =>
    simp only [Asked.result_bind_eq_ok, Asked.result_pure, Except.ok.injEq] at h
    obtain ⟨wanted, hwanted, hop⟩ := h
    obtain ⟨⟨raw, rfl⟩, hmem⟩ := mem_texts_wantedValues hwanted
    refine Or.inr ⟨raw, fun t => ?_, hop.symm⟩
    rw [← hmem, ValueSet.mem_texts_normalize]

/-- A forced attribute ends with exactly its resolved texts. -/
theorem heldTexts_after_force {s d : Entity} {plan : Option PlannedChange}
    (hascii : AsciiNames r.policy s) (h : (r.planUpdate s d).result = .ok plan) {name : String}
    (hname : r.InScope s name) (hstatus : r.policy.statusOf name = .force) :
    (PlannedChange.after plan d).heldTexts name = r.resolvedTexts s d name := by
  obtain ⟨n, hn, hsame⟩ := hname
  have hfold := (Text.sameFolded_iff_fold_eq (hascii.writeScope.1 n hn)).1 hsame
  obtain ⟨op, hop, hafter⟩ := attribute?_after_planUpdate hascii h hn
  have hforce : r.policy.statusOf n = .force := (r.policy.statusOf_congr hsame).trans hstatus
  rcases updateOperation_eq_ok hop with ⟨hkeep, _⟩ | ⟨raw, hraw, rfl⟩
  · rw [hforce] at hkeep
    exact absurd hkeep (by simp)
  · rw [Entity.heldTexts_eq, hafter name hfold, hforce, valuesOf_congr d hfold, valuesOf_eq,
      heldTexts_diff_force, ← resolvedTexts_congr s d hsame hfold]
    exact Set.ext hraw

/-- A merged attribute keeps its values and gains the resolved texts. -/
theorem heldTexts_after_merge {s d : Entity} {plan : Option PlannedChange}
    (hascii : AsciiNames r.policy s) (h : (r.planUpdate s d).result = .ok plan) {name : String}
    (hname : r.InScope s name) (hstatus : r.policy.statusOf name = .merge) :
    (PlannedChange.after plan d).heldTexts name = d.heldTexts name ∪ r.resolvedTexts s d name ∧
      valuesOf d name <+: valuesOf (PlannedChange.after plan d) name := by
  obtain ⟨n, hn, hsame⟩ := hname
  have hfold := (Text.sameFolded_iff_fold_eq (hascii.writeScope.1 n hn)).1 hsame
  obtain ⟨op, hop, hafter⟩ := attribute?_after_planUpdate hascii h hn
  have hmerge : r.policy.statusOf n = .merge := (r.policy.statusOf_congr hsame).trans hstatus
  rcases updateOperation_eq_ok hop with ⟨hkeep, _⟩ | ⟨raw, hraw, rfl⟩
  · rw [hmerge] at hkeep
    exact absurd hkeep (by simp)
  · have hresolved : {t | t ∈ ValueSet.texts raw} = r.resolvedTexts s d name := by
      rw [← resolvedTexts_congr s d hsame hfold]
      exact Set.ext hraw
    obtain ⟨hheld, hprefix⟩ := heldTexts_diff_merge n raw (d.attribute? name)
    rw [Entity.heldTexts_eq, Entity.heldTexts_eq, valuesOf_eq, valuesOf_eq, hafter name hfold,
      hmerge, valuesOf_congr d hfold, valuesOf_eq, ← hresolved]
    exact ⟨hheld, hprefix⟩

/-- An attribute that is kept is the one it was. -/
theorem attribute?_after_keep {s d : Entity} {plan : Option PlannedChange}
    (hascii : AsciiNames r.policy s) (h : (r.planUpdate s d).result = .ok plan) {name : String}
    (hname : r.InScope s name) (hstatus : r.policy.statusOf name = .keep) :
    (PlannedChange.after plan d).attribute? name = d.attribute? name := by
  obtain ⟨n, hn, hsame⟩ := hname
  have hfold := (Text.sameFolded_iff_fold_eq (hascii.writeScope.1 n hn)).1 hsame
  obtain ⟨op, hop, hafter⟩ := attribute?_after_planUpdate hascii h hn
  have hkeep : r.policy.statusOf n = .keep := (r.policy.statusOf_congr hsame).trans hstatus
  have hnone : op = none := by
    rcases updateOperation_eq_ok hop with ⟨_, hnone⟩ | ⟨raw, _, hdiff⟩
    · exact hnone
    · rw [hdiff, hkeep]
      rfl
  rw [hafter name hfold, hnone]
  rfl

lemma computeChange_update {s d : Entity} (h : classify (some s) (some d) = some .update) :
    r.computeChange (some s) (some d) = r.planUpdate s d := by
  simp only [computeChange, h]

/-- **An update meets its merge specification.**  When a pair of records calls for an update and
planning succeeds, carrying the plan out keeps the identifier, and of every attribute it makes
what its status says: forced attributes end with the resolved texts, merged ones gain them and
lose no value, kept ones and those out of scope are untouched. -/
theorem after_computeChange_update {s d : Entity} {plan : Option PlannedChange}
    (hascii : AsciiNames r.policy s) (hclass : classify (some s) (some d) = some .update)
    (h : (r.computeChange (some s) (some d)).result = .ok plan) :
    (PlannedChange.after plan d).identifier = d.identifier ∧
    ∀ name : String,
      (r.InScope s name → r.policy.statusOf name = .force →
        (PlannedChange.after plan d).heldTexts name = r.resolvedTexts s d name) ∧
      (r.InScope s name → r.policy.statusOf name = .merge →
        (PlannedChange.after plan d).heldTexts name =
            d.heldTexts name ∪ r.resolvedTexts s d name ∧
          valuesOf d name <+: valuesOf (PlannedChange.after plan d) name) ∧
      (r.policy.statusOf name = .keep ∨ ¬ r.InScope s name →
        (PlannedChange.after plan d).attribute? name = d.attribute? name) := by
  rw [computeChange_update hclass] at h
  refine ⟨?_, fun name => ⟨fun hname hstatus => heldTexts_after_force hascii h hname hstatus,
    fun hname hstatus => heldTexts_after_merge hascii h hname hstatus, fun hname => ?_⟩⟩
  · obtain ⟨ops, _, hafter⟩ := planUpdate_eq_ok h
    rw [hafter, Change.identifier_applyOperations]
  · by_cases hscope : r.InScope s name
    · exact attribute?_after_keep hascii h hscope (hname.resolve_right (not_not_intro hscope))
    · exact attribute?_after_planUpdate_of_notInScope hascii h hscope

/-! ## A record with an attribute of each status

The spellings differ on the two sides, an integer meets a text, an empty text does not count, and
the merged attribute has a default. -/

/-- Attributes are forced, but mail addresses are merged and telephone numbers kept. -/
def mixedStatuses : Reconciler :=
  ⟨{ Policy.empty with
      attributes := .ofList [("Mail", ⟨some .merge, ["fallback"], [], []⟩),
        ("phone", ⟨some .keep, [], [], []⟩)] },
    .ofTable [("fallback", .texts ["post@x"])]⟩

def mixedSource : Entity :=
  Entity.putAll (.named "uid=1") [("mail", [.string "a@x"]),
    ("Room", [.integer 42, .string ""]), ("phone", [.string "1"])]

def mixedDestination : Entity :=
  Entity.putAll (.named "UID=1") [("MAIL", [.string "b@x"]), ("room", [.string "7"]),
    ("Phone", [.string "2"])]

theorem after_update_of_mixedStatuses :
    ∃ plan, (mixedStatuses.computeChange (some mixedSource) (some mixedDestination)).result =
        .ok plan ∧
      (PlannedChange.after plan mixedDestination).heldTexts "ROOM" =
        mixedStatuses.resolvedTexts mixedSource mixedDestination "ROOM" ∧
      (PlannedChange.after plan mixedDestination).heldTexts "mail" =
        mixedDestination.heldTexts "mail" ∪
          mixedStatuses.resolvedTexts mixedSource mixedDestination "mail" ∧
      (PlannedChange.after plan mixedDestination).attribute? "PHONE" =
        mixedDestination.attribute? "PHONE" := by
  have hascii : AsciiNames mixedStatuses.policy mixedSource :=
    ⟨by decide +kernel, by decide +kernel, by decide +kernel⟩
  have hscope : ∀ n ∈ ["ROOM", "mail"], mixedStatuses.InScope mixedSource n := by
    decide +kernel
  obtain ⟨_, hafter⟩ := after_computeChange_update (r := mixedStatuses) hascii
    (by decide +kernel : classify (some mixedSource) (some mixedDestination) = some .update) rfl
  exact ⟨_, rfl, (hafter "ROOM").1 (hscope _ (by simp)) (by decide +kernel),
    ((hafter "mail").2.1 (hscope _ (by simp)) (by decide +kernel)).1,
    (hafter "PHONE").2.2 (Or.inl (by decide +kernel))⟩

end Reconciler

end StoreSync
