import StoreSync.Proofs.Counterparts

/-!
# Records that differ in the form of their values

The planner compares values by their canonical texts, as sets, and an absent attribute is like an
empty one; so without expressions in the policy, records that hold the same texts under every name
(`Entity.Alike`) should be planned alike (`Agree`).

They are, but for two things that are decided before any values are compared.  The write scope has
the names of the attributes that the source record has, empty or not: an attribute that is blank on
one source record and absent from the other is emptied in the destination for the one only
(`Reconciler.cleared`).  And a new record is named after the first value of its unique attribute,
which may be an empty one (`Reconciler.Named`).

* `Reconciler.rel_diffAttribute` — the difference of values is a matter of their texts;
* `Policy.Twins.exists_mem_writeScope` — two scopes differ in blank attributes only;
* `Reconciler.agree_of_cleared`, `Reconciler.cleared_of_agree` — pairs of records;
* `Reconciler.agree_create_iff` — source records without a counterpart;
* `Reconciler.agree_of_twins` — all of it.
-/

namespace StoreSync

open Text (sameFolded)

/-! ## Likeness -/

/-- Two records with one identifier that hold the same texts under every name.  The order of
values, repetitions, types and empty values make no difference. -/
structure Entity.Alike (e e' : Entity) : Prop where
  identifier : e.identifier = e'.identifier
  held : ∀ name, e.heldTexts name = e'.heldTexts name

lemma Entity.Alike.symm {e e' : Entity} (h : e.Alike e') : e'.Alike e :=
  ⟨h.identifier.symm, fun name => (h.held name).symm⟩

lemma Entity.Alike.refl (e : Entity) : e.Alike e := ⟨rfl, fun _ => rfl⟩

lemma Entity.heldTexts_put (e : Entity) (name name' : String) (vs : List AttributeValue) :
    (e.put name vs).heldTexts name' =
      if Text.fold name = Text.fold name' then {t | t ∈ ValueSet.texts vs}
      else e.heldTexts name' := by
  rw [heldTexts_eq, attribute?_put]
  split
  next =>
    ext t
    rw [Attribute.mem_heldTexts_some, Attribute.ofValues, Attribute.mem_texts_addAll]
    simp [ValueSet.mem_texts_iff, Attribute.texts]
  next => rw [← heldTexts_eq]

/-- Attributes with the same texts are put alike. -/
lemma Entity.Alike.put {e e' : Entity} (h : e.Alike e') {name name' : String}
    (hname : Text.fold name = Text.fold name') {vs vs' : List AttributeValue}
    (hforth : ValueSet.texts vs ⊆ ValueSet.texts vs')
    (hback : ValueSet.texts vs' ⊆ ValueSet.texts vs) :
    (e.put name vs).Alike (e'.put name' vs') where
  identifier := h.identifier
  held m := by
    have hvs : ∀ t, t ∈ ValueSet.texts vs ↔ t ∈ ValueSet.texts vs' :=
      fun t => ⟨fun ht => hforth ht, fun ht => hback ht⟩
    simp only [heldTexts_put, hname, h.held, hvs]

/-- An attribute without texts may be put where none are held. -/
lemma Entity.Alike.put_blank {e e' : Entity} (h : e.Alike e') {name : String}
    {vs : List AttributeValue} (hvs : ValueSet.texts vs = [])
    (hnone : ValueSet.texts (Reconciler.valuesOf e' name) = []) : (e.put name vs).Alike e' where
  identifier := h.identifier
  held m := by
    rw [heldTexts_put]
    split
    next hname => simp only [heldTexts, ← Reconciler.valuesOf_congr e' hname, hvs, hnone]
    next => exact h.held m

/-- Two operations of one kind on one attribute, with the same texts. -/
structure AttributeOperation.Alike (op op' : AttributeOperation) : Prop where
  target : sameFolded op.target op'.target = true
  kind : op.kind = op'.kind
  texts : ∀ t, t ∈ op.texts ↔ t ∈ op'.texts

lemma AttributeOperation.Alike.symm {op op' : AttributeOperation} (h : op.Alike op') :
    op'.Alike op :=
  ⟨by rw [Text.sameFolded_comm]; exact h.target, h.kind.symm, fun t => (h.texts t).symm⟩

instance (op op' : AttributeOperation) : Decidable (op.Alike op') :=
  decidable_of_iff (sameFolded op.target op'.target = true ∧ op.kind = op'.kind ∧
      (∀ t ∈ op.texts, t ∈ op'.texts) ∧ ∀ t ∈ op'.texts, t ∈ op.texts)
    ⟨fun ⟨htarget, hkind, hforth, hback⟩ => ⟨htarget, hkind, fun t => ⟨hforth t, hback t⟩⟩,
      fun h => ⟨h.target, h.kind, fun t => (h.texts t).1, fun t => (h.texts t).2⟩⟩

/-- Two changes of one kind with one verdict, and with operations that are alike. -/
structure PlannedChange.Alike (p p' : PlannedChange) : Prop where
  modification : p.change.modification = p'.change.modification
  allowed : p.allowed = p'.allowed
  forth : ∀ op ∈ p.change.operations, ∃ op' ∈ p'.change.operations, op.Alike op'
  back : ∀ op' ∈ p'.change.operations, ∃ op ∈ p.change.operations, op.Alike op'

instance (p p' : PlannedChange) : Decidable (p.Alike p') :=
  decidable_of_iff (p.change.modification = p'.change.modification ∧ p.allowed = p'.allowed ∧
      (∀ op ∈ p.change.operations, ∃ op' ∈ p'.change.operations, op.Alike op') ∧
      ∀ op' ∈ p'.change.operations, ∃ op ∈ p.change.operations, op.Alike op')
    ⟨fun ⟨hmodification, hallowed, hforth, hback⟩ => ⟨hmodification, hallowed, hforth, hback⟩,
      fun h => ⟨h.modification, h.allowed, h.forth, h.back⟩⟩

lemma PlannedChange.Alike.symm {p p' : PlannedChange} (h : p.Alike p') : p'.Alike p where
  modification := h.modification.symm
  allowed := h.allowed.symm
  forth op hop := (h.back op hop).imp fun _ h => ⟨h.1, h.2.symm⟩
  back op hop := (h.forth op hop).imp fun _ h => ⟨h.1, h.2.symm⟩

/-- Two answers of the planner: the same error, no change in both cases, or changes that are
alike. -/
inductive Agree : Except SyncError (Option PlannedChange) →
    Except SyncError (Option PlannedChange) → Prop
  | failed (e : SyncError) : Agree (.error e) (.error e)
  | planned {o o' : Option PlannedChange} (h : Option.Rel PlannedChange.Alike o o') :
      Agree (.ok o) (.ok o')

lemma Agree.symm {x y : Except SyncError (Option PlannedChange)} (h : Agree x y) : Agree y x := by
  cases h with
  | failed e => exact .failed e
  | planned h =>
    cases h with
    | none => exact .planned .none
    | some h => exact .planned (.some h.symm)

lemma Agree.refl (x : Except SyncError (Option PlannedChange)) : Agree x x := by
  have hop : ∀ op : AttributeOperation, op.Alike op := fun op =>
    ⟨Text.sameFolded_self _, rfl, fun _ => Iff.rfl⟩
  have hplan : ∀ p : PlannedChange, p.Alike p := fun p =>
    ⟨rfl, rfl, fun op h => ⟨op, h, hop op⟩, fun op h => ⟨op, h, hop op⟩⟩
  match x with
  | .error e => exact .failed e
  | .ok none => exact .planned .none
  | .ok (some p) => exact .planned (.some (hplan p))

lemma not_agree_ok_error (o : Option PlannedChange) (e : SyncError) :
    ¬ Agree (.ok o) (.error e) := by
  intro h
  cases h

/-- On these names the two ways of folding agree. -/
def Text.OneFolding (names : List String) : Prop :=
  ∀ a ∈ names, ∀ b ∈ names, sameFolded a b = true ↔ Text.fold a = Text.fold b

lemma Text.oneFolding_of_ascii {names : List String} (h : ∀ n ∈ names, IsAscii n) :
    OneFolding names :=
  fun a ha _ _ => sameFolded_iff_fold_eq (h a ha)

namespace Policy

variable {p : Policy} {s s' : Entity} {n n' : String}

/-- The names that a plan for a source record may come across. -/
def names (p : Policy) (s : Entity) : List String :=
  s.attributeNames ++ (p.attributes.keys ++ p.writeAttributes.getD [])

lemma mem_names_of_mem_writeScope (h : n ∈ p.writeScope (some s)) : n ∈ p.names s := by
  unfold writeScope at h
  unfold names
  split at h
  next names hnames =>
    have := mem_of_mem_distinctNames h
    simp [hnames, this]
  next =>
    have := mem_of_mem_distinctNames h
    simp only [Option.map_some, Option.getD_some, List.mem_append] at this ⊢
    tauto

/-- Two source records that are alike, as they are built, with names that fold in one way. -/
structure Twins (p : Policy) (s s' : Entity) : Prop where
  alike : s.Alike s'
  built : s.Built
  built' : s'.Built
  names : Text.OneFolding (p.names s ++ p.names s')

lemma Twins.symm (h : p.Twins s s') : p.Twins s' s where
  alike := h.alike.symm
  built := h.built'
  built' := h.built
  names := fun a ha b hb => h.names a (by simpa [or_comm] using ha) b (by simpa [or_comm] using hb)

lemma Twins.sameFolded_iff (h : p.Twins s s') (hn : n ∈ p.writeScope (some s))
    (hn' : n' ∈ p.writeScope (some s')) :
    sameFolded n n' = true ↔ Text.fold n = Text.fold n' :=
  h.names n (List.mem_append_left _ (mem_names_of_mem_writeScope hn)) n'
    (List.mem_append_right _ (mem_names_of_mem_writeScope hn'))

/-- A name in the scope of one record is in that of the other, or nothing is held under it. -/
lemma Twins.exists_mem_writeScope (h : p.Twins s s') (hn : n ∈ p.writeScope (some s)) :
    (∃ n' ∈ p.writeScope (some s'), sameFolded n n' = true) ∨ s.heldTexts n = ∅ := by
  have hname := mem_names_of_mem_writeScope hn
  cases hallowed : p.writeAttributes with
  | some allowed =>
    refine Or.inl ⟨n, ?_, Text.sameFolded_self n⟩
    simpa only [writeScope, hallowed] using hn
  | none =>
    have hscope : ∀ m ∈ s'.attributeNames ++ p.attributes.keys, sameFolded m n = true →
        ∃ n' ∈ p.writeScope (some s'), sameFolded n n' = true := by
      intro m hm hsame
      simp only [writeScope, hallowed, Option.map_some, Option.getD_some]
      obtain ⟨n', hn', hkept⟩ := exists_mem_distinctNames hm
      refine ⟨n', hn', ?_⟩
      rw [Text.sameFolded_comm]
      exact Text.sameFolded_trans hkept hsame
    cases hattribute : s'.attribute? n with
    | none =>
      refine Or.inr ?_
      rw [h.alike.held, Entity.heldTexts_eq, hattribute, Attribute.heldTexts_none]
    | some a =>
      -- The other record has the attribute too, under a name that folds in the same way.
      have hmem : a.name ∈ s'.attributeNames := by
        have hentry := (TextMap.mem_entries_iff _).2 hattribute
        exact List.mem_map_of_mem (List.mem_map_of_mem (f := Prod.snd) hentry)
      have hfold : Text.fold n = Text.fold a.name := h.built'.fold_name hattribute
      refine Or.inl (hscope a.name (List.mem_append_left _ hmem) ?_)
      refine (h.names a.name ?_ n (List.mem_append_left _ hname)).2 hfold.symm
      exact List.mem_append_right _ (List.mem_append_left _ hmem)

/-! ## Policies without expressions -/

lemma unscripted_of_expressions (h : p.expressions = []) : p.Unscripted := by
  intro a ha
  have hvalues := (List.append_eq_nil_iff.1 (List.append_eq_nil_iff.1 h).1).2
  exact List.flatMap_eq_nil_iff.1 hvalues a ha

lemma identifier_of_expressions (h : p.expressions = []) : p.identifier.expression = none := by
  simpa using (List.append_eq_nil_iff.1 h).2

lemma condition_of_expressions (h : p.expressions = []) (m : Modification) :
    p.conditions.of m = .always ∨ p.conditions.of m = .never := by
  have hconditions := (List.append_eq_nil_iff.1 (List.append_eq_nil_iff.1 h).1).1
  have hm := List.filterMap_eq_nil_iff.1 hconditions m (by cases m <;> decide)
  cases hc : p.conditions.of m with
  | always => exact Or.inl rfl
  | never => exact Or.inr rfl
  | expression e => simp [hc, Condition.expression?] at hm

end Policy

namespace Reconciler

variable {r : Reconciler} {s s' d d' : Entity} {n n' : String}

/-! ## Single operations -/

lemma alike_of_texts {kind : OperationKind} {raw raw' : List AttributeValue}
    (hname : sameFolded n n' = true)
    (hraw : ∀ t, t ∈ ValueSet.texts raw ↔ t ∈ ValueSet.texts raw') :
    (AttributeOperation.mk kind n (ValueSet.normalize raw)).Alike
      ⟨kind, n', ValueSet.normalize raw'⟩ where
  target := hname
  kind := rfl
  texts t := by rw [mem_texts_operation, mem_texts_operation, hraw]

lemma isEmpty_normalize_congr {raw raw' : List AttributeValue}
    (h : ∀ t, t ∈ ValueSet.texts raw ↔ t ∈ ValueSet.texts raw') :
    (ValueSet.normalize raw).isEmpty = (ValueSet.normalize raw').isEmpty := by
  rw [Bool.eq_iff_iff, List.isEmpty_iff, List.isEmpty_iff, ValueSet.normalize_eq_nil_iff,
    ValueSet.normalize_eq_nil_iff]
  simp only [h]

/-- The operation that makes up a difference is a matter of the texts on the two sides. -/
lemma rel_diffAttribute (status : AttributeStatus) {raw raw' held held' : List AttributeValue}
    (hname : sameFolded n n' = true)
    (hraw : ∀ t, t ∈ ValueSet.texts raw ↔ t ∈ ValueSet.texts raw')
    (hheld : ∀ t, t ∈ ValueSet.texts held ↔ t ∈ ValueSet.texts held') :
    Option.Rel AttributeOperation.Alike
      (diffAttribute status n (ValueSet.normalize raw) (ValueSet.normalize held))
      (diffAttribute status n' (ValueSet.normalize raw') (ValueSet.normalize held')) := by
  cases status with
  | keep => exact .none
  | force =>
    have hsame : ValueSet.same (ValueSet.normalize raw) (ValueSet.normalize held) =
        ValueSet.same (ValueSet.normalize raw') (ValueSet.normalize held') := by
      rw [Bool.eq_iff_iff, ValueSet.same_normalize_iff, ValueSet.same_normalize_iff]
      simp only [hraw, hheld]
    simp only [diffAttribute, isEmpty_normalize_congr hraw, isEmpty_normalize_congr hheld, hsame]
    split
    · exact .none
    · exact .some (alike_of_texts hname hheld)
    · exact .some (alike_of_texts hname hraw)
    · split
      · exact .none
      · exact .some (alike_of_texts hname hraw)
  | merge =>
    have hmissing : ∀ t,
        t ∈ ValueSet.texts ((ValueSet.normalize raw).filter fun v =>
          !(ValueSet.texts (ValueSet.normalize held)).contains v.canonical) ↔
        t ∈ ValueSet.texts ((ValueSet.normalize raw').filter fun v =>
          !(ValueSet.texts (ValueSet.normalize held')).contains v.canonical) := by
      intro t
      rw [← ValueSet.mem_texts_normalize, ← ValueSet.missing, ValueSet.mem_texts_missing,
        ← @ValueSet.mem_texts_normalize (List.filter _ _), ← ValueSet.missing,
        ValueSet.mem_texts_missing]
      simp only [ValueSet.mem_texts_normalize, hraw, hheld]
    have hempty : (ValueSet.missing (ValueSet.normalize raw) (ValueSet.normalize held)).isEmpty =
        (ValueSet.missing (ValueSet.normalize raw') (ValueSet.normalize held')).isEmpty :=
      isEmpty_normalize_congr hmissing
    simp only [diffAttribute, isEmpty_normalize_congr hraw, isEmpty_normalize_congr hheld, hempty]
    split
    · exact .none
    · split
      · exact .some (alike_of_texts hname hraw)
      · split
        · exact .none
        · exact .some (alike_of_texts hname hmissing)

/-- Without value expressions an update makes up the difference to what the source holds. -/
lemma eq_diff_of_updateOperation (h : r.policy.Unscripted) {op : Option AttributeOperation}
    (hop : (r.updateOperation s d n).result = .ok op) :
    ∃ raw, (∀ t, t ∈ ValueSet.texts raw ↔ t ∈ s.heldTexts n) ∧
      op = diffAttribute (r.policy.statusOf n) n (ValueSet.normalize raw)
        (ValueSet.normalize (valuesOf d n)) := by
  rcases updateOperation_eq_ok hop with ⟨hkeep, rfl⟩ | ⟨raw, hraw, hdiff⟩
  · exact ⟨valuesOf s n, fun _ => Iff.rfl, by rw [hkeep]; rfl⟩
  · rw [resolvedTexts_of_unscripted h] at hraw
    exact ⟨raw, hraw, hdiff⟩

lemma rel_updateOperation (h : r.policy.Unscripted) (hs : s.Alike s') (hd : d.Alike d')
    (hname : sameFolded n n' = true) (hfold : Text.fold n = Text.fold n')
    {op op' : Option AttributeOperation} (hop : (r.updateOperation s d n).result = .ok op)
    (hop' : (r.updateOperation s' d' n').result = .ok op') :
    Option.Rel AttributeOperation.Alike op op' := by
  obtain ⟨raw, hraw, rfl⟩ := eq_diff_of_updateOperation h hop
  obtain ⟨raw', hraw', rfl⟩ := eq_diff_of_updateOperation h hop'
  rw [r.policy.statusOf_congr hname]
  refine rel_diffAttribute _ hname (fun t => ?_) (fun t => ?_)
  · rw [hraw, hraw', hs.held, heldTexts_congr s' hfold]
  · exact Set.ext_iff.1 ((hd.held n).trans (heldTexts_congr d' hfold)) t

lemma rel_createOperation (h : r.policy.Unscripted) (hs : s.Alike s')
    (hname : sameFolded n n' = true) (hfold : Text.fold n = Text.fold n')
    {op op' : Option AttributeOperation} (hop : (r.createOperation s n).result = .ok op)
    (hop' : (r.createOperation s' n').result = .ok op') :
    Option.Rel AttributeOperation.Alike op op' := by
  have hraw : ∀ t, t ∈ ValueSet.texts (valuesOf s n) ↔ t ∈ ValueSet.texts (valuesOf s' n') :=
    Set.ext_iff.1 ((hs.held n).trans (heldTexts_congr s' hfold))
  rw [result_createOperation h, isEmpty_normalize_congr hraw] at hop
  rw [result_createOperation h] at hop'
  obtain rfl := Except.ok.inj hop
  obtain rfl := Except.ok.inj hop'
  split
  · exact .none
  · exact .some (alike_of_texts hname hraw)

lemma result_createOperation_of_blank (h : r.policy.Unscripted) (hblank : s.heldTexts n = ∅) :
    (r.createOperation s n).result = .ok none := by
  have hnil : ValueSet.normalize (valuesOf s n) = [] :=
    ValueSet.normalize_eq_nil_iff.2 (Set.eq_empty_iff_forall_notMem.1 hblank)
  rw [result_createOperation h, hnil]
  rfl

/-- The keys of the attributes that an update empties: forced ones of which the source holds
nothing, and the destination something. -/
def cleared (r : Reconciler) (s d : Entity) : Set String :=
  {k | ∃ n ∈ r.policy.writeScope (some s), Text.fold n = k ∧ r.policy.statusOf n = .force ∧
    s.heldTexts n = ∅ ∧ d.heldTexts n ≠ ∅}

/-- Where the source holds nothing, there is an operation exactly on what is emptied. -/
lemma isSome_updateOperation_of_blank (h : r.policy.Unscripted) {op : Option AttributeOperation}
    (hop : (r.updateOperation s d n).result = .ok op) (hblank : s.heldTexts n = ∅) :
    op.isSome = true ↔ r.policy.statusOf n = .force ∧ d.heldTexts n ≠ ∅ := by
  rw [Option.isSome_iff_ne_none]
  cases hstatus : r.policy.statusOf n with
  | force =>
    rw [Ne, eq_none_iff_of_force hop hstatus, resolvedTexts_of_unscripted h, hblank]
    simp
  | merge =>
    have hnone := eq_none_of_merge hop hstatus
      (by rw [resolvedTexts_of_unscripted h, hblank]; exact Set.empty_subset _)
    simp [hnone]
  | keep =>
    have hnone := Except.ok.inj (hop.symm.trans (result_updateOperation_of_keep hstatus))
    simp [hnone]

/-- If every operation is planned alike for some other name, the operations have their like among
those for the other names. -/
lemma exists_alike_of_rel {plan plan' : String → Asked (Option AttributeOperation)}
    {names names' : List String} {ops ops' : List AttributeOperation}
    (hops : (collectOperations plan names).result = .ok ops)
    (hops' : (collectOperations plan' names').result = .ok ops')
    (hrel : ∀ n ∈ names, ∀ op, (plan n).result = .ok (some op) → ∃ n' ∈ names',
      ∀ op', (plan' n').result = .ok op' → Option.Rel AttributeOperation.Alike (some op) op') :
    ∀ op ∈ ops, ∃ op' ∈ ops', op.Alike op' := by
  intro op hop
  obtain ⟨n, hn, hplan⟩ := (mem_collectOperations_iff hops).1 hop
  obtain ⟨n', hn', hrel⟩ := hrel n hn op hplan
  obtain ⟨f, -, hf⟩ := collectOperations_eq_ok hops'
  cases hop' : f n' with
  | none => cases hop' ▸ hrel _ (hf n' hn')
  | some op' =>
    have hplan' := hop' ▸ hf n' hn'
    cases hrel _ hplan' with
    | some halike => exact ⟨op', (mem_collectOperations_iff hops').2 ⟨n', hn', hplan'⟩, halike⟩

/-! ## Pairs of records -/

section Pairs

variable {ops ops' : List AttributeOperation}

/-- The operations for one of two source records have their like among those for the other, if the
other has the same attributes emptied. -/
lemma exists_alike_of_update (h : r.policy.Unscripted) (hs : r.policy.Twins s s')
    (hd : d.Alike d')
    (hops : (collectOperations (r.updateOperation s d)
      (r.policy.writeScope (some s))).result = .ok ops)
    (hops' : (collectOperations (r.updateOperation s' d')
      (r.policy.writeScope (some s'))).result = .ok ops')
    (hcleared : r.cleared s d ⊆ r.cleared s' d') : ∀ op ∈ ops, ∃ op' ∈ ops', op.Alike op' := by
  refine exists_alike_of_rel hops hops' fun n hn op hplan => ?_
  obtain ⟨n', hn', hname⟩ : ∃ n' ∈ r.policy.writeScope (some s'), sameFolded n n' = true := by
    rcases hs.exists_mem_writeScope hn with hthere | hblank
    · exact hthere
    · obtain ⟨hforce, hheld⟩ := (isSome_updateOperation_of_blank h hplan hblank).1 rfl
      obtain ⟨n', hn', hfold, -⟩ := hcleared ⟨n, hn, rfl, hforce, hblank, hheld⟩
      exact ⟨n', hn', (hs.sameFolded_iff hn hn').2 hfold.symm⟩
  exact ⟨n', hn', fun op' =>
    rel_updateOperation h hs.alike hd hname ((hs.sameFolded_iff hn hn').1 hname) hplan⟩

lemma exists_verdict (h : r.policy.expressions = []) (m : Modification) :
    ∃ verdict, ∀ b, (r.isAllowed m b).result = .ok verdict := by
  simp only [isAllowed]
  rcases Policy.condition_of_expressions h m with hm | hm <;> rw [hm]
  · exact ⟨true, fun _ => rfl⟩
  · exact ⟨false, fun _ => rfl⟩

lemma classify_of_alike (hs : s.Alike s') (hd : d.Alike d') :
    classify (some s') (some d') = classify (some s) (some d) := by
  simp only [classify, hs.identifier, hd.identifier]

/-- Pairs that have the same attributes emptied are planned alike. -/
theorem agree_of_cleared (h : r.policy.expressions = []) (hs : r.policy.Twins s s')
    (hd : d.Alike d') (hcleared : r.cleared s d = r.cleared s' d') :
    Agree (r.computeChange (some s) (some d)).result
      (r.computeChange (some s') (some d')).result := by
  have hclass := classify_of_alike hs.alike hd
  have hid : destinationIdentifier d' = destinationIdentifier d := by
    simp only [destinationIdentifier, hd.identifier]
  rcases classify_pair s d with hrename | hupdate
  · obtain ⟨verdict, hverdict⟩ := exists_verdict h .rename
    have hsame : (r.planRename s' d').result = (r.planRename s d).result := by
      simp only [planRename, hid, hs.alike.identifier, Asked.result_bind]
      cases s'.identifier with
      | none => rfl
      | some new => simp only [Asked.result_bind, hverdict]
    simp only [computeChange, hclass, hrename, Asked.result_bind, hsame]
    exact .refl _
  · rw [computeChange_update hupdate, computeChange_update (hclass.trans hupdate)]
    have hplain := Policy.unscripted_of_expressions h
    obtain ⟨verdict, hverdict⟩ := exists_verdict h .update
    obtain ⟨ops, hops⟩ := exists_operations hplain s d
    obtain ⟨ops', hops'⟩ := exists_operations hplain s' d'
    have hforth : ∀ op ∈ ops, ∃ op' ∈ ops', op.Alike op' :=
      exists_alike_of_update hplain hs hd hops hops' hcleared.subset
    have hback : ∀ op' ∈ ops', ∃ op ∈ ops, op.Alike op' := fun op' hop' =>
      (exists_alike_of_update hplain hs.symm hd.symm hops' hops hcleared.superset op' hop').imp
        fun _ h => ⟨h.1, h.2.symm⟩
    have hempty : ops = [] ↔ ops' = [] := by
      constructor
      · rintro rfl
        exact List.eq_nil_iff_forall_not_mem.2 fun op' hop' => by simpa using hback op' hop'
      · rintro rfl
        exact List.eq_nil_iff_forall_not_mem.2 fun op hop => by simpa using hforth op hop
    rw [result_planUpdate hops hverdict, result_planUpdate hops' hverdict, hid]
    by_cases hnone : ops = []
    · rw [if_pos hnone, if_pos (hempty.1 hnone)]
      exact .refl _
    · rw [if_neg hnone, if_neg (mt hempty.2 hnone)]
      cases (destinationIdentifier d).result with
      | error e => exact .failed e
      | ok id => exact .planned (.some ⟨rfl, rfl, hforth, hback⟩)

/-- In an update of a record with an identifier, what is emptied shows in the answer. -/
theorem cleared_subset_of_agree (h : r.policy.expressions = []) (hs : r.policy.Twins s s')
    (hd : d.Alike d') (hid : d.identifier.isSome = true)
    (hupdate : classify (some s) (some d) = some .update)
    (hagree : Agree (r.computeChange (some s) (some d)).result
      (r.computeChange (some s') (some d')).result) : r.cleared s d ⊆ r.cleared s' d' := by
  rintro k ⟨n, hn, rfl, hforce, hblank, hheld⟩
  have hplain := Policy.unscripted_of_expressions h
  obtain ⟨verdict, hverdict⟩ := exists_verdict h .update
  obtain ⟨ops, hops⟩ := exists_operations hplain s d
  obtain ⟨ops', hops'⟩ := exists_operations hplain s' d'
  obtain ⟨op, hplan⟩ := exists_updateOperation hplain s d n
  obtain ⟨op, rfl⟩ := Option.isSome_iff_exists.1
    ((isSome_updateOperation_of_blank hplain hplan hblank).2 ⟨hforce, hheld⟩)
  have hop : op ∈ ops := (mem_collectOperations_iff hops).2 ⟨n, hn, hplan⟩
  obtain ⟨id, hid⟩ := Option.isSome_iff_exists.1 hid
  rw [computeChange_update hupdate,
    computeChange_update ((classify_of_alike hs.alike hd).trans hupdate),
    result_planUpdate hops hverdict, if_neg (List.ne_nil_of_mem hop),
    result_planUpdate hops' hverdict, destinationIdentifier, hid] at hagree
  obtain ⟨op', hop', halike⟩ : ∃ op' ∈ ops', op.Alike op' := by
    by_cases hnone : ops' = []
    · rw [if_pos hnone] at hagree
      cases hagree with
      | planned h => cases h
    · rw [if_neg hnone, destinationIdentifier, ← hd.identifier, hid] at hagree
      cases hagree with
      | planned h =>
        cases h with
        | some halike => exact halike.forth op hop
  obtain ⟨n', hn', hplan'⟩ := (mem_collectOperations_iff hops').1 hop'
  have hname : sameFolded n n' = true := by
    rw [← target_updateOperation hplan, ← target_updateOperation hplan']
    exact halike.target
  have hfold := (hs.sameFolded_iff hn hn').1 hname
  refine ⟨n', hn', hfold.symm, (r.policy.statusOf_congr hname).symm.trans hforce, ?_, ?_⟩
  · rw [← hblank, hs.alike.held, heldTexts_congr s' hfold]
  · rwa [hd.held, heldTexts_congr d' hfold] at hheld

end Pairs

/-! ## Records without a counterpart -/

/-- A record has an identifier, or a first value to be named after. -/
def Named (r : Reconciler) (s : Entity) : Prop :=
  s.identifier.isSome = true ∨ ∃ name v, r.policy.identifier.uniqueAttribute = some name ∧
    s.first? name = some v ∧ v ≠ ""

section Creation

variable {ops ops' : List AttributeOperation} {verdict : Bool}

/-- Without an expression, an identifier comes from the first value of the unique attribute. -/
lemma exists_resolveIdentifier (h : r.policy.identifier.expression = none) (s : Entity) :
    ∃ id, (r.resolveIdentifier s).result = .ok id ∧
      (id.isSome = true ↔ ∃ name v, r.policy.identifier.uniqueAttribute = some name ∧
        s.first? name = some v ∧ v ≠ "") := by
  unfold resolveIdentifier
  simp only [h]
  split
  next name hname =>
    split
    next v hv =>
      by_cases hempty : v = ""
      · exact ⟨none, by simp [hempty], by simp [hname, hv, hempty]⟩
      · exact ⟨some _, by simp [hempty]; rfl, by simp [hname, hv, hempty]⟩
    next hfirst => exact ⟨none, rfl, by simp [hname, hfirst]⟩
  next hname => exact ⟨none, rfl, by simp [hname]⟩

/-- What comes of the operations of a creation. -/
lemma result_planCreate (h : r.policy.identifier.expression = none)
    (hops : (collectOperations (r.createOperation s)
      (r.policy.writeScope (some s))).result = .ok ops)
    (hverdict : ∀ b, (r.isAllowed .create b).result = .ok verdict) :
    (r.Named s ∧ ∃ id, (r.planCreate s).result = .ok ⟨.create id ops, verdict⟩) ∨
      (¬ r.Named s ∧ (r.planCreate s).result = .error (.missingIdentifier
        "source entry has no identifier and no identifier rule matched")) := by
  unfold Named
  cases hid : s.identifier with
  | some id =>
    refine Or.inl ⟨Or.inl rfl, id, ?_⟩
    simp only [planCreate, hid, Asked.result_bind_eq_ok]
    exact ⟨id, rfl, ops, hops, verdict, hverdict _, rfl⟩
  | none =>
    obtain ⟨id, hresolved, hnamed⟩ := exists_resolveIdentifier h s
    simp only [Option.isSome_none, Bool.false_eq_true, false_or, ← hnamed]
    cases id with
    | some id =>
      refine Or.inl ⟨rfl, id, ?_⟩
      simp only [planCreate, hid, Asked.result_bind_eq_ok]
      refine ⟨some id, hresolved, ?_⟩
      simp only [Asked.result_bind_eq_ok]
      exact ⟨id, rfl, ops, hops, verdict, hverdict _, rfl⟩
    | none =>
      refine Or.inr ⟨by simp, ?_⟩
      simp only [planCreate, hid, Asked.result_bind, hresolved]
      rfl

/-- The operations that create one of two source records have their like among those that create
the other. -/
lemma exists_alike_of_create (h : r.policy.Unscripted) (hs : r.policy.Twins s s')
    (hops : (collectOperations (r.createOperation s)
      (r.policy.writeScope (some s))).result = .ok ops)
    (hops' : (collectOperations (r.createOperation s')
      (r.policy.writeScope (some s'))).result = .ok ops') :
    ∀ op ∈ ops, ∃ op' ∈ ops', op.Alike op' := by
  refine exists_alike_of_rel hops hops' fun n hn op hplan => ?_
  obtain ⟨n', hn', hname⟩ : ∃ n' ∈ r.policy.writeScope (some s'), sameFolded n n' = true := by
    refine (hs.exists_mem_writeScope hn).resolve_right fun hblank => ?_
    simp [result_createOperation_of_blank h hblank] at hplan
  exact ⟨n', hn', fun op' =>
    rel_createOperation h hs.alike hname ((hs.sameFolded_iff hn hn').1 hname) hplan⟩

/-- Source records are created alike if both can be named or neither can. -/
theorem agree_create_iff (h : r.policy.expressions = []) (hs : r.policy.Twins s s') :
    Agree (r.computeChange (some s) none).result (r.computeChange (some s') none).result ↔
      (r.Named s ↔ r.Named s') := by
  have hplain := Policy.unscripted_of_expressions h
  have hexpression := Policy.identifier_of_expressions h
  obtain ⟨verdict, hverdict⟩ := exists_verdict h .create
  obtain ⟨ops, hops⟩ := exists_collectOperations fun n
    (_ : n ∈ r.policy.writeScope (some s)) => ⟨_, result_createOperation hplain s n⟩
  obtain ⟨ops', hops'⟩ := exists_collectOperations fun n
    (_ : n ∈ r.policy.writeScope (some s')) => ⟨_, result_createOperation hplain s' n⟩
  simp only [computeChange, Asked.result_bind]
  rcases result_planCreate hexpression hops hverdict with ⟨hnamed, id, hplan⟩ | ⟨hnamed, hplan⟩ <;>
    rcases result_planCreate hexpression hops' hverdict with
      ⟨hnamed', id', hplan'⟩ | ⟨hnamed', hplan'⟩ <;>
    rw [hplan, hplan']
  · refine iff_of_true (.planned (.some ⟨rfl, rfl, fun op hop => ?_, fun op' hop' => ?_⟩))
      (iff_of_true hnamed hnamed')
    · exact exists_alike_of_create hplain hs hops hops' op hop
    · exact (exists_alike_of_create hplain hs.symm hops' hops op' hop').imp
        fun _ h => ⟨h.1, h.2.symm⟩
  · exact iff_of_false (not_agree_ok_error _ _) fun h => hnamed' (h.1 hnamed)
  · exact iff_of_false (fun h => not_agree_ok_error _ _ h.symm) fun h => hnamed (h.2 hnamed')
  · exact iff_of_true (.failed _) (iff_of_false hnamed hnamed')

end Creation

/-- **Only texts count**, up to two things.  Under a policy without expressions, source records
that hold the same texts are planned alike for destination records that do: an update, if both have
the same attributes emptied, and a creation, if both can be named or neither can; and where a record
with an identifier is updated, or one is created, only then. -/
theorem agree_of_twins (h : r.policy.expressions = []) (hs : r.policy.Twins s s')
    (hd : d.Alike d') :
    (r.cleared s d = r.cleared s' d' →
      Agree (r.computeChange (some s) (some d)).result
        (r.computeChange (some s') (some d')).result) ∧
    (d.identifier.isSome = true → classify (some s) (some d) = some .update →
      Agree (r.computeChange (some s) (some d)).result
        (r.computeChange (some s') (some d')).result →
      r.cleared s d = r.cleared s' d') ∧
    (Agree (r.computeChange (some s) none).result (r.computeChange (some s') none).result ↔
      (r.Named s ↔ r.Named s')) := by
  refine ⟨agree_of_cleared h hs hd, fun hid hupdate hagree => Set.Subset.antisymm ?_ ?_,
    agree_create_iff h hs⟩
  · exact cleared_subset_of_agree h hs hd hid hupdate hagree
  · have hclass := (classify_of_alike hs.alike hd).trans hupdate
    exact cleared_subset_of_agree h hs.symm hd.symm (hd.identifier ▸ hid) hclass hagree.symm

/-! ### Shelves of a reading room

The two sources differ in spellings, in the order and repetition of values, in types and in a note
that is blank; all the same, they call for the same three operations. -/

def readingRoom : Reconciler :=
  ⟨{ Policy.empty with
      attributes := .ofList [("phone", ⟨some .merge, [], [], []⟩), ("shelf", ⟨none, [], [], []⟩)]
      identifier := { IdentifierRule.empty with uniqueAttribute := some "cn" } },
    .ofTable []⟩

def reader : Entity :=
  (((Entity.named "uid=3").put "cn" [.string "Ada", .string "A."]).put "PHONE"
    [.integer 5, .string ""]).put "note" [.string ""]

def reader' : Entity :=
  ((Entity.named "uid=3").put "CN" [.string "A.", .string "", .string "Ada", .string "A."]).put
    "phone" [.string "5"]

def lent : Entity :=
  (((Entity.named "UID=3").put "cn" [.string "Ada"]).put "phone" [.string "1", .boolean true]).put
    "Shelf" [.string "3", .string "4"]

def lent' : Entity :=
  (((Entity.named "UID=3").put "Cn" [.string "", .string "Ada"]).put "phone"
    [.string "true", .integer 1]).put "shelf" [.integer 4, .integer 3]

lemma twins_reader : readingRoom.policy.Twins reader reader' where
  alike := .put_blank
    (((Entity.Alike.refl _).put (by decide +kernel) (by decide +kernel) (by decide +kernel)).put
      (by decide +kernel) (by decide +kernel) (by decide +kernel))
    (by decide +kernel) (by decide +kernel)
  built := (((Entity.Built.named _).set _).set _).set _
  built' := ((Entity.Built.named _).set _).set _
  names := Text.oneFolding_of_ascii (by decide +kernel)

lemma alike_lent : lent.Alike lent' :=
  (((Entity.Alike.refl _).put (by decide +kernel) (by decide +kernel) (by decide +kernel)).put
    (by decide +kernel) (by decide +kernel) (by decide +kernel)).put
    (by decide +kernel) (by decide +kernel) (by decide +kernel)

def visit : Change :=
  .update "UID=3" [⟨.replace, "cn", [.string "Ada", .string "A."]⟩, ⟨.add, "PHONE", [.integer 5]⟩,
    ⟨.delete, "shelf", [.string "3", .string "4"]⟩]

def visit' : Change :=
  .update "UID=3" [⟨.replace, "CN", [.string "A.", .string "Ada"]⟩, ⟨.add, "phone", [.string "5"]⟩,
    ⟨.delete, "shelf", [.integer 4, .integer 3]⟩]

theorem agree_of_reading :
    readingRoom.policy.expressions = [] ∧ readingRoom.policy.Twins reader reader' ∧
      lent.Alike lent' ∧
      (readingRoom.computeChange (some reader) (some lent)).result = .ok (some ⟨visit, true⟩) ∧
      (readingRoom.computeChange (some reader') (some lent')).result = .ok (some ⟨visit', true⟩) ∧
      readingRoom.cleared reader lent = readingRoom.cleared reader' lent' ∧
      Agree (readingRoom.computeChange (some reader) none).result
        (readingRoom.computeChange (some reader') none).result := by
  have hvisit : (readingRoom.computeChange (some reader) (some lent)).result =
      .ok (some ⟨visit, true⟩) := by rfl
  have hvisit' : (readingRoom.computeChange (some reader') (some lent')).result =
      .ok (some ⟨visit', true⟩) := by rfl
  obtain ⟨-, hcleared, hnamed⟩ := agree_of_twins (by decide +kernel) twins_reader alike_lent
  refine ⟨by decide +kernel, twins_reader, alike_lent, hvisit, hvisit', hcleared rfl rfl ?_,
    hnamed.2 (iff_of_true (Or.inl rfl) (Or.inl rfl))⟩
  rw [hvisit, hvisit']
  exact .planned (.some (by decide +kernel))

/-- A reader of whom only a name is known. -/
def known : Entity := (Entity.named "uid=3").put "cn" [.string "Ada"]

/-- A reader who has not been given an identifier yet. -/
def stranger (names : List AttributeValue) : Entity := Entity.anonymous.put "cn" names

/-- A blank note is emptied in the destination where an absent one is not, and an empty name hides
another one behind it. -/
theorem not_forall_agree :
    (¬ ∀ (r : Reconciler) (s s' d d' : Entity), r.policy.expressions = [] → r.policy.Twins s s' →
      d.Alike d' → Agree (r.computeChange (some s) (some d)).result
        (r.computeChange (some s') (some d')).result) ∧
    ¬ ∀ (r : Reconciler) (s s' : Entity), r.policy.expressions = [] → r.policy.Twins s s' →
      Agree (r.computeChange (some s) none).result (r.computeChange (some s') none).result := by
  constructor
  · intro h
    have htwins : readingRoom.policy.Twins (known.put "note" [.string ""]) known :=
      ⟨(Entity.Alike.refl _).put_blank (by decide +kernel) (by decide +kernel),
        ((Entity.Built.named _).set _).set _, (Entity.Built.named _).set _,
        Text.oneFolding_of_ascii (by decide +kernel)⟩
    have hagree := h readingRoom _ _ (known.put "note" [.string "late"]) _ (by decide +kernel)
      htwins (.refl _)
    have hblank : (readingRoom.computeChange (some (known.put "note" [.string ""]))
        (some (known.put "note" [.string "late"]))).result =
          .ok (some ⟨.update "uid=3" [⟨.delete, "note", [.string "late"]⟩], true⟩) := by rfl
    have habsent : (readingRoom.computeChange (some known)
        (some (known.put "note" [.string "late"]))).result = .ok none := by rfl
    rw [hblank, habsent] at hagree
    cases hagree with
    | planned hplanned => cases hplanned
  · intro h
    have htwins : readingRoom.policy.Twins (stranger [.string "", .string "Ada"])
        (stranger [.string "Ada", .string ""]) :=
      ⟨(Entity.Alike.refl _).put rfl (by decide +kernel) (by decide +kernel),
        (Entity.Built.start none none).set _, (Entity.Built.start none none).set _,
        Text.oneFolding_of_ascii (by decide +kernel)⟩
    have hagree := h readingRoom _ _ (by decide +kernel) htwins
    have hfirst : (readingRoom.computeChange (some (stranger [.string "", .string "Ada"]))
        none).result = .error (.missingIdentifier
          "source entry has no identifier and no identifier rule matched") := by rfl
    have hlast : (readingRoom.computeChange (some (stranger [.string "Ada", .string ""]))
        none).result = .ok (some ⟨.create "cn=Ada" [⟨.add, "cn", [.string "Ada"]⟩], true⟩) := by
      rfl
    rw [hfirst, hlast] at hagree
    cases hagree

end Reconciler

end StoreSync
