import StoreSync.Proofs.Values

/-!
# What a list of operations does to one attribute

An operation works on the attribute that its target addresses and leaves every other alone.
`AttributeOperation.onAttribute` is the operation as a function of that attribute, present or
absent; `attribute?_applyTo` says that carrying the operation out is this function at the target
and the identity elsewhere.

A planner that names every attribute once gives a list of operations whose targets differ after
folding.  For such a list the order does not matter: `attribute?_applyOperations` finds the one
operation on an attribute, and `attribute?_applyOperations_of_forall_ne` is the frame.

In a list that names attributes repeatedly the order does matter.  Text by text it is the last
operation that says anything about a text which decides whether the attribute holds it
(`Change.contains_values_applyOperations`).  The same operation decides when the list is carried
out a second time, which therefore changes nothing (`Change.effect_twice`).
-/

namespace StoreSync

namespace Entity

lemma values_eq (e : Entity) (name : String) :
    e.values name = ((e.attribute? name).map Attribute.texts).getD [] := by
  unfold values
  cases e.attribute? name <;> rfl

lemma mem_values_iff {e : Entity} {name text : String} :
    text ∈ e.values name ↔ ∃ a, e.attribute? name = some a ∧ text ∈ a.texts := by
  unfold values
  cases e.attribute? name <;> simp

end Entity

namespace AttributeOperation

/-- The operation on the attribute it addresses, which may be absent. -/
def onAttribute (op : AttributeOperation) (a : Option Attribute) : Option Attribute :=
  match op.kind with
  | .add => some ((a.getD ⟨op.target, []⟩).addAll op.values)
  | .replace => if op.values.isEmpty then none else some (Attribute.ofValues op.target op.values)
  | .delete =>
    if op.values.isEmpty then none
    else a.bind fun a =>
      let rest := op.values.foldl Attribute.remove a
      if rest.values.isEmpty then none else some rest

theorem attribute?_applyTo (op : AttributeOperation) (e : Entity) (name : String) :
    (op.applyTo e).attribute? name =
      if Text.fold op.target = Text.fold name then op.onAttribute (e.attribute? name)
      else e.attribute? name := by
  have haddress : Text.fold op.target = Text.fold name →
      e.attribute? op.target = e.attribute? name := fun h => by
    simp only [Entity.attribute?, h]
  obtain ⟨kind, target, vs⟩ := op
  cases kind with
  | add =>
    simp only [applyTo, onAttribute, Entity.attribute?_updateEntry]
    split
    next h => rw [haddress h]
    next => rfl
  | replace =>
    simp only [applyTo, onAttribute]
    by_cases hvs : vs.isEmpty = true
    · simp only [hvs, if_true, Entity.attribute?_erase]
    · simp only [hvs, Bool.false_eq_true, if_false, Entity.attribute?_put,
        Entity.attribute?_erase]
      split <;> rfl
  | delete =>
    simp only [applyTo, onAttribute]
    by_cases hvs : vs.isEmpty = true
    · simp only [hvs, if_true, Entity.attribute?_erase]
    · simp only [hvs, Bool.false_eq_true, if_false]
      cases ha : e.attribute? target with
      | none =>
        simp only
        split
        next h => rw [← haddress h, ha]; rfl
        next => rfl
      | some a =>
        simp only
        by_cases hrest : (vs.foldl Attribute.remove a).values.isEmpty = true
        · simp only [hrest, if_true, Entity.attribute?_erase]
          split
          next h => rw [← haddress h, ha]; simpa using hrest
          next => rfl
        · simp only [hrest, Bool.false_eq_true, if_false, Entity.modify, ha]
          show TextMap.get? (TextMap.insert _ _ _) _ = _
          rw [TextMap.get?_insert]
          split
          next h => rw [← haddress h, ha]; simpa using hrest
          next => rfl

/-- An operation works on the attributes alone. -/
lemma exists_applyTo (op : AttributeOperation) (e : Entity) :
    ∃ attributes, op.applyTo e = { e with attributes := attributes } := by
  obtain ⟨kind, target, vs⟩ := op
  cases kind with
  | add => exact ⟨_, rfl⟩
  | replace =>
    simp only [applyTo]
    split
    · exact ⟨_, rfl⟩
    · exact ⟨_, rfl⟩
  | delete =>
    simp only [applyTo]
    split
    · exact ⟨_, rfl⟩
    · split
      · exact ⟨_, rfl⟩
      · split
        · exact ⟨_, rfl⟩
        · unfold Entity.modify
          split
          · exact ⟨_, rfl⟩
          · exact ⟨_, rfl⟩

@[simp] theorem identifier_applyTo (op : AttributeOperation) (e : Entity) :
    (op.applyTo e).identifier = e.identifier := by
  obtain ⟨attributes, h⟩ := op.exists_applyTo e
  rw [h]

@[simp] theorem newIdentifier_applyTo (op : AttributeOperation) (e : Entity) :
    (op.applyTo e).newIdentifier = e.newIdentifier := by
  obtain ⟨attributes, h⟩ := op.exists_applyTo e
  rw [h]

/-! ## Texts -/

/-- What the operation decides about one text of its attribute: whether it is held afterwards.
Nothing is decided about a text that stays as it was. -/
def verdict? (op : AttributeOperation) (text : String) : Option Bool :=
  match op.kind with
  | .add => if op.texts.contains text then some true else none
  | .replace => some (op.texts.contains text)
  | .delete => if op.values.isEmpty || op.texts.contains text then some false else none

/-- What the operation decides about one text under one name. -/
def decision? (op : AttributeOperation) (name text : String) : Option Bool :=
  if Text.fold op.target = Text.fold name then op.verdict? text else none

lemma contains_onAttribute (op : AttributeOperation) (a : Option Attribute) (text : String) :
    (((op.onAttribute a).map Attribute.texts).getD []).contains text =
      (op.verdict? text).getD (((a.map Attribute.texts).getD []).contains text) := by
  have htexts : op.values.map AttributeValue.canonical = op.texts := rfl
  rw [Bool.eq_iff_iff]
  cases hkind : op.kind with
  | add =>
    have hbefore : (a.getD ⟨op.target, []⟩).texts = (a.map Attribute.texts).getD [] := by
      cases a <;> rfl
    simp only [onAttribute, verdict?, hkind, Option.map_some, Option.getD_some,
      List.contains_iff_mem, Attribute.mem_texts_addAll, hbefore, htexts]
    by_cases hadded : text ∈ op.texts
    · simp only [hadded, true_or, if_true, Option.getD_some]
    · simp only [hadded, false_or, if_false, Option.getD_none, List.contains_iff_mem]
  | replace =>
    have hnew : ((if op.values.isEmpty then none else
        some (Attribute.ofValues op.target op.values)).map Attribute.texts).getD [] =
          (Attribute.ofValues op.target op.values).texts := by
      cases op.values <;> rfl
    simp only [onAttribute, verdict?, hkind, Option.getD_some, hnew, List.contains_iff_mem]
    rw [Attribute.ofValues, Attribute.mem_texts_addAll, htexts]
    exact or_iff_left List.not_mem_nil
  | delete =>
    simp only [onAttribute, verdict?, hkind]
    by_cases hall : op.values.isEmpty = true
    · simp [hall]
    · simp only [hall, Bool.false_eq_true, if_false, Bool.false_or, List.contains_iff_mem]
      cases a with
      | none => by_cases hdeleted : text ∈ op.texts <;> simp [hdeleted]
      | some a =>
        -- An attribute without values and an absent one hold the same texts.
        have hrest : ((if (op.values.foldl Attribute.remove a).values.isEmpty then none else
            some (op.values.foldl Attribute.remove a)).map Attribute.texts).getD [] =
              (op.values.foldl Attribute.remove a).texts := by
          split
          next hempty => simp [Attribute.texts, List.isEmpty_iff.1 hempty]
          next => rfl
        simp only [Option.bind_some, hrest, Attribute.mem_texts_removeAll, htexts]
        by_cases hdeleted : text ∈ op.texts <;> simp [hdeleted]

theorem contains_values_applyTo (op : AttributeOperation) (e : Entity) (name text : String) :
    ((op.applyTo e).values name).contains text =
      (op.decision? name text).getD ((e.values name).contains text) := by
  rw [Entity.values_eq, Entity.values_eq, op.attribute?_applyTo, decision?]
  split
  · exact op.contains_onAttribute _ text
  · rfl

end AttributeOperation

namespace Change

@[simp] theorem identifier_applyOperations (ops : List AttributeOperation) (e : Entity) :
    (applyOperations ops e).identifier = e.identifier := by
  induction ops generalizing e with
  | nil => rfl
  | cons op rest ih => exact (ih (op.applyTo e)).trans (op.identifier_applyTo e)

@[simp] theorem newIdentifier_applyOperations (ops : List AttributeOperation) (e : Entity) :
    (applyOperations ops e).newIdentifier = e.newIdentifier := by
  induction ops generalizing e with
  | nil => rfl
  | cons op rest ih => exact (ih (op.applyTo e)).trans (op.newIdentifier_applyTo e)

/-- The frame of a list of operations. -/
theorem attribute?_applyOperations_of_forall_ne {ops : List AttributeOperation} {name : String}
    (h : ∀ op ∈ ops, Text.fold op.target ≠ Text.fold name) (e : Entity) :
    (applyOperations ops e).attribute? name = e.attribute? name := by
  induction ops generalizing e with
  | nil => rfl
  | cons op rest ih =>
    have hop : Text.fold op.target ≠ Text.fold name := h op List.mem_cons_self
    have hrest := ih (fun o ho => h o (List.mem_cons_of_mem _ ho)) (op.applyTo e)
    exact hrest.trans (by rw [op.attribute?_applyTo, if_neg hop])

/-- Among operations on different attributes, the one on an attribute decides what becomes of
it. -/
theorem attribute?_applyOperations {ops : List AttributeOperation}
    (hops : ops.Pairwise fun a b => Text.fold a.target ≠ Text.fold b.target)
    {op : AttributeOperation} (hop : op ∈ ops) {name : String}
    (hname : Text.fold op.target = Text.fold name) (e : Entity) :
    (applyOperations ops e).attribute? name = op.onAttribute (e.attribute? name) := by
  induction ops generalizing e with
  | nil => simp at hop
  | cons first rest ih =>
    obtain ⟨hfirst, hrest⟩ := List.pairwise_cons.1 hops
    have hstep : applyOperations (first :: rest) e = applyOperations rest (first.applyTo e) := rfl
    rcases List.mem_cons.1 hop with rfl | hop
    · have hframe : ∀ o ∈ rest, Text.fold o.target ≠ Text.fold name := fun o ho h =>
        hfirst o ho (hname.trans h.symm)
      rw [hstep, attribute?_applyOperations_of_forall_ne hframe, op.attribute?_applyTo,
        if_pos hname]
    · have hne : Text.fold first.target ≠ Text.fold name := fun h =>
        hfirst op hop (h.trans hname.symm)
      rw [hstep, ih hrest hop, first.attribute?_applyTo, if_neg hne]

/-! ## Texts -/

/-- What a list of operations decides about one text under one name: the last operation that
decides anything counts. -/
def decision? (ops : List AttributeOperation) (name text : String) : Option Bool :=
  ops.reverse.findSome? fun op => op.decision? name text

lemma decision?_cons (op : AttributeOperation) (rest : List AttributeOperation)
    (name text : String) :
    decision? (op :: rest) name text =
      (decision? rest name text).or (op.decision? name text) := by
  simp [decision?, List.findSome?_append]

theorem contains_values_applyOperations (ops : List AttributeOperation) (e : Entity)
    (name text : String) :
    ((applyOperations ops e).values name).contains text =
      (decision? ops name text).getD ((e.values name).contains text) := by
  induction ops generalizing e with
  | nil => rfl
  | cons op rest ih =>
    have hstep : applyOperations (op :: rest) e = applyOperations rest (op.applyTo e) := rfl
    rw [hstep, ih, op.contains_values_applyTo, decision?_cons]
    cases decision? rest name text <;> rfl

/-- Additions join their texts to those that an attribute holds. -/
lemma mem_values_applyOperations {ops : List AttributeOperation}
    (hadd : ∀ op ∈ ops, op.kind = .add) (e : Entity) {name text : String} :
    text ∈ (applyOperations ops e).values name ↔
      text ∈ e.values name ∨
        ∃ op ∈ ops, Text.fold op.target = Text.fold name ∧ text ∈ op.texts := by
  induction ops generalizing e with
  | nil => simp [applyOperations]
  | cons op rest ih =>
    obtain ⟨hop, hrest⟩ := List.forall_mem_cons.1 hadd
    have hstep : applyOperations (op :: rest) e = applyOperations rest (op.applyTo e) := rfl
    have hfirst : text ∈ (op.applyTo e).values name ↔
        text ∈ e.values name ∨ Text.fold op.target = Text.fold name ∧ text ∈ op.texts := by
      rw [← List.contains_iff_mem, op.contains_values_applyTo, AttributeOperation.decision?,
        AttributeOperation.verdict?, hop]
      by_cases hname : Text.fold op.target = Text.fold name <;>
        by_cases htext : text ∈ op.texts <;> simp [hname, htext]
    rw [hstep, ih hrest, hfirst, or_assoc]
    simp only [List.mem_cons, exists_eq_or_imp]

/-! ## Carrying a list out again -/

/-- What a list of operations makes of an entity. -/
structure Effect (ops : List AttributeOperation) (e e' : Entity) : Prop where
  /-- The last operation that decides about a text counts; other texts are held as before. -/
  values : ∀ name text, (e'.values name).contains text =
    (decision? ops name text).getD ((e.values name).contains text)
  /-- An attribute that no operation names is the same one. -/
  untouched : ∀ name, (∀ op ∈ ops, Text.fold op.target ≠ Text.fold name) →
    e'.attribute? name = e.attribute? name
  identifier : e'.identifier = e.identifier
  newIdentifier : e'.newIdentifier = e.newIdentifier

lemma effect_applyOperations (ops : List AttributeOperation) (e : Entity) :
    Effect ops e (applyOperations ops e) where
  values := contains_values_applyOperations ops e
  untouched _ h := attribute?_applyOperations_of_forall_ne h e
  identifier := identifier_applyOperations ops e
  newIdentifier := newIdentifier_applyOperations ops e

/-- What has the effect of a list already keeps it when the list is carried out again. -/
lemma Effect.again {ops : List AttributeOperation} {e e' e'' : Entity} (h : Effect ops e e')
    (h' : Effect ops e' e'') : Effect ops e e'' where
  values name text := by
    rw [h'.values, h.values]
    cases decision? ops name text <;> rfl
  untouched name hname := (h'.untouched name hname).trans (h.untouched name hname)
  identifier := h'.identifier.trans h.identifier
  newIdentifier := h'.newIdentifier.trans h.newIdentifier

/-- **A list of operations can be carried out again.**  It has its effect once and for all: the
second time leaves every attribute with the same texts, whatever operations the list repeats. -/
theorem effect_twice (ops : List AttributeOperation) (e : Entity) :
    Effect ops e (applyOperations ops e) ∧
    Effect ops e (applyOperations ops (applyOperations ops e)) ∧
    ∀ name text, text ∈ (applyOperations ops (applyOperations ops e)).values name ↔
      text ∈ (applyOperations ops e).values name := by
  have honce := effect_applyOperations ops e
  have htwice := honce.again (effect_applyOperations ops (applyOperations ops e))
  refine ⟨honce, htwice, fun name text => ?_⟩
  rw [← List.contains_iff_mem, ← List.contains_iff_mem, htwice.values, honce.values]

/-- A text that is deleted and added again is held, and the integer and the text are one value. -/
example :
    let ops : List AttributeOperation :=
      [⟨.add, "phone", [.integer 7]⟩, ⟨.delete, "PHONE", [.string "7", .string "8"]⟩,
        ⟨.add, "Phone", [.string "8"]⟩, ⟨.delete, "room", []⟩, ⟨.add, "room", []⟩]
    let e := (Entity.named "uid=1").putAll [("phone", [.string "9"]), ("room", [.string "1"])]
    (Change.applyOperations ops e).values "phone" = ["9", "8"] ∧
    (Change.applyOperations ops (Change.applyOperations ops e)).values "phone" = ["9", "8"] ∧
    decision? ops "phone" "7" = some false ∧ decision? ops "phone" "8" = some true ∧
    decision? ops "phone" "9" = none ∧ decision? ops "room" "1" = some false := by
  decide +kernel

end Change

end StoreSync
