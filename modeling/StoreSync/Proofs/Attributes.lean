import StoreSync.Proofs.Errands
import StoreSync.Proofs.Records

/-!
# Attributes under their names

An entity finds an attribute under the folded form of the name that it is asked for, in one look-up.
That this is the attribute of that name, whatever casing it was last set with, and that its values
are all different, is no part of what an entity is: the operations on entities have to keep it so.

* `Entity.Edit` is what can be done to an entity, and `Entity.edit` what becomes of it;
* `Entity.Proper.edit` is one edit, `Entity.Proper.foldl_edit` any number of them;
* `Entity.attribute?_edit` says that an edit leaves every attribute alone but the one it names;
* `Entity.indexed_after_edits` says what this means for look-ups and removals (`Entity.Indexed`).
-/

namespace StoreSync

namespace Attribute

/-! ## Values of one attribute -/

/-- What is done to the values of an attribute. -/
inductive Touch where
  | add (v : AttributeValue)
  | remove (v : AttributeValue)

def touch (a : Attribute) : Touch → Attribute
  | .add v => a.add v
  | .remove v => a.remove v

/-- One touch after the other. -/
def touchAll (a : Attribute) (touches : List Touch) : Attribute := touches.foldl touch a

@[simp] lemma name_touchAll (a : Attribute) (touches : List Touch) :
    (a.touchAll touches).name = a.name := by
  induction touches generalizing a with
  | nil => rfl
  | cons t rest ih =>
    refine (ih (a.touch t)).trans ?_
    cases t with
    | add v => exact add_name a v
    | remove v => rfl

lemma nodup_texts_touchAll {a : Attribute} (h : a.texts.Nodup) (touches : List Touch) :
    (a.touchAll touches).texts.Nodup := by
  induction touches generalizing a with
  | nil => exact h
  | cons t rest ih =>
    refine ih ?_
    cases t with
    | add v => exact nodup_texts_add h v
    | remove v => exact h.sublist (List.filter_sublist.map _)

lemma nodup_texts_ofValues (name : String) (vs : List AttributeValue) :
    (ofValues name vs).texts.Nodup :=
  nodup_texts_addAll (by simp [texts]) vs

end Attribute

namespace Entity

open Attribute (Touch)

variable {e : Entity} {name : String} {a : Attribute}

/-! ## Edits -/

/-- What is done to an entity. -/
inductive Edit where
  | identify (identifier : String)
  | announce (newIdentifier : Option String)
  | put (name : String) (vs : List AttributeValue)
  /-- An attribute that was made of values, and may have been touched since, takes the place of the
  one that stands there. -/
  | set (name : String) (vs : List AttributeValue) (touches : List Touch)
  /-- The attribute is touched, and created if there is none. -/
  | enter (name : String) (touches : List Touch)
  /-- The attribute is touched if there is one. -/
  | amend (name : String) (touches : List Touch)
  | erase (name : String)
  | carryOut (op : AttributeOperation)

/-- The name of the attribute that an edit is about. -/
def Edit.target? : Edit → Option String
  | .identify _ | .announce _ => none
  | .put name _ | .set name _ _ | .enter name _ | .amend name _ | .erase name => some name
  | .carryOut op => some op.target

def edit (e : Entity) : Edit → Entity
  | .identify id => { e with identifier := some id }
  | .announce id => { e with newIdentifier := id }
  | .put name vs => e.put name vs
  | .set name vs touches => e.set ((Attribute.ofValues name vs).touchAll touches)
  | .enter name touches => e.updateEntry name (·.touchAll touches)
  | .amend name touches => e.modify name (·.touchAll touches)
  | .erase name => e.erase name
  | .carryOut op => op.applyTo e

/-! ## What an edit keeps -/

lemma Proper.updateEntry (h : e.Proper) (name : String) (touches : List Touch) :
    (e.updateEntry name (·.touchAll touches)).Proper := by
  cases ha : e.attribute? name with
  | none =>
    simp only [Entity.updateEntry, ha]
    exact h.insert (by simp) (Attribute.nodup_texts_touchAll (by simp [Attribute.texts]) touches)
  | some a =>
    obtain ⟨hkey, honce⟩ := h _ a ha
    simp only [Entity.updateEntry, ha]
    exact h.insert (by simpa using hkey) (Attribute.nodup_texts_touchAll honce touches)

lemma Proper.modify (h : e.Proper) (name : String) (touches : List Touch) :
    (e.modify name (·.touchAll touches)).Proper := by
  unfold Entity.modify
  split
  next a ha =>
    obtain ⟨hkey, honce⟩ := h _ a ha
    exact h.insert (by simpa using hkey) (Attribute.nodup_texts_touchAll honce touches)
  next => exact h

/-- An edit keeps every attribute under its folded name, with values that differ. -/
lemma Proper.edit (h : e.Proper) (d : Edit) : (e.edit d).Proper := by
  cases d with
  | identify id => exact h
  | announce id => exact h
  | put name vs => exact h.put name vs
  | set name vs touches =>
    exact h.insert rfl
      (Attribute.nodup_texts_touchAll (Attribute.nodup_texts_ofValues name vs) touches)
  | enter name touches => exact h.updateEntry name touches
  | amend name touches => exact h.modify name touches
  | erase name => exact h.erase name
  | carryOut op => exact h.applyTo op

lemma Proper.foldl_edit (h : e.Proper) (edits : List Edit) :
    (edits.foldl Entity.edit e).Proper := by
  induction edits generalizing e with
  | nil => exact h
  | cons d rest ih => exact ih (h.edit d)

lemma attribute?_modify (e : Entity) (target name : String) (f : Attribute → Attribute) :
    (e.modify target f).attribute? name =
      if Text.fold target = Text.fold name then (e.attribute? name).map f
      else e.attribute? name := by
  have haddress : Text.fold target = Text.fold name → e.attribute? target = e.attribute? name :=
    fun heq => by rw [attribute?, heq]; rfl
  unfold modify
  split
  next a ha =>
    refine (TextMap.get?_insert ..).trans ?_
    split
    next heq => rw [← haddress heq, ha]; rfl
    next => rfl
  next ha =>
    split
    next heq => rw [← haddress heq, ha]; rfl
    next => rfl

/-- An edit leaves every attribute alone but the one that it names. -/
lemma attribute?_edit (d : Edit) (h : ∀ target ∈ d.target?, Text.fold target ≠ Text.fold name) :
    (e.edit d).attribute? name = e.attribute? name := by
  cases d with
  | identify id => rfl
  | announce id => rfl
  | put target vs => exact (attribute?_put ..).trans (if_neg (h target rfl))
  | set target vs touches =>
    rw [edit, attribute?_set, if_neg]
    simpa [Attribute.ofValues] using h target rfl
  | enter target touches => exact (attribute?_updateEntry ..).trans (if_neg (h target rfl))
  | amend target touches => exact (attribute?_modify ..).trans (if_neg (h target rfl))
  | erase target => exact (attribute?_erase ..).trans (if_neg (h target rfl))
  | carryOut op => rw [edit, op.attribute?_applyTo, if_neg (h _ rfl)]

/-! ## Look-ups and removals -/

/-- An entity that finds its attributes by their names. -/
structure Indexed (e : Entity) : Prop where
  /-- An attribute stands under the folded form of its display name. -/
  keyed : ∀ k a, e.attributes.get? k = some a → k = Text.fold a.name
  /-- No two values of an attribute have the same canonical text. -/
  distinct : ∀ a ∈ e.attributeList, a.texts.Nodup
  /-- Every name that folds like that of an attribute stands for this attribute: its values are
  found, and it is what is removed. -/
  found : ∀ a ∈ e.attributeList, ∀ name, Text.fold name = Text.fold a.name →
    e.attribute? name = some a ∧ e.values name = a.texts ∧ e.first? name = a.first? ∧
      ∀ b, b ∈ (e.erase name).attributeList ↔ b ∈ e.attributeList ∧ b ≠ a
  /-- Any other name stands for nothing. -/
  absent : ∀ name, (∀ a ∈ e.attributeList, Text.fold a.name ≠ Text.fold name) →
    e.values name = [] ∧ e.first? name = none ∧ e.erase name = e
  /-- What is done under one name changes no attribute of another name. -/
  apart : ∀ (d : Edit) name, (∀ target ∈ d.target?, Text.fold target ≠ Text.fold name) →
    (e.edit d).attribute? name = e.attribute? name

lemma Proper.keyed (h : e.Proper) {k : String} (ha : e.attributes.get? k = some a) :
    k = Text.fold a.name :=
  (h k a ha).1.symm

lemma Proper.attribute?_eq (h : e.Proper) (ha : a ∈ e.attributeList)
    (hname : Text.fold name = Text.fold a.name) : e.attribute? name = some a := by
  obtain ⟨k, hget⟩ := TextMap.mem_values_iff.1 ha
  rw [attribute?, hname, ← h.keyed hget, hget]

lemma Proper.attribute?_eq_none (h : e.Proper)
    (hnone : ∀ a ∈ e.attributeList, Text.fold a.name ≠ Text.fold name) :
    e.attribute? name = none := by
  rw [Option.eq_none_iff_forall_not_mem]
  intro a ha
  exact hnone a (TextMap.mem_values_iff.2 ⟨_, ha⟩) (h.keyed ha).symm

lemma Proper.mem_erase (h : e.Proper) (ha : a ∈ e.attributeList)
    (hname : Text.fold name = Text.fold a.name) {b : Attribute} :
    b ∈ (e.erase name).attributeList ↔ b ∈ e.attributeList ∧ b ≠ a := by
  have hgone : ∀ k, (e.erase name).attributes.get? k =
      if Text.fold name = k then none else e.attributes.get? k := fun k => TextMap.get?_erase ..
  constructor
  · intro hb
    obtain ⟨k, hget⟩ := TextMap.mem_values_iff.1 hb
    rw [hgone] at hget
    split at hget
    next => cases hget
    next hk =>
      refine ⟨TextMap.mem_values_iff.2 ⟨k, hget⟩, ?_⟩
      rintro rfl
      exact hk (hname.trans (h.keyed hget).symm)
  · rintro ⟨hb, hne⟩
    obtain ⟨k, hget⟩ := TextMap.mem_values_iff.1 hb
    refine TextMap.mem_values_iff.2 ⟨k, ?_⟩
    rw [hgone, if_neg, hget]
    rintro rfl
    exact hne (Option.some.inj (hget.symm.trans (h.attribute?_eq ha hname)))

lemma Proper.indexed (h : e.Proper) : e.Indexed := by
  refine ⟨fun k a => h.keyed, ?distinct, ?found, ?absent, fun d _ => attribute?_edit d⟩
  case distinct =>
    intro a ha
    obtain ⟨k, hget⟩ := TextMap.mem_values_iff.1 ha
    exact (h k a hget).2
  case found =>
    intro a ha name hname
    have hattribute := h.attribute?_eq ha hname
    refine ⟨hattribute, ?_, ?_, fun b => h.mem_erase ha hname⟩
    · rw [values, hattribute]
    · rw [first?, hattribute]
      rfl
  case absent =>
    intro name hnone
    have hattribute := h.attribute?_eq_none hnone
    refine ⟨?_, ?_, ?_⟩
    · rw [values, hattribute]
    · rw [first?, hattribute]
      rfl
    · rw [Entity.erase, TextMap.erase_of_get?_eq_none hattribute]

/-- Where an entity comes from before it is edited. -/
inductive Origin : Entity → Prop
  | anonymous : Origin anonymous
  | named (identifier : String) : Origin (named identifier)
  | read {schema : EntitySchema} {record : Json} {e : Entity}
      (h : schema.mapRecord record = .ok e) : Origin e

lemma Origin.proper (h : Origin e) : e.Proper := by
  cases h with
  | anonymous => exact proper_of_empty rfl
  | named => exact proper_of_empty rfl
  | read h => exact EntitySchema.proper_of_mapRecord h

/-- **An entity finds its attributes by their names**, whatever is done to it after it was begun or
read from a record. -/
theorem indexed_after_edits (h : Origin e) (edits : List Edit) :
    (edits.foldl edit e).Indexed :=
  (h.proper.foldl_edit edits).indexed

/-! ### A porter's list -/

def porterSchema : EntitySchema := ⟨"porter", some "dn", [⟨"Tag", .integer⟩, ⟨"ΟΔΟΣ", .string⟩]⟩

/-- Two fields fall on one attribute, of which the later one counts. -/
def porterRecord : Json :=
  .members [("TAG", .array [.string "07", .string "8"]), ("dn", .string "uid=7"),
    ("tag", .array [.string "7", .string "42", .string "7"])]

def porter : Entity := (Entity.named "uid=7").put "Tag" [.integer 7, .integer 42]

/-- The tag is renamed in casing, and gets the text of a value that it has, another one, and bytes;
a street is entered, amended away under a name of another key, and stays. -/
def porterEdits : List Edit :=
  [.enter "TAG" [.add (.string "42"), .add (.string "AQ==")],
    .carryOut ⟨.add, "tag", [.binary [1], .boolean true]⟩,
    .enter "ΟΔΟΣ" [.add (.string "7"), .remove (.string "7"), .add (.string "9")],
    .amend "οδοσ" [.remove (.integer 9)],
    .set "Gate" [.string "N", .string "S"] [.remove (.string "N")],
    .put "GATE" [.string "E", .string "E"],
    .carryOut ⟨.delete, "gATE", [.string "W"]⟩,
    .erase "porter", .identify "uid=8"]

theorem indexed_after_porterEdits :
    porterSchema.mapRecord porterRecord = .ok porter ∧
    (porterEdits.foldl edit porter).attributeList =
      [⟨"GATE", [.string "E"]⟩,
        ⟨"Tag", [.integer 7, .integer 42, .string "AQ==", .boolean true]⟩,
        ⟨"ΟΔΟΣ", [.string "9"]⟩] ∧
    (porterEdits.foldl edit porter).values "οδος" = ["9"] ∧
    (porterEdits.foldl edit porter).Indexed := by
  have hread : porterSchema.mapRecord porterRecord = .ok porter := by decide +kernel
  exact ⟨hread, by decide +kernel, by decide +kernel, indexed_after_edits (.read hread) porterEdits⟩

end Entity

end StoreSync
