import StoreSync.Proofs.Stores
import StoreSync.Proofs.Written

/-!
# Records of entities

A schema writes an entity as a record and reads a record as an entity.  What it has written it reads
as an entity with the same identifier and, under every name, the same texts
(`EntitySchema.exists_mapRecord_toRecord`), as long as it has a place for all of the entity
(`EntitySchema.holds`): every attribute is declared, apart from the identifier and with a type that
keeps its values, and there is a field for the identifier.  A record with an attribute that is not
declared is never read (`EntitySchema.exists_error_mapRecord_toRecord`).

The fields of a record come in the order of their names, in which those of the entity need not be.
The invariant `EntitySchema.ReadUpTo` says therefore what has been read by the fields met so far, in
any order, and `EntitySchema.IsField` what a field can be.  How much of an attribute comes through
is left open there (`EntitySchema.Preserves`): in general it is the texts.
-/

namespace StoreSync

/-! ## Maps of a list -/

namespace TextMap

variable {α : Type} {m : TextMap α} {pairs : List (String × α)} {k : String} {v : α}

lemma mem_of_lookup_reverse (h : pairs.reverse.lookup k = some v) : (k, v) ∈ pairs := by
  obtain ⟨later, earlier, hsplit, -⟩ := List.lookup_eq_some_iff.1 h
  rw [← List.mem_reverse, hsplit]
  simp

lemma notMem_of_lookup_reverse (h : pairs.reverse.lookup k = none) : (k, v) ∉ pairs := by
  intro hmem
  simpa using List.lookup_eq_none_iff.1 h (k, v) (List.mem_reverse.2 hmem)

/-- Under a key stands the last one that was put there, or else what stood there before. -/
lemma get?_foldl_insert (m : TextMap α) (pairs : List (String × α)) (k : String) :
    (pairs.foldl (fun m p => m.insert p.1 p.2) m).get? k =
      (pairs.reverse.lookup k).or (m.get? k) := by
  induction pairs generalizing m with
  | nil => rfl
  | cons p rest ih =>
    rw [List.foldl_cons, ih, get?_insert, List.reverse_cons, List.lookup_append, Option.or_assoc,
      List.lookup_cons]
    by_cases hk : p.1 = k
    · simp [hk]
    · simp [hk, beq_eq_false_iff_ne.2 (Ne.symm hk)]

lemma mem_of_get?_foldl_insert
    (h : (pairs.foldl (fun m p => m.insert p.1 p.2) m).get? k = some v) :
    (k, v) ∈ pairs ∨ m.get? k = some v := by
  rw [get?_foldl_insert, Option.or_eq_some_iff] at h
  exact h.imp mem_of_lookup_reverse And.right

/-- A pair stays if no later one puts another value in its place. -/
lemma get?_foldl_insert_of_mem (hunique : ∀ v', (k, v') ∈ pairs → v' = v)
    (h : (k, v) ∈ pairs ∨ m.get? k = some v) :
    (pairs.foldl (fun m p => m.insert p.1 p.2) m).get? k = some v := by
  rw [get?_foldl_insert]
  cases hlast : pairs.reverse.lookup k with
  | some w => rw [hunique w (mem_of_lookup_reverse hlast), Option.some_or]
  | none => rw [Option.none_or, h.resolve_left (notMem_of_lookup_reverse hlast)]

/-- Some pair stays under the name of each. -/
lemma exists_get?_foldl_insert (h : (∃ v, (k, v) ∈ pairs) ∨ ∃ v, m.get? k = some v) :
    ∃ v, (pairs.foldl (fun m p => m.insert p.1 p.2) m).get? k = some v := by
  rw [get?_foldl_insert]
  cases hlast : pairs.reverse.lookup k with
  | some w => exact ⟨w, Option.some_or ..⟩
  | none =>
    rw [Option.none_or]
    exact h.resolve_left fun ⟨_, hmem⟩ => notMem_of_lookup_reverse hlast hmem

end TextMap

namespace Json

lemma putMember_eq (name : String) (value : Json) (fields : List (String × Json)) :
    putMember name value fields = TextMap.insertEntry name value fields := by
  induction fields with
  | nil => rfl
  | cons f rest ih => rw [putMember, TextMap.insertEntry, ih]

/-- An object is the map of its members. -/
lemma object_eq (fields : List (String × Json)) :
    object fields = .members (TextMap.ofList fields).entries := by
  have hfold : ∀ m : TextMap Json,
      fields.foldl (fun acc f => putMember f.1 f.2 acc) m.entries =
        (fields.foldl (fun m f => m.insert f.1 f.2) m).entries := by
    induction fields with
    | nil => intro m; rfl
    | cons f rest ih =>
      intro m
      rw [List.foldl_cons, List.foldl_cons, putMember_eq]
      exact ih (m.insert f.1 f.2)
  rw [object]
  exact congrArg _ (hfold .empty)

end Json

/-! ## Entities as changes leave them -/

namespace Attribute

lemma texts_add (a : Attribute) (v : AttributeValue) :
    (a.add v).texts = if v.canonical ∈ a.texts then a.texts else a.texts ++ [v.canonical] := by
  unfold add
  by_cases h : a.holds v = true
  · rw [if_pos h, if_pos (holds_iff.1 h)]
  · rw [if_neg h, if_neg fun hmem => h (holds_iff.2 hmem)]
    simp [texts]

lemma nodup_texts_add {a : Attribute} (h : a.texts.Nodup) (v : AttributeValue) :
    (a.add v).texts.Nodup := by
  rw [texts_add]
  split
  · exact h
  next hnot => simpa [List.nodup_append] using ⟨h, fun t ht heq => hnot (heq ▸ ht)⟩

lemma nodup_texts_addAll {a : Attribute} (h : a.texts.Nodup) (vs : List AttributeValue) :
    (a.addAll vs).texts.Nodup := by
  induction vs generalizing a with
  | nil => exact h
  | cons v rest ih => exact ih (nodup_texts_add h v)

lemma nodup_texts_removeAll {a : Attribute} (h : a.texts.Nodup) (vs : List AttributeValue) :
    (vs.foldl remove a).texts.Nodup := by
  induction vs generalizing a with
  | nil => exact h
  | cons v rest ih => exact ih (h.sublist (List.filter_sublist.map _))

lemma name_removeAll (a : Attribute) (vs : List AttributeValue) :
    (vs.foldl remove a).name = a.name := by
  induction vs generalizing a with
  | nil => rfl
  | cons v rest ih => exact ih (a.remove v)

/-- Values whose texts differ all stand. -/
lemma values_addAll {a : Attribute} {vs : List AttributeValue}
    (h : (a.texts ++ vs.map AttributeValue.canonical).Nodup) :
    (a.addAll vs).values = a.values ++ vs := by
  induction vs generalizing a with
  | nil => simp [addAll]
  | cons v rest ih =>
    have hnot : v.canonical ∉ a.texts := by
      intro hmem
      exact (List.nodup_append.1 h).2.2 _ hmem _ List.mem_cons_self rfl
    have hstep : a.add v = { a with values := a.values ++ [v] } := by
      rw [add, if_neg fun hholds => hnot (holds_iff.1 hholds)]
    have hrest : (a.add v).addAll rest = a.addAll (v :: rest) := rfl
    rw [← hrest, ih (by simpa [hstep, texts] using h), hstep]
    simp

lemma texts_addAll {a : Attribute} {vs : List AttributeValue}
    (h : (a.texts ++ vs.map AttributeValue.canonical).Nodup) :
    (a.addAll vs).texts = a.texts ++ vs.map AttributeValue.canonical := by
  rw [texts, values_addAll h, List.map_append, texts]

end Attribute

namespace Entity

variable {e e' : Entity}

/-- Every attribute stands under its folded name and holds no text twice. -/
def Proper (e : Entity) : Prop :=
  ∀ k a, e.attributes.get? k = some a → Text.fold a.name = k ∧ a.texts.Nodup

lemma proper_of_empty (h : e.attributes = ∅) : e.Proper := by
  intro k a ha
  simp [h] at ha

lemma Proper.insert (h : e.Proper) {k : String} {a : Attribute} (hk : Text.fold a.name = k)
    (ha : a.texts.Nodup) : Proper { e with attributes := e.attributes.insert k a } := by
  intro k' a' hget
  rw [TextMap.get?_insert] at hget
  split at hget
  next heq =>
    obtain rfl := Option.some.inj hget
    exact ⟨hk.trans heq, ha⟩
  · exact h k' a' hget

lemma Proper.erase (h : e.Proper) (name : String) : (e.erase name).Proper := by
  intro k a hget
  have hget : (e.attributes.erase (Text.fold name)).get? k = some a := hget
  rw [TextMap.get?_erase] at hget
  split at hget
  · simp at hget
  · exact h k a hget

lemma Proper.put (h : e.Proper) (name : String) (vs : List AttributeValue) :
    (e.put name vs).Proper :=
  h.insert rfl (Attribute.nodup_texts_addAll (by simp [Attribute.texts]) vs)

lemma Proper.applyTo (h : e.Proper) (op : AttributeOperation) : (op.applyTo e).Proper := by
  obtain ⟨kind, target, vs⟩ := op
  cases kind with
  | add =>
    refine h.insert ?_ (Attribute.nodup_texts_addAll ?_ vs)
    · cases ha : e.attribute? target with
      | none => simp
      | some a => simpa using (h _ a ha).1
    · cases ha : e.attribute? target with
      | none => simp [Attribute.texts]
      | some a => exact (h _ a ha).2
  | replace =>
    simp only [AttributeOperation.applyTo]
    split
    · exact h.erase target
    · exact (h.erase target).put target vs
  | delete =>
    simp only [AttributeOperation.applyTo]
    split
    · exact h.erase target
    · cases ha : e.attribute? target with
      | none => exact h
      | some a =>
        dsimp only
        split
        · exact h.erase target
        · rw [modify, ha]
          exact h.insert (by rw [Attribute.name_removeAll]; exact (h _ a ha).1)
            (Attribute.nodup_texts_removeAll (h _ a ha).2 vs)

lemma Proper.applyOperations (h : e.Proper) (ops : List AttributeOperation) :
    (Change.applyOperations ops e).Proper := by
  induction ops generalizing e with
  | nil => exact h
  | cons op rest ih => exact ih (h.applyTo op)

/-- The same identifier, and under every name the same texts. -/
structure Same (e e' : Entity) : Prop where
  identifier : e.identifier = e'.identifier
  values : ∀ name, e.values name = e'.values name

end Entity

/-! ## Records that hold an entity -/

/-- A value that is read under a declaration as it is written. -/
def DataType.keeps (t : DataType) (v : AttributeValue) : Bool :=
  match t.coerce (EntitySchema.rawValue v) with
  | .ok v' => v'.canonical = v.canonical
  | .error _ => false

namespace EntitySchema

variable {s : EntitySchema} {e : Entity} {a : Attribute} {d : SchemaAttribute}

/-- The schema declares an attribute under its own key, apart from the identifier, and with a type
that keeps its values. -/
def holdsAttribute (s : EntitySchema) (a : Attribute) : Bool :=
  (s.attribute? a.name).any fun d =>
    Text.fold d.name = Text.fold a.name && !s.isIdentifierField d.name &&
      a.values.all d.dataType.keeps

/-- The schema has a place for all of an entity. -/
def holds (s : EntitySchema) (e : Entity) : Bool :=
  e.identifier.all (fun id => s.identifierField.isSome && !id.isEmpty) &&
    e.attributeList.all s.holdsAttribute

lemma holdsAttribute_iff : s.holdsAttribute a = true ↔
    ∃ d, s.attribute? a.name = some d ∧ Text.fold d.name = Text.fold a.name ∧
      s.isIdentifierField d.name = false ∧ ∀ v ∈ a.values, d.dataType.keeps v = true := by
  simp [holdsAttribute, Option.any_eq_true, and_assoc]

/-- A declared attribute is found by its own name. -/
lemma attribute?_self {name : String} (h : s.attribute? name = some d) :
    s.attribute? d.name = some d := by
  have hsame : Text.sameFolded d.name name = true := by simpa using List.find?_some h
  have hlike : ∀ x : SchemaAttribute,
      Text.sameFolded x.name d.name = Text.sameFolded x.name name := by
    intro x
    rw [Bool.eq_iff_iff]
    exact ⟨fun hx => Text.sameFolded_trans hx hsame, fun hx =>
      Text.sameFolded_trans hx (by rw [Text.sameFolded_comm]; exact hsame)⟩
  rw [attribute?, ← h, attribute?]
  simp only [hlike]

lemma not_isNull_rawValue (v : AttributeValue) : (!(rawValue v).isNull) = true := by
  cases v <;> rfl

/-- Values that the type keeps are read with their texts. -/
lemma exists_mapM_coerceField (field : String) {vs : List AttributeValue}
    (h : ∀ v ∈ vs, d.dataType.keeps v = true) :
    ∃ vs', (vs.map rawValue).mapM (coerceField d field) = .ok vs' ∧
      vs'.map AttributeValue.canonical = vs.map AttributeValue.canonical := by
  induction vs with
  | nil => exact ⟨[], rfl, rfl⟩
  | cons v rest ih =>
    obtain ⟨rest', hrest, htexts⟩ := ih fun w hw => h w (List.mem_cons_of_mem _ hw)
    have hv := h v List.mem_cons_self
    rw [DataType.keeps] at hv
    cases hcoerce : d.dataType.coerce (rawValue v) with
    | error m => simp [hcoerce] at hv
    | ok v' =>
      refine ⟨v' :: rest', ?_, ?_⟩
      · rw [List.map_cons, List.mapM_cons, hrest, coerceField, hcoerce]
        rfl
      · have hcanonical : v'.canonical = v.canonical := by simpa [hcoerce] using hv
        rw [List.map_cons, List.map_cons, hcanonical, htexts]

/-- The raw value of an attribute. -/
def rawOf (a : Attribute) : Json :=
  match a.values with
  | [v] => rawValue v
  | vs => .array (vs.map rawValue)

lemma rawField_eq (s : EntitySchema) (a : Attribute) :
    s.rawField a = (((s.attribute? a.name).map (·.name)).getD a.name, rawOf a) := by
  obtain ⟨name, values⟩ := a
  unfold rawField rawOf
  cases s.attribute? name <;> rcases values with _ | ⟨v, _ | ⟨w, rest⟩⟩ <;> rfl

lemma rawField_of_declared (h : s.attribute? a.name = some d) :
    s.rawField a = (d.name, rawOf a) := by
  rw [rawField_eq, h]
  rfl

lemma rawField_of_undeclared (h : s.attribute? a.name = none) :
    s.rawField a = (a.name, rawOf a) := by
  rw [rawField_eq, h]
  rfl

/-- A field is read value by value, whichever form it is written in. -/
lemma fieldValues_rawOf (d : SchemaAttribute) (field : String) (a : Attribute) :
    fieldValues d field (rawOf a) =
      ((a.values.map rawValue).mapM (coerceField d field)).map some := by
  have harray : ∀ vs : List AttributeValue,
      fieldValues d field (.array (vs.map rawValue)) =
        ((vs.map rawValue).mapM (coerceField d field)).map some := by
    intro vs
    have hall : (vs.map rawValue).filter (!·.isNull) = vs.map rawValue := by
      rw [List.filter_eq_self]
      simp only [List.mem_map]
      rintro _ ⟨v, -, rfl⟩
      exact not_isNull_rawValue v
    rw [fieldValues, hall]
    rfl
  obtain ⟨name, values⟩ := a
  rcases values with _ | ⟨v, _ | ⟨w, rest⟩⟩
  · exact harray []
  · show fieldValues d field (rawValue v) = _
    cases v <;> simp only [rawValue, Json.ofInt, fieldValues, List.map_cons, List.map_nil,
      List.mapM_cons, List.mapM_nil] <;> cases coerceField d field _ <;> rfl
  · exact harray (v :: w :: rest)

lemma exists_fieldValues (field : String) (h : ∀ v ∈ a.values, d.dataType.keeps v = true) :
    ∃ vs', fieldValues d field (rawOf a) = .ok (some vs') ∧
      vs'.map AttributeValue.canonical = a.texts := by
  obtain ⟨vs', hvs', htexts⟩ := exists_mapM_coerceField field h
  exact ⟨vs', by rw [fieldValues_rawOf, hvs']; rfl, htexts⟩

/-- The fields of a record before they are put in order. -/
def fieldsOf (s : EntitySchema) (e : Entity) : List (String × Json) :=
  (match s.identifierField, e.identifier with
    | some field, some id => [(field, .string id)]
    | _, _ => []) ++
  e.attributeList.map s.rawField

lemma toRecord_eq (s : EntitySchema) (e : Entity) :
    s.toRecord e = .members (TextMap.ofList (s.fieldsOf e)).entries :=
  Json.object_eq _

/-- What a field of the record of an entity can be. -/
inductive IsField (s : EntitySchema) (e : Entity) : String → Json → Prop
  | ofIdentifier {field id : String} (hfield : s.identifierField = some field)
      (hid : e.identifier = some id) (hnonempty : id.isEmpty = false) :
      IsField s e field (.string id)
  | ofAttribute {k : String} {a : Attribute} {d : SchemaAttribute}
      (hget : e.attributes.get? k = some a) (hd : s.attribute? a.name = some d)
      (hkey : Text.fold d.name = Text.fold a.name) (hapart : s.isIdentifierField d.name = false)
      (hkeeps : ∀ v ∈ a.values, d.dataType.keeps v = true) :
      IsField s e d.name (rawOf a)

lemma exists_isField_of_holds (h : s.holds e = true) {k : String}
    (hget : e.attributes.get? k = some a) :
    ∃ d, s.attribute? a.name = some d ∧ Text.fold d.name = Text.fold a.name ∧
      s.isIdentifierField d.name = false ∧ (∀ v ∈ a.values, d.dataType.keeps v = true) ∧
      (d.name, rawOf a) ∈ s.fieldsOf e := by
  have hmem : a ∈ e.attributeList := TextMap.mem_values_iff.2 ⟨k, hget⟩
  have hall : ∀ a ∈ e.attributeList, s.holdsAttribute a = true := by
    simpa [holds] using (Bool.and_eq_true _ _).mp h |>.2
  obtain ⟨d, hd, hkey, hapart, hkeeps⟩ := holdsAttribute_iff.1 (hall a hmem)
  refine ⟨d, hd, hkey, hapart, hkeeps, List.mem_append_right _ ?_⟩
  rw [← rawField_of_declared hd]
  exact List.mem_map_of_mem hmem

lemma isField_of_mem (h : s.holds e = true) {f : String} {v : Json} (hmem : (f, v) ∈ s.fieldsOf e) :
    IsField s e f v := by
  rcases List.mem_append.1 hmem with hmem | hmem
  · cases hfield : s.identifierField with
    | none => simp [hfield] at hmem
    | some field =>
      cases hid : e.identifier with
      | none => simp [hfield, hid] at hmem
      | some id =>
        obtain ⟨rfl, rfl⟩ : f = field ∧ v = .string id := by simpa [hfield, hid] using hmem
        have hnonempty : id.isEmpty = false := by
          simpa [holds, hid, hfield] using (Bool.and_eq_true _ _).mp h |>.1
        exact .ofIdentifier hfield hid hnonempty
  · obtain ⟨a, ha, heq⟩ := List.mem_map.1 hmem
    obtain ⟨k, hget⟩ := TextMap.mem_values_iff.1 ha
    obtain ⟨d, hd, hkey, hapart, hkeeps, -⟩ := exists_isField_of_holds h hget
    rw [rawField_of_declared hd] at heq
    obtain ⟨rfl, rfl⟩ := Prod.mk.inj heq
    exact .ofAttribute hget hd hkey hapart hkeeps

lemma isIdentifierField_self {field : String} (h : s.identifierField = some field) :
    s.isIdentifierField field = true := by
  rw [isIdentifierField, h]
  exact Text.sameFolded_self field

/-- The fields of a record have different names. -/
lemma IsField.unique (hproper : e.Proper) {f : String} {v v' : Json} (h : IsField s e f v)
    (h' : IsField s e f v') : v' = v := by
  cases h with
  | ofIdentifier hfield hid _ =>
    cases h' with
    | ofIdentifier hfield' hid' _ => rw [Option.some.inj (hid.symm.trans hid')]
    | ofAttribute _ _ _ hapart _ => simp [isIdentifierField_self hfield] at hapart
  | @ofAttribute k a d hget hd hkey hapart hkeeps =>
    generalize hname : d.name = f at h'
    cases h' with
    | ofIdentifier hfield' _ _ => simp [hname, isIdentifierField_self hfield'] at hapart
    | @ofAttribute k' a' d' hget' hd' hkey' _ _ =>
      have hsame : k = k' := by
        rw [← (hproper k a hget).1, ← (hproper k' a' hget').1, ← hkey, ← hkey', hname]
      rw [hsame] at hget
      rw [Option.some.inj (hget.symm.trans hget')]

/-- Every field of the record is one of these. -/
lemma isField_of_mem_record (h : s.holds e = true) {f : String × Json}
    (hf : f ∈ (TextMap.ofList (s.fieldsOf e)).entries) : IsField s e f.1 f.2 := by
  rcases TextMap.mem_of_get?_foldl_insert ((TextMap.mem_entries_iff _).1 hf) with hmem | hnone
  · exact isField_of_mem h hmem
  · cases hnone

/-- No field displaces another. -/
lemma mem_record_of_mem_fieldsOf (hproper : e.Proper) (h : s.holds e = true) {f : String} {v : Json}
    (hmem : (f, v) ∈ s.fieldsOf e) : (f, v) ∈ (TextMap.ofList (s.fieldsOf e)).entries := by
  refine (TextMap.mem_entries_iff _).2 (TextMap.get?_foldl_insert_of_mem ?_ (Or.inl hmem))
  intro v' hv'
  exact (isField_of_mem h hmem).unique hproper (isField_of_mem h hv')

/-! ## Reading a record back -/

section Reading

variable {β : Type} {view : Attribute → β} {r : Entity} {done todo : List (String × Json)}

/-- What is seen of an attribute is there again when it has been written and read. -/
def Preserves (view : Attribute → β) (s : EntitySchema) (e : Entity) : Prop :=
  ∀ k a d, e.attributes.get? k = some a → s.attribute? a.name = some d →
    (∀ v ∈ a.values, d.dataType.keeps v = true) →
      ∃ vs, fieldValues d d.name (rawOf a) = .ok (some vs) ∧ view (.ofValues d.name vs) = view a

/-- An entity that is read so far as the fields of a list say, and so much as is seen of it. -/
structure ReadUpTo (view : Attribute → β) (s : EntitySchema) (e : Entity)
    (done : List (String × Json)) (r : Entity) : Prop where
  identifier : r.identifier =
    if done.any fun f => s.isIdentifierField f.1 then e.identifier else none
  pending : r.newIdentifier = none
  attributes : ∀ k, (r.attributes.get? k).map view =
    if done.any fun f => !s.isIdentifierField f.1 && Text.fold f.1 = k then
      (e.attributes.get? k).map view
    else none

lemma ReadUpTo.field (hproper : e.Proper) (hview : Preserves view s e)
    (h : ReadUpTo view s e done r) {f : String} {v : Json} (hfield : IsField s e f v) :
    ∃ r', s.mapField r f v = .ok r' ∧ ReadUpTo view s e (done ++ [(f, v)]) r' := by
  have hany : ∀ q : String × Json → Bool, (done ++ [(f, v)]).any q = (done.any q || q (f, v)) := by
    intro q
    rw [List.any_append, List.any_cons, List.any_nil, Bool.or_false]
  cases hfield with
  | @ofIdentifier _ id hfield hid hnonempty =>
    have hown := isIdentifierField_self hfield
    refine ⟨{ r with identifier := some id }, ?_, ?_, h.pending, fun k => ?_⟩
    · simp [mapField, hown, hnonempty]
    · simp [hown, hid]
    · simp only [hany, hown, Bool.not_true, Bool.false_and, Bool.or_false]
      exact h.attributes k
  | @ofAttribute k a d hget hd hkey hapart hkeeps =>
    obtain ⟨vs, hvs, hseen⟩ := hview k a d hget hd hkeeps
    have hfold : Text.fold d.name = k := hkey.trans (hproper k a hget).1
    have hput : (r.put d.name vs).attributes = r.attributes.insert k (.ofValues d.name vs) := by
      rw [Entity.put, Entity.set, Attribute.ofValues, Attribute.addAll_name, hfold]
    refine ⟨r.put d.name vs, ?_, ?_, h.pending, fun k' => ?_⟩
    · simp only [mapField, hapart, attribute?_self hd, hvs]
      rfl
    · simp only [hany, hapart, Bool.or_false]
      exact h.identifier
    · simp only [hany, hapart, hfold, Bool.not_false, Bool.true_and]
      rw [hput, TextMap.get?_insert]
      by_cases hsame : k = k'
      · subst hsame
        simp [hget, hseen]
      · rw [if_neg hsame]
        simp only [hsame, decide_false, Bool.or_false]
        exact h.attributes k'

lemma exists_foldlM_mapField (hproper : e.Proper) (hview : Preserves view s e)
    (h : ReadUpTo view s e done r) (htodo : ∀ f ∈ todo, IsField s e f.1 f.2) :
    ∃ r', todo.foldlM (fun e f => s.mapField e f.1 f.2) r = .ok r' ∧
      ReadUpTo view s e (done ++ todo) r' := by
  induction todo generalizing done r with
  | nil => exact ⟨r, rfl, by simpa using h⟩
  | cons f rest ih =>
    obtain ⟨r₁, hstep, h₁⟩ := h.field hproper hview (htodo f List.mem_cons_self)
    obtain ⟨r', hrest, hr'⟩ := ih h₁ fun g hg => htodo g (List.mem_cons_of_mem _ hg)
    refine ⟨r', ?_, by simpa using hr'⟩
    rw [List.foldlM_cons, hstep]
    exact hrest

/-- The record of an entity that the schema holds can be read, and all that is preserved of the
entity is seen again. -/
theorem exists_read (hproper : e.Proper) (h : s.holds e = true) (hview : Preserves view s e) :
    ∃ e', s.mapRecord (s.toRecord e) = .ok e' ∧ e'.identifier = e.identifier ∧
      e'.newIdentifier = none ∧
      ∀ k, (e'.attributes.get? k).map view = (e.attributes.get? k).map view := by
  have hnothing : ReadUpTo view s e [] .anonymous := ⟨rfl, rfl, fun k => rfl⟩
  obtain ⟨e', hread, hupto⟩ := exists_foldlM_mapField hproper hview hnothing
    fun f hf => isField_of_mem_record h hf
  rw [List.nil_append] at hupto
  refine ⟨e', ?_, ?_, hupto.pending, fun k => ?_⟩
  · rw [toRecord_eq]
    exact hread
  · rw [hupto.identifier]
    cases hid : e.identifier with
    | none => simp
    | some id =>
      obtain ⟨⟨hfield, -⟩, -⟩ : (s.identifierField.isSome = true ∧ id ≠ "") ∧ _ := by
        simpa [holds, hid] using h
      obtain ⟨field, hfield⟩ := Option.isSome_iff_exists.1 hfield
      have hin := mem_record_of_mem_fieldsOf hproper h (f := field) (v := .string id)
        (List.mem_append_left _ (by simp [hfield, hid]))
      rw [if_pos (List.any_eq_true.2 ⟨_, hin, isIdentifierField_self hfield⟩)]
  · rw [hupto.attributes k]
    cases hget : e.attributes.get? k with
    | none => simp
    | some a =>
      obtain ⟨d, -, hkey, hapart, -, hin⟩ := exists_isField_of_holds h hget
      have hfold : Text.fold d.name = k := hkey.trans (hproper k a hget).1
      have hin := mem_record_of_mem_fieldsOf hproper h hin
      rw [if_pos (List.any_eq_true.2 ⟨_, hin, by simp [hapart, hfold]⟩)]

end Reading

/-- Values that the types keep have their texts again. -/
lemma preserves_texts (hproper : e.Proper) : Preserves Attribute.texts s e := by
  intro k a d hget _ hkeeps
  obtain ⟨vs, hvs, htexts⟩ := exists_fieldValues d.name hkeeps
  have hread : (vs.map AttributeValue.canonical).Nodup := htexts ▸ (hproper k a hget).2
  refine ⟨vs, hvs, ?_⟩
  rw [Attribute.ofValues, Attribute.texts_addAll (by simpa [Attribute.texts] using hread), htexts]
  rfl

/-- **A record of an entity that the schema holds is read as that entity.** -/
theorem exists_mapRecord_toRecord (hproper : e.Proper) (h : s.holds e = true) :
    ∃ e', s.mapRecord (s.toRecord e) = .ok e' ∧ e.Same e' := by
  obtain ⟨e', hread, hidentifier, -, htexts⟩ := exists_read hproper h (preserves_texts hproper)
  refine ⟨e', hread, hidentifier.symm, fun name => ?_⟩
  have hname : (e'.attribute? name).map Attribute.texts = (e.attribute? name).map Attribute.texts :=
    htexts (Text.fold name)
  rw [Entity.values_eq, Entity.values_eq, hname]

/-- A record of an entity is not read when the schema does not declare one of its attributes. -/
lemma exists_error_mapRecord_toRecord (ha : a ∈ e.attributeList)
    (hundeclared : s.attribute? a.name = none) (hapart : s.isIdentifierField a.name = false) :
    ∃ err, s.mapRecord (s.toRecord e) = .error err := by
  have hfield : (a.name, rawOf a) ∈ s.fieldsOf e := by
    rw [← rawField_of_undeclared hundeclared]
    exact List.mem_append_right _ (List.mem_map_of_mem ha)
  obtain ⟨v, hv⟩ := TextMap.exists_get?_foldl_insert (m := .empty) (Or.inl ⟨_, hfield⟩)
  rw [toRecord_eq]
  exact exists_error_foldlM _ ((TextMap.mem_entries_iff (TextMap.ofList (s.fieldsOf e))).2 hv)
where
  /-- Whatever was read before it, the attribute is refused. -/
  exists_error_foldlM (r : Entity) {fields : List (String × Json)} {raw : Json}
      (hmem : (a.name, raw) ∈ fields) :
      ∃ err, fields.foldlM (fun e f => s.mapField e f.1 f.2) r = .error err := by
    induction fields generalizing r with
    | nil => simp at hmem
    | cons f rest ih =>
      rw [List.foldlM_cons]
      cases hstep : s.mapField r f.1 f.2 with
      | error err => exact ⟨err, rfl⟩
      | ok r' =>
        rcases List.mem_cons.1 hmem with rfl | hmem
        · simp [mapField, hundeclared, hapart] at hstep
        · exact ih r' hmem

/-- What is read from a record is as changes leave it. -/
lemma proper_of_mapRecord {record : Json} (h : s.mapRecord record = .ok e) : e.Proper := by
  cases record with
  | members fields =>
    have hfold : ∀ (fields : List (String × Json)) (r : Entity), r.Proper →
        fields.foldlM (fun e f => s.mapField e f.1 f.2) r = .ok e → e.Proper := by
      intro fields
      induction fields with
      | nil =>
        intro r hr heq
        obtain rfl := Except.ok.inj heq
        exact hr
      | cons f rest ih =>
        intro r hr heq
        rw [List.foldlM_cons] at heq
        cases hstep : s.mapField r f.1 f.2 with
        | error err => simp [hstep, bind, Except.bind] at heq
        | ok r' =>
          rw [hstep] at heq
          exact ih r' (proper_of_mapField hr hstep) heq
    exact hfold fields .anonymous (Entity.proper_of_empty rfl) h
  | _ => simp [mapRecord] at h
where
  proper_of_mapField {r r' : Entity} {field : String} {raw : Json} (hr : r.Proper)
      (h : s.mapField r field raw = .ok r') : r'.Proper := by
    unfold mapField at h
    split at h
    · split at h
      · split at h
        · simp at h
        · obtain rfl := Except.ok.inj h
          exact hr
      · obtain rfl := Except.ok.inj h
        exact hr
      · simp at h
    · split at h
      · simp at h
      · next d _ =>
        cases hvalues : fieldValues d field raw with
        | error err => simp [hvalues, bind, Except.bind] at h
        | ok read =>
          cases read with
          | none =>
            obtain rfl : r = r' := by
              simpa [hvalues, bind, Except.bind, pure, Except.pure] using h
            exact hr
          | some vs =>
            obtain rfl : r.put d.name vs = r' := by
              simpa [hvalues, bind, Except.bind, pure, Except.pure] using h
            exact hr.put d.name vs

/-! ## Records in files -/

lemma plain_rawValue (v : AttributeValue) : (rawValue v).Plain := by
  cases v with
  | integer i =>
    have hlow := i.le_toInt
    have hhigh := i.toInt_lt
    simp only [rawValue, Json.ofInt, Json.Plain]
    omega
  | _ => simp [rawValue, Json.Plain]

end EntitySchema

namespace Json

lemma plainItems_iff {items : List Json} : PlainItems items ↔ ∀ item ∈ items, item.Plain := by
  induction items with
  | nil => simp [PlainItems]
  | cons item rest ih => simp [PlainItems, ih]

lemma plainMembers_iff {fields : List (String × Json)} :
    PlainMembers fields ↔ ∀ f ∈ fields, f.2.Plain := by
  induction fields with
  | nil => simp [PlainMembers]
  | cons f rest ih => simp [PlainMembers, ih]

lemma depthItems_le_iff {items : List Json} {n : Nat} :
    depthItems items ≤ n ↔ ∀ item ∈ items, item.depth ≤ n := by
  induction items with
  | nil => simp [depthItems]
  | cons item rest ih => simp [depthItems, ih]

lemma depthMembers_le_iff {fields : List (String × Json)} {n : Nat} :
    depthMembers fields ≤ n ↔ ∀ f ∈ fields, f.2.depth ≤ n := by
  induction fields with
  | nil => simp [depthMembers]
  | cons f rest ih => simp [depthMembers, ih]

end Json

namespace EntitySchema

lemma depth_rawValue (v : AttributeValue) : (rawValue v).depth = 1 := by
  cases v <;> rfl

lemma plain_rawField (s : EntitySchema) (a : Attribute) :
    (s.rawField a).2.Plain ∧ (s.rawField a).2.depth ≤ 2 := by
  have harray : ∀ vs : List AttributeValue,
      (Json.array (vs.map rawValue)).Plain ∧ (Json.array (vs.map rawValue)).depth ≤ 2 := by
    intro vs
    have hdepth : Json.depthItems (vs.map rawValue) ≤ 1 := by
      simp [Json.depthItems_le_iff, depth_rawValue]
    refine ⟨?_, ?_⟩
    · rw [Json.Plain, Json.plainItems_iff]
      simp [plain_rawValue]
    · rw [Json.depth]
      omega
  obtain ⟨name, values⟩ := a
  rcases values with _ | ⟨v, _ | ⟨w, rest⟩⟩
  · exact harray []
  · exact ⟨plain_rawValue v, by simp [rawField, depth_rawValue]⟩
  · exact harray (v :: w :: rest)

lemma plain_toRecord (s : EntitySchema) (e : Entity) :
    (s.toRecord e).Plain ∧ (s.toRecord e).depth ≤ 3 := by
  have hfields : ∀ f ∈ (TextMap.ofList (s.fieldsOf e)).entries, f.2.Plain ∧ f.2.depth ≤ 2 := by
    intro f hf
    rcases TextMap.mem_of_get?_foldl_insert ((TextMap.mem_entries_iff _).1 hf) with hmem | hnone
    · rcases List.mem_append.1 hmem with hmem | hmem
      · cases hfield : s.identifierField <;> cases hid : e.identifier <;>
          simp only [hfield, hid, List.not_mem_nil, List.mem_singleton, Prod.mk.injEq] at hmem
        rw [hmem.2]
        exact ⟨by simp [Json.Plain], by simp [Json.depth]⟩
      · obtain ⟨a, -, heq⟩ := List.mem_map.1 hmem
        have hraw := s.plain_rawField a
        rwa [heq] at hraw
    · cases hnone
  have hdepth : Json.depthMembers (TextMap.ofList (s.fieldsOf e)).entries ≤ 2 :=
    Json.depthMembers_le_iff.2 fun f hf => (hfields f hf).2
  rw [toRecord_eq, Json.Plain, Json.plainMembers_iff, Json.depth]
  exact ⟨⟨(TextMap.ofList (s.fieldsOf e)).ascending, fun f hf => (hfields f hf).1⟩, by omega⟩

end EntitySchema

end StoreSync
