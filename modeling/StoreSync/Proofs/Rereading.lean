import StoreSync.Proofs.Base64
import StoreSync.Proofs.Records

/-!
# Records read once and again

An entity that a schema has read from a record is written by the same schema as a record that reads
as that very entity: with its identifier, its attributes under their keys and display names, and
their values in the same variants and order (`EntitySchema.mapRecord_toRecord`).  The record itself
need not come back, as fields in any casing, nulls, repeated values and numbers in texts are gone
once it has been read.

What makes the difference to an arbitrary entity is its form after reading (`EntitySchema.Shaped`):
every attribute goes by the name of the declaration that its own name finds, apart from the
identifier field, and its values are of the declared type, which reads what it has written without
loss (`DataType.coerce_rawValue`).  Each attribute is then preserved as it is
(`EntitySchema.Shaped.preserves`).
-/

namespace StoreSync

lemma bind_eq_ok_iff {ε α β : Type} {x : Except ε α} {f : α → Except ε β} {b : β} :
    x >>= f = .ok b ↔ ∃ a, x = .ok a ∧ f a = .ok b := by
  cases x with
  | error err => simp [bind, Except.bind]
  | ok a => simp [bind, Except.bind]

/-! ## Values -/

namespace DataType

variable {t : DataType} {raw : Json} {v : AttributeValue}

/-- What is read under a type is a value of the type. -/
lemma kind_of_coerce (h : t.coerce raw = .ok v) : v.kind = t.name := by
  unfold coerce at h
  split at h
  any_goals split at h
  -- A refusal is no value.
  all_goals cases h
  all_goals rfl

/-- A value of the type is read as it is written. -/
lemma coerce_rawValue (h : v.kind = t.name) : t.coerce (EntitySchema.rawValue v) = .ok v := by
  cases v with
  | string s =>
    obtain rfl : t = .string := by cases t <;> simp_all [AttributeValue.kind, name]
    rfl
  | integer i =>
    obtain rfl : t = .integer := by cases t <;> simp_all [AttributeValue.kind, name]
    have hfits : Text.FitsInt64 i.toInt := ⟨i.le_toInt, i.toInt_lt⟩
    simp [EntitySchema.rawValue, Json.ofInt, coerce, hfits]
  | boolean b =>
    obtain rfl : t = .boolean := by cases t <;> simp_all [AttributeValue.kind, name]
    rfl
  | binary bytes =>
    obtain rfl : t = .binary := by cases t <;> simp_all [AttributeValue.kind, name]
    simp [EntitySchema.rawValue, coerce, Text.Base64.decode_encode]

lemma keeps_of_kind (h : v.kind = t.name) : t.keeps v = true := by
  simp [keeps, coerce_rawValue h]

end DataType

namespace Attribute

/-- Values that an attribute is made of are all that it holds. -/
lemma mem_of_mem_values_addAll {a : Attribute} {vs : List AttributeValue} {v : AttributeValue}
    (h : v ∈ (a.addAll vs).values) : v ∈ a.values ∨ v ∈ vs := by
  induction vs generalizing a with
  | nil => exact Or.inl h
  | cons w rest ih =>
    rcases ih (a := a.add w) h with h | h
    · unfold add at h
      split at h
      · exact Or.inl h
      · rcases List.mem_append.1 h with h | h
        · exact Or.inl h
        · exact Or.inr (List.mem_cons.2 (Or.inl (List.mem_singleton.1 h)))
    · exact Or.inr (List.mem_cons_of_mem _ h)

/-- An attribute is put together of its name and its values. -/
lemma ofValues_values {a : Attribute} (h : a.texts.Nodup) : ofValues a.name a.values = a := by
  have hvalues : (ofValues a.name a.values).values = a.values := by
    rw [ofValues, values_addAll (by simpa [texts] using h), List.nil_append]
  have hname : (ofValues a.name a.values).name = a.name := addAll_name _ _
  calc ofValues a.name a.values
      = ⟨(ofValues a.name a.values).name, (ofValues a.name a.values).values⟩ := rfl
    _ = a := by rw [hname, hvalues]

end Attribute

namespace EntitySchema

variable {s : EntitySchema} {e r r' : Entity} {a : Attribute} {d : SchemaAttribute}

/-! ## Entities as they are read -/

lemma kind_of_coerceField {field : String} {raw : Json} {v : AttributeValue}
    (h : coerceField d field raw = .ok v) : v.kind = d.dataType.name := by
  unfold coerceField at h
  split at h
  next w hcoerce =>
    obtain rfl := Except.ok.inj h
    exact DataType.kind_of_coerce hcoerce
  next => simp at h

lemma kind_of_mapM {field : String} {raws : List Json} {vs : List AttributeValue}
    (h : raws.mapM (coerceField d field) = .ok vs) : ∀ v ∈ vs, v.kind = d.dataType.name := by
  induction raws generalizing vs with
  | nil =>
    obtain rfl := Except.ok.inj h
    simp
  | cons raw rest ih =>
    rw [List.mapM_cons] at h
    obtain ⟨v, hv, h⟩ := bind_eq_ok_iff.1 h
    obtain ⟨vs', hvs', h⟩ := bind_eq_ok_iff.1 h
    obtain rfl := Except.ok.inj h
    intro w hw
    rcases List.mem_cons.1 hw with rfl | hw
    · exact kind_of_coerceField hv
    · exact ih hvs' w hw

lemma kind_of_fieldValues {field : String} {raw : Json} {vs : List AttributeValue}
    (h : fieldValues d field raw = .ok (some vs)) : ∀ v ∈ vs, v.kind = d.dataType.name := by
  unfold fieldValues at h
  split at h
  · simp at h
  · obtain ⟨vs', hvs', h⟩ := bind_eq_ok_iff.1 h
    obtain rfl := Option.some.inj (Except.ok.inj h)
    exact kind_of_mapM hvs'
  · obtain ⟨v, hv, h⟩ := bind_eq_ok_iff.1 h
    obtain rfl := Option.some.inj (Except.ok.inj h)
    simpa using kind_of_coerceField hv

/-- An attribute as a schema reads it. -/
structure ShapedAttribute (s : EntitySchema) (a : Attribute) (d : SchemaAttribute) : Prop where
  declared : s.attribute? a.name = some d
  name : d.name = a.name
  apart : s.isIdentifierField a.name = false
  kinds : ∀ v ∈ a.values, v.kind = d.dataType.name

/-- An entity as a schema reads it. -/
structure Shaped (s : EntitySchema) (e : Entity) : Prop where
  proper : e.Proper
  identifier : ∀ id, e.identifier = some id → s.identifierField.isSome = true ∧ id.isEmpty = false
  pending : e.newIdentifier = none
  attributes : ∀ k a, e.attributes.get? k = some a → ∃ d, s.ShapedAttribute a d

lemma shaped_anonymous : s.Shaped .anonymous where
  proper := Entity.proper_of_empty rfl
  identifier := by simp [Entity.anonymous]
  pending := rfl
  attributes := by simp [Entity.anonymous]

lemma isIdentifierField_congr {f f' : String} (h : Text.sameFolded f f' = true) :
    s.isIdentifierField f = s.isIdentifierField f' := by
  unfold isIdentifierField
  cases s.identifierField with
  | none => rfl
  | some id =>
    rw [Bool.eq_iff_iff]
    exact ⟨fun hf => Text.sameFolded_trans hf h,
      fun hf => Text.sameFolded_trans hf (by rw [Text.sameFolded_comm]; exact h)⟩

/-- A declared attribute goes by the name of its declaration, whatever its field was called. -/
lemma Shaped.put (h : s.Shaped r) {field : String} {vs : List AttributeValue}
    (hd : s.attribute? field = some d) (hapart : s.isIdentifierField field = false)
    (hkinds : ∀ v ∈ vs, v.kind = d.dataType.name) : s.Shaped (r.put d.name vs) where
  proper := h.proper.put d.name vs
  identifier := h.identifier
  pending := h.pending
  attributes k a ha := by
    rw [Entity.put, Entity.set, TextMap.get?_insert] at ha
    split at ha
    next =>
      obtain rfl := Option.some.inj ha
      have hname : (Attribute.ofValues d.name vs).name = d.name := Attribute.addAll_name _ _
      have hsame : Text.sameFolded d.name field = true := by simpa using List.find?_some hd
      refine ⟨d, by rw [hname]; exact attribute?_self hd, hname.symm, ?_, fun v hv => hkinds v ?_⟩
      · rw [hname, isIdentifierField_congr hsame]
        exact hapart
      · exact (Attribute.mem_of_mem_values_addAll hv).resolve_left (by simp)
    next => exact h.attributes k a ha

lemma Shaped.mapField (h : s.Shaped r) {field : String} {raw : Json}
    (hstep : s.mapField r field raw = .ok r') : s.Shaped r' := by
  unfold EntitySchema.mapField at hstep
  split at hstep
  next hidentifier =>
    have hfield : s.identifierField.isSome = true := by
      unfold isIdentifierField at hidentifier
      split at hidentifier
      next heq => rw [heq]; rfl
      next => simp at hidentifier
    split at hstep
    next id =>
      split at hstep
      next => simp at hstep
      next hid =>
        obtain rfl := Except.ok.inj hstep
        refine ⟨h.proper, fun id' hid' => ?_, h.pending, h.attributes⟩
        obtain rfl := Option.some.inj hid'
        exact ⟨hfield, by simpa using hid⟩
    next =>
      obtain rfl := Except.ok.inj hstep
      exact h
    next => simp at hstep
  next hapart =>
    split at hstep
    next => simp at hstep
    next d hd =>
      obtain ⟨read, hread, hstep⟩ := bind_eq_ok_iff.1 hstep
      cases read with
      | none =>
        obtain rfl := Except.ok.inj hstep
        exact h
      | some vs =>
        obtain rfl := Except.ok.inj hstep
        exact h.put hd (by simpa using hapart) (kind_of_fieldValues hread)

lemma Shaped.foldlM (h : s.Shaped r) {fields : List (String × Json)}
    (hread : fields.foldlM (fun e f => s.mapField e f.1 f.2) r = .ok r') : s.Shaped r' := by
  induction fields generalizing r with
  | nil =>
    obtain rfl := Except.ok.inj hread
    exact h
  | cons f rest ih =>
    obtain ⟨r₁, hstep, hrest⟩ := bind_eq_ok_iff.1 hread
    exact ih (h.mapField hstep) hrest

/-- What is read from a record has the form of the schema. -/
lemma shaped_of_mapRecord {record : Json} (h : s.mapRecord record = .ok e) : s.Shaped e := by
  cases record with
  | members fields => exact shaped_anonymous.foldlM h
  | _ => simp [mapRecord] at h

lemma Shaped.holds (h : s.Shaped e) : s.holds e = true := by
  have hattribute : ∀ a ∈ e.attributeList, s.holdsAttribute a = true := by
    intro a ha
    obtain ⟨k, hget⟩ := TextMap.mem_values_iff.1 ha
    obtain ⟨d, hd⟩ := h.attributes k a hget
    have hname : Text.fold d.name = Text.fold a.name := by rw [hd.name]
    have hapart : s.isIdentifierField d.name = false := by
      rw [hd.name]
      exact hd.apart
    exact holdsAttribute_iff.2 ⟨d, hd.declared, hname, hapart,
      fun v hv => DataType.keeps_of_kind (hd.kinds v hv)⟩
  have hidentifier : e.identifier.all
      (fun id => s.identifierField.isSome && !id.isEmpty) = true := by
    cases hid : e.identifier with
    | none => rfl
    | some id =>
      obtain ⟨hfield, hnonempty⟩ := h.identifier id hid
      simp [hfield, hnonempty]
  exact (Bool.and_eq_true _ _).mpr ⟨hidentifier, List.all_eq_true.2 hattribute⟩

/-! ## Reading what was written -/

/-- Values of the declared type are read as they are written. -/
lemma mapM_rawValue (field : String) {vs : List AttributeValue}
    (h : ∀ v ∈ vs, v.kind = d.dataType.name) :
    (vs.map rawValue).mapM (coerceField d field) = .ok vs := by
  induction vs with
  | nil => rfl
  | cons v rest ih =>
    have hv : coerceField d field (rawValue v) = .ok v := by
      rw [coerceField, DataType.coerce_rawValue (h v List.mem_cons_self)]
    rw [List.map_cons, List.mapM_cons, hv, ih fun w hw => h w (List.mem_cons_of_mem _ hw)]
    rfl

/-- Of an entity that was read, nothing is lost. -/
lemma Shaped.preserves (h : s.Shaped e) : Preserves id s e := by
  intro k a d hget hd _
  obtain ⟨d', hd'⟩ := h.attributes k a hget
  obtain rfl : d = d' := Option.some.inj (hd.symm.trans hd'.declared)
  refine ⟨a.values, ?_, ?_⟩
  · rw [fieldValues_rawOf, mapM_rawValue d.name hd'.kinds]
    rfl
  · rw [hd'.name]
    exact Attribute.ofValues_values (h.proper k a hget).2

/-- **What a schema has read, it reads again from its own record.**  Whatever the declarations and
the identifier field, names that are equal up to case included: an entity that was read from a
record is written as a record that reads as the same entity. -/
theorem mapRecord_toRecord {record : Json} (h : s.mapRecord record = .ok e) :
    s.mapRecord (s.toRecord e) = .ok e := by
  have hshaped := shaped_of_mapRecord h
  obtain ⟨e', hread, hidentifier, hpending, hattributes⟩ :=
    exists_read hshaped.proper hshaped.holds hshaped.preserves
  have hattributes : e'.attributes = e.attributes :=
    TextMap.ext_get? fun k => by simpa using hattributes k
  have hsame : e' = e := by
    calc e' = ⟨e'.identifier, e'.newIdentifier, e'.attributes⟩ := rfl
      _ = ⟨e.identifier, e.newIdentifier, e.attributes⟩ := by
        rw [hidentifier, hpending, hshaped.pending, hattributes]
  rw [← hsame] at hread ⊢
  exact hread

/-! ### The keys of a hotel

Keys are told apart by their number, which stands in the identifier field although an attribute of
that name is declared, and the door is declared twice.  The record of a key comes with its fields in
other casing, a door given as a text and again as a number, an empty array and a null. -/

def hotelKeys : EntitySchema where
  name := "key"
  identifierField := some "Number"
  attributes := [⟨"number", .integer⟩, ⟨"Door", .integer⟩, ⟨"DOOR", .string⟩, ⟨"Lent", .boolean⟩,
    ⟨"stamp", .binary⟩, ⟨"holder", .string⟩, ⟨"Notes", .string⟩]

def wornRecord : Json :=
  .members [("DOOR", .array [.string " 8 ", .null, .ofInt 7, .ofInt 8]), ("Holder", .null),
    ("NOTES", .array []), ("NUMBER", .string "k7"), ("Stamp", .string "AAE="),
    ("lent", .string "True")]

def hotelKey : Entity :=
  ((({ Entity.anonymous with identifier := some "k7" }.put "Door" [.integer 8, .integer 7]).put
    "Notes" []).put "stamp" [.binary [0, 1]]).put "Lent" [.boolean true]

/-- The key is written in another form than it came, and read again all the same. -/
theorem mapRecord_toRecord_hotelKeys :
    hotelKeys.mapRecord wornRecord = .ok hotelKey ∧
    hotelKeys.toRecord hotelKey =
      .members [("Door", .array [.ofInt 8, .ofInt 7]), ("Lent", .boolean true),
        ("Notes", .array []), ("Number", .string "k7"), ("stamp", .string "AAE=")] ∧
    hotelKeys.mapRecord (hotelKeys.toRecord hotelKey) = .ok hotelKey := by
  have hread : hotelKeys.mapRecord wornRecord = .ok hotelKey := by decide +kernel
  exact ⟨hread, by rfl, mapRecord_toRecord hread⟩

end EntitySchema

end StoreSync
