import StoreSync.Change
import StoreSync.Filter
import StoreSync.Pivot
import StoreSync.Proofs.Records

/-!
# Data forms

Entities, changes, pivots and filters have data forms, in which fields without content are left
out, values stand without the name of their type, and a filter carries its kind among its fields.
Of each of them `RoundTrips` says that the form is read as what was written, and that it is plain
data, so that its text is as good as the form itself (`RoundTrips.parse?_pretty`).

A form is an object of fields with different names.  It is the map of these fields whatever their
order (`TextMap.get?_ofList`), which gives what a reader finds in it: the fields of a structure
(`Record.open?_object`), the kind of a filter and the rest of it (`Filter.tagged?_object`).  Lists
and maps are read item by item (`RoundTrips.list`, `RoundTrips.map`).
-/

namespace StoreSync

/-! ## Objects of different names -/

namespace TextMap

variable {α : Type} {fields : List (String × α)} {name : String}

lemma lookup_eq_some_iff (hdistinct : (fields.map (·.1)).Nodup) {v : α} :
    fields.lookup name = some v ↔ (name, v) ∈ fields := by
  induction fields with
  | nil => simp
  | cons f rest ih =>
    obtain ⟨k, w⟩ := f
    obtain ⟨hk, hrest⟩ := List.nodup_cons.1 hdistinct
    by_cases hname : name = k
    · subst hname
      have hnone : (name, v) ∉ rest := fun hmem => hk (List.mem_map.2 ⟨_, hmem, rfl⟩)
      simp [hnone, eq_comm]
    · simp [List.lookup_cons, beq_eq_false_iff_ne.2 hname, hname, ih hrest]

/-- The map of pairs with different keys gives back the pairs. -/
lemma get?_ofList (hdistinct : (fields.map (·.1)).Nodup) (name : String) :
    (ofList fields).get? name = fields.lookup name := by
  refine Option.ext fun v => ?_
  rw [lookup_eq_some_iff hdistinct]
  constructor
  · intro hget
    exact (mem_of_get?_foldl_insert hget).resolve_right (by simp [empty, get?, lookupEntry])
  · intro hmem
    refine get?_foldl_insert_of_mem (fun v' hv' => ?_) (Or.inl hmem)
    rw [← lookup_eq_some_iff hdistinct] at hmem hv'
    exact Option.some.inj (hv'.symm.trans hmem)

lemma mem_entries_ofList (hdistinct : (fields.map (·.1)).Nodup) {f : String × α} :
    f ∈ (ofList fields).entries ↔ f ∈ fields := by
  rw [mem_entries_iff, get?_ofList hdistinct, lookup_eq_some_iff hdistinct]

lemma nodup_keys (m : TextMap α) : (m.entries.map (·.1)).Nodup := by
  refine List.pairwise_map.2 (m.ascending.imp fun {a b} hlt heq => ?_)
  exact String.lt_irrefl b.1 (heq ▸ hlt)

/-- A map is the map of its entries. -/
lemma ofList_entries (m : TextMap α) : ofList m.entries = m := by
  refine ext_get? fun key => Option.ext fun v => ?_
  rw [get?_ofList m.nodup_keys, lookup_eq_some_iff m.nodup_keys, mem_entries_iff]

end TextMap

namespace Json

variable {fields : List (String × Json)}

lemma plain_object (hdistinct : (fields.map (·.1)).Nodup) (h : ∀ f ∈ fields, f.2.Plain) :
    (object fields).Plain := by
  rw [object_eq, Plain, plainMembers_iff]
  exact ⟨TextMap.ascending _, fun f hf => h f ((TextMap.mem_entries_ofList hdistinct).1 hf)⟩

lemma depth_object_le_iff (hdistinct : (fields.map (·.1)).Nodup) {n : Nat} :
    (object fields).depth ≤ n + 1 ↔ ∀ f ∈ fields, f.2.depth ≤ n := by
  rw [object_eq, depth, Nat.add_le_add_iff_right, depthMembers_le_iff]
  simp only [TextMap.mem_entries_ofList hdistinct]

end Json

namespace Record

variable {fields : List (String × Json)}

lemma distinctNames_of_nodup (hdistinct : (fields.map (·.1)).Nodup) :
    distinctNames fields = true := by
  induction fields with
  | nil => rfl
  | cons f rest ih =>
    obtain ⟨hf, hrest⟩ := List.nodup_cons.1 hdistinct
    have hother : ∀ g ∈ rest, g.1 ≠ f.1 := fun g hg heq => hf (List.mem_map.2 ⟨g, hg, heq⟩)
    simpa [distinctNames, ih hrest] using hother

/-- A structure is opened at its form, and finds its fields there. -/
lemma open?_object (names : List String) (fields : List (String × Json))
    (hdistinct : (fields.map (·.1)).Nodup) :
    ∃ r, open? names (Json.object fields) = some r ∧
      ∀ name ∈ names, r.fields.lookup name = fields.lookup name := by
  have hknown : (((TextMap.ofList fields).entries.filter fun m => names.contains m.1).map
      (·.1)).Nodup :=
    (TextMap.nodup_keys _).sublist (List.filter_sublist.map _)
  refine ⟨⟨(TextMap.ofList fields).entries.filter fun m => names.contains m.1, true⟩, ?_,
    fun name hname => Option.ext fun v => ?_⟩
  · rw [Json.object_eq]
    exact if_pos (distinctNames_of_nodup hknown)
  · rw [TextMap.lookup_eq_some_iff hknown, TextMap.lookup_eq_some_iff hdistinct, List.mem_filter,
      TextMap.mem_entries_ofList hdistinct]
    simp [hname]

variable {r : Record Json} {name : String} {j : Json} {α : Type} {read : Json → Option α} {a : α}

lemma required_of_lookup (h : r.fields.lookup name = some j) (hread : read j = some a) :
    r.required name read = some a := by
  simp [required, h, hread]

lemma defaulted_of_lookup {default : α} (h : r.fields.lookup name = some j)
    (hread : read j = some a) : r.defaulted name default read = some a := by
  simp [defaulted, h, hread]

lemma defaulted_of_lookup_eq_none {default : α} (h : r.fields.lookup name = none) :
    r.defaulted name default read = some default := by
  simp [defaulted, h]

lemma optional_of_lookup {o : Option α} (h : r.fields.lookup name = some j)
    (hread : DataTree.nullable? read j = some o) : r.optional name read = some o := by
  simp [optional, h, hread]

/-- A value that has a field only if there is one. -/
lemma optionalDefaulted_of_lookup {write : α → Json} {o : Option α}
    (h : r.fields.lookup name = o.map write)
    (hread : ∀ a, DataTree.nullable? read (write a) = some (some a)) :
    r.optionalDefaulted name read = some o := by
  cases o with
  | none => exact defaulted_of_lookup_eq_none h
  | some a => exact defaulted_of_lookup h (hread a)

end Record

/-! ## What is written and read -/

/-- A form of values: what was written is read, and it is plain data. -/
structure RoundTrips {α : Type} (write : α → Json) (read : Json → Option α) : Prop where
  read_write : ∀ a, read (write a) = some a
  plain : ∀ a, (write a).Plain

namespace RoundTrips

variable {α : Type} {write : α → Json} {read : Json → Option α}

/-- The text of a form is read like the form, if it is not too deep for the parser. -/
theorem parse?_pretty (h : RoundTrips write read) {a : α}
    (hdepth : (write a).depth ≤ Json.depthLimit) :
    (Json.parse? (write a).pretty).bind read = some a := by
  rw [Json.parse?_pretty _ (h.plain a) hdepth, Option.bind_some, h.read_write]

lemma mapM_map {β γ δ : Type} {f : γ → Option δ} {g : β → γ} {k : β → δ} {l : List β}
    (h : ∀ b ∈ l, f (g b) = some (k b)) : (l.map g).mapM f = some (l.map k) := by
  induction l with
  | nil => rfl
  | cons b rest ih =>
    rw [List.map_cons, List.mapM_cons, h b List.mem_cons_self,
      ih fun c hc => h c (List.mem_cons_of_mem _ hc)]
    rfl

lemma list (h : RoundTrips write read) :
    RoundTrips (fun l : List α => .array (l.map write)) (DataTree.list? read) where
  read_write l := by
    show (l.map write).mapM read = some l
    rw [mapM_map fun a _ => h.read_write a, List.map_id']
  plain l := by
    rw [Json.Plain, Json.plainItems_iff]
    simpa using fun a _ => h.plain a

lemma map (h : RoundTrips write read) :
    RoundTrips (fun m : TextMap α => .object (m.entries.map fun e => (e.1, write e.2)))
      (DataTree.map? read) where
  read_write m := by
    have hascending : (m.entries.map fun e => (e.1, write e.2)).Pairwise fun a b => a.1 < b.1 :=
      List.pairwise_map.2 m.ascending
    have hentry : ∀ e ∈ m.entries, (read (write e.2)).map (e.1, ·) = some (id e) := by
      simp [h.read_write]
    have hpairs : (m.entries.map fun e => (e.1, write e.2)).mapM
        (fun p => (read p.2).map (p.1, ·)) = some m.entries :=
      (mapM_map hentry).trans (by rw [List.map_id])
    rw [Json.object_of_ascending hascending]
    show ((m.entries.map fun e => (e.1, write e.2)).mapM fun p => (read p.2).map (p.1, ·)).bind
      (fun pairs => some (TextMap.ofList pairs)) = some m
    rw [hpairs, Option.bind_some, m.ofList_entries]
  plain m := by
    refine Json.plain_object ?_ fun f hf => ?_
    · rw [List.map_map]
      exact m.nodup_keys
    · obtain ⟨e, -, rfl⟩ := List.mem_map.1 hf
      exact h.plain e.2

lemma string : RoundTrips Json.string Json.string? where
  read_write _ := rfl
  plain _ := by simp [Json.Plain]

lemma nullable?_text (text : Option String) :
    DataTree.nullable? Json.string? (.ofOption .string text) = some text := by
  cases text <;> rfl

end RoundTrips

/-! ## Values and attributes -/

namespace AttributeValue

lemma byte?_ofNat (b : UInt8) : byte? (.ofNat b.toNat) = some b := by
  have hbound : b.toNat < 256 := b.toNat_lt
  have hfits : (0 : Int) ≤ b.toNat ∧ (b.toNat : Int) < 256 := by omega
  simp [byte?, Json.ofNat, Json.ofInt, hfits]

lemma roundTrips_bytes : RoundTrips (fun b : UInt8 => .ofNat b.toNat) byte? where
  read_write := byte?_ofNat
  plain b := by
    have hbound : b.toNat < 256 := b.toNat_lt
    simp only [Json.ofNat, Json.ofInt, Json.Plain]
    omega

/-- A value is read with its type: no type has a form that one before it would take. -/
theorem roundTrips : RoundTrips toJson ofJson? where
  read_write v := by
    cases v with
    | string s => rfl
    | integer i =>
      have hfits : Text.FitsInt64 i.toInt := ⟨i.le_toInt, i.toInt_lt⟩
      simp [toJson, Json.ofInt, ofJson?, hfits]
    | boolean b => rfl
    | binary bytes =>
      have hbytes : (bytes.map fun b => Json.ofNat b.toNat).mapM byte? = some bytes :=
        roundTrips_bytes.list.read_write bytes
      simp [toJson, ofJson?, hbytes]
  plain v := by
    cases v with
    | string s => simp [toJson, Json.Plain]
    | integer i =>
      have hlow := i.le_toInt
      have hhigh := i.toInt_lt
      simp only [toJson, Json.ofInt, Json.Plain]
      omega
    | boolean b => simp [toJson, Json.Plain]
    | binary bytes => exact roundTrips_bytes.list.plain bytes

/-- Texts that look like something else stay texts, and no bytes are bytes. -/
example : [.string "42", .integer 42, .string "true", .boolean true, .string "", .binary []].mapM
    (fun v : AttributeValue => ofJson? v.toJson) =
      some [.string "42", .integer 42, .string "true", .boolean true, .string "", .binary []] := by
  decide

end AttributeValue

namespace Attribute

theorem roundTrips : RoundTrips toJson ofJson? where
  read_write a := by
    obtain ⟨r, hopen, hlookup⟩ := Record.open?_object ["name", "values"]
      [("name", .string a.name), ("values", .array (a.values.map AttributeValue.toJson))] (by simp)
    have hname : r.required "name" Json.string? = some a.name :=
      Record.required_of_lookup (hlookup _ (by simp)) rfl
    have hvalues : r.required "values" (DataTree.list? AttributeValue.ofJson?) = some a.values :=
      Record.required_of_lookup (hlookup _ (by simp)) (AttributeValue.roundTrips.list.read_write _)
    simp [toJson, ofJson?, hopen, hname, hvalues]
  plain a := by
    refine Json.plain_object (by simp) ?_
    simp [RoundTrips.string.plain, AttributeValue.roundTrips.list.plain a.values]

end Attribute

/-! ## Entities -/

namespace Entity

/-- The fields of an entity's form; a new identifier has a field only if there is one. -/
def formFields (e : Entity) : List (String × Json) :=
  [("identifier", .ofOption .string e.identifier)] ++
    (match e.newIdentifier with
      | some n => [("new_identifier", .string n)]
      | none => []) ++
    [("attributes", .object (e.attributes.entries.map fun a => (a.1, a.2.toJson)))]

lemma nodup_formFields (e : Entity) : (e.formFields.map (·.1)).Nodup := by
  unfold formFields
  cases e.newIdentifier <;> simp

theorem roundTrips : RoundTrips toJson ofJson? where
  read_write e := by
    obtain ⟨r, hopen, hlookup⟩ := Record.open?_object
      ["identifier", "new_identifier", "attributes"] e.formFields e.nodup_formFields
    have hidentifier : r.optional "identifier" Json.string? = some e.identifier :=
      Record.optional_of_lookup (hlookup _ (by simp)) (RoundTrips.nullable?_text e.identifier)
    have hfield : r.fields.lookup "new_identifier" = e.newIdentifier.map .string := by
      rw [hlookup _ (by simp)]
      cases hid : e.newIdentifier <;> simp [formFields, hid, List.lookup_cons]
    have hnew : r.optionalDefaulted "new_identifier" Json.string? = some e.newIdentifier :=
      Record.optionalDefaulted_of_lookup hfield fun _ => rfl
    have hattributes : r.defaulted "attributes" ∅ (DataTree.map? Attribute.ofJson?) =
        some e.attributes := by
      refine Record.defaulted_of_lookup ((hlookup _ (by simp)).trans ?_)
        (Attribute.roundTrips.map.read_write e.attributes)
      cases hid : e.newIdentifier <;> simp [formFields, hid, List.lookup_cons]
    have hform : e.toJson = .object e.formFields := rfl
    simp [hform, ofJson?, hopen, hidentifier, hnew, hattributes]
  plain e := by
    refine Json.plain_object e.nodup_formFields ?_
    have hattributes := Attribute.roundTrips.map.plain e.attributes
    cases e.identifier <;> cases e.newIdentifier <;>
      simp [hattributes, Json.ofOption, Json.Plain]

end Entity

/-! ## Changes -/

lemma Modification.roundTrips : RoundTrips Modification.toJson Modification.ofJson? where
  read_write m := by cases m <;> decide
  plain m := by simp [Modification.toJson, Json.Plain]

lemma OperationKind.roundTrips : RoundTrips OperationKind.toJson OperationKind.ofJson? where
  read_write k := by cases k <;> decide
  plain k := by simp [OperationKind.toJson, Json.Plain]

lemma AttributeOperation.roundTrips :
    RoundTrips AttributeOperation.toJson AttributeOperation.ofJson? where
  read_write op := by
    obtain ⟨r, hopen, hlookup⟩ := Record.open?_object ["kind", "attribute", "values"]
      [("kind", op.kind.toJson), ("attribute", .string op.target),
        ("values", .array (op.values.map AttributeValue.toJson))] (by simp)
    have hkind : r.required "kind" OperationKind.ofJson? = some op.kind :=
      Record.required_of_lookup (hlookup _ (by simp)) (OperationKind.roundTrips.read_write _)
    have htarget : r.required "attribute" Json.string? = some op.target :=
      Record.required_of_lookup (hlookup _ (by simp)) rfl
    have hvalues : r.required "values" (DataTree.list? AttributeValue.ofJson?) = some op.values :=
      Record.required_of_lookup (hlookup _ (by simp)) (AttributeValue.roundTrips.list.read_write _)
    simp [toJson, ofJson?, hopen, hkind, htarget, hvalues]
  plain op := by
    refine Json.plain_object (by simp) ?_
    simp [RoundTrips.string.plain, OperationKind.roundTrips.plain,
      AttributeValue.roundTrips.list.plain op.values]

namespace Change

/-- The fields of a change's form; what the change does not have has no field. -/
def formFields (c : Change) : List (String × Json) :=
  [("modification", c.modification.toJson), ("identifier", .string c.identifier)] ++
    (match c.newIdentifier with
      | some n => [("new_identifier", .string n)]
      | none => []) ++
    (if c.operations.isEmpty then []
      else [("operations", .array (c.operations.map AttributeOperation.toJson))])

lemma nodup_formFields (c : Change) : (c.formFields.map (·.1)).Nodup := by
  unfold formFields
  cases c.newIdentifier <;> cases c.operations <;> simp

theorem roundTrips : RoundTrips toJson ofJson? where
  read_write c := by
    obtain ⟨r, hopen, hlookup⟩ := Record.open?_object
      ["modification", "identifier", "new_identifier", "operations"] c.formFields c.nodup_formFields
    have hmodification : r.required "modification" Modification.ofJson? = some c.modification :=
      Record.required_of_lookup (hlookup _ (by simp)) (Modification.roundTrips.read_write _)
    have hidentifier : r.required "identifier" Json.string? = some c.identifier :=
      Record.required_of_lookup (hlookup _ (by simp)) rfl
    have hfield : r.fields.lookup "new_identifier" = c.newIdentifier.map .string := by
      rw [hlookup _ (by simp)]
      cases hid : c.newIdentifier <;> cases hops : c.operations <;>
        simp [formFields, hid, hops, List.lookup_cons]
    have hnew : r.optionalDefaulted "new_identifier" Json.string? = some c.newIdentifier :=
      Record.optionalDefaulted_of_lookup hfield fun _ => rfl
    have hoperations : r.defaulted "operations" [] (DataTree.list? AttributeOperation.ofJson?) =
        some c.operations := by
      have hfield := hlookup "operations" (by simp)
      cases hops : c.operations with
      | nil =>
        refine Record.defaulted_of_lookup_eq_none (hfield.trans ?_)
        cases hid : c.newIdentifier <;> simp [formFields, hid, hops, List.lookup_cons]
      | cons op rest =>
        refine Record.defaulted_of_lookup (hfield.trans ?_)
          (AttributeOperation.roundTrips.list.read_write (op :: rest))
        cases hid : c.newIdentifier <;> simp [formFields, hid, hops, List.lookup_cons]
    have hform : c.toJson = .object c.formFields := rfl
    simp [hform, ofJson?, hopen, hmodification, hidentifier, hnew, hoperations]
  plain c := by
    refine Json.plain_object c.nodup_formFields ?_
    have hoperations := AttributeOperation.roundTrips.list.plain c.operations
    have hmodification := Modification.roundTrips.plain c.modification
    cases c.newIdentifier <;> cases hops : c.operations.isEmpty <;>
      simp [hoperations, hmodification, RoundTrips.string.plain]

end Change

/-! ## Pivots -/

theorem Pivot.roundTrips : RoundTrips Pivot.toJson Pivot.ofJson? where
  read_write p := by
    obtain ⟨r, hopen, hlookup⟩ := Record.open?_object ["id", "attributes"]
      [("id", .string p.id),
        ("attributes", .object (p.attributes.entries.map fun e => (e.1, .string e.2)))] (by simp)
    have hid : r.required "id" Json.string? = some p.id :=
      Record.required_of_lookup (hlookup _ (by simp)) rfl
    have hattributes : r.defaulted "attributes" ∅ (DataTree.map? Json.string?) =
        some p.attributes :=
      Record.defaulted_of_lookup (hlookup _ (by simp)) (RoundTrips.string.map.read_write _)
    simp [toJson, ofJson?, hopen, hid, hattributes]
  plain p := by
    refine Json.plain_object (by simp) ?_
    simp [RoundTrips.string.plain, RoundTrips.string.map.plain p.attributes]

/-! ## Filters -/

namespace Filter

lemma toJsonAll_eq (filters : List Filter) : toJsonAll filters = filters.map toJson := by
  induction filters with
  | nil => rfl
  | cons f rest ih => rw [toJsonAll, ih, List.map_cons]

/-- The kind of a filter is found among its fields, and the rest is the form without it. -/
lemma tagged?_object (tag : String) (fields : List (String × Json))
    (hdistinct : (("type" :: fields.map (·.1))).Nodup) :
    tagged? (.object (("type", .string tag) :: fields)) = some (tag, .object fields) := by
  have hall : ((("type", Json.string tag) :: fields).map (·.1)).Nodup := hdistinct
  obtain ⟨htype, hfields⟩ := List.nodup_cons.1 hdistinct
  have htag : (TextMap.ofList (("type", Json.string tag) :: fields)).entries.lookup "type" =
      some (.string tag) := by
    rw [TextMap.lookup_eq_some_iff (TextMap.nodup_keys _), TextMap.mem_entries_ofList hall]
    exact List.mem_cons_self
  have hrest : (TextMap.ofList (("type", Json.string tag) :: fields)).erase "type" =
      TextMap.ofList fields := by
    refine TextMap.ext_get? fun key => ?_
    rw [TextMap.get?_erase, TextMap.get?_ofList hall, TextMap.get?_ofList hfields]
    split
    next hkey =>
      rw [← hkey]
      refine (Option.eq_none_iff_forall_not_mem.2 fun v hv => ?_).symm
      exact htype (List.mem_map.2 ⟨_, (TextMap.lookup_eq_some_iff hfields).1 hv, rfl⟩)
    next hkey => simp [List.lookup_cons, beq_eq_false_iff_ne.2 (Ne.symm hkey)]
  rw [Json.object_eq, Json.object_eq, ← hrest]
  simp only [tagged?, htag, Option.bind_eq_bind, Option.bind_some, Json.string?]
  rfl

/-- The fields of a comparison. -/
lemma exists_comparison (name value : String) :
    ∃ r, Record.open? ["attribute", "value"]
        (.object [("attribute", .string name), ("value", .string value)]) = some r ∧
      r.required "attribute" Json.string? = some name ∧
      r.required "value" Json.string? = some value := by
  obtain ⟨r, hopen, hlookup⟩ := Record.open?_object ["attribute", "value"]
    [("attribute", .string name), ("value", .string value)] (by simp)
  exact ⟨r, hopen, Record.required_of_lookup (hlookup _ (by simp)) rfl,
    Record.required_of_lookup (hlookup _ (by simp)) rfl⟩

/-- A body of one field. -/
lemma exists_single {α : Type} (name : String) {j : Json} {read : Json → Option α} {a : α}
    (hread : read j = some a) :
    ∃ r, Record.open? [name] (.object [(name, j)]) = some r ∧ r.required name read = some a := by
  obtain ⟨r, hopen, hlookup⟩ := Record.open?_object [name] [(name, j)] (by simp)
  exact ⟨r, hopen, Record.required_of_lookup ((hlookup _ (by simp)).trans (by simp)) hread⟩

lemma list?_toJsonAll {n : Nat}
    (h : ∀ f : Filter, f.toJson.depth ≤ n → ofJsonWithin n f.toJson = some f)
    {filters : List Filter} (hdepth : (Json.array (toJsonAll filters)).depth ≤ n) :
    DataTree.list? (ofJsonWithin n) (.array (toJsonAll filters)) = some filters := by
  rw [Json.depth, Nat.add_one_le_iff, toJsonAll_eq] at hdepth
  have hitems := Json.depthItems_le_iff.1 hdepth.le
  have hread : ∀ f ∈ filters, ofJsonWithin n f.toJson = some (id f) :=
    fun f hf => h f (hitems _ (List.mem_map_of_mem hf))
  rw [toJsonAll_eq]
  show (filters.map toJson).mapM (ofJsonWithin n) = some filters
  rw [RoundTrips.mapM_map hread, List.map_id]

/-- A form is read within any depth that it does not exceed. -/
lemma ofJsonWithin_toJson {n : Nat} (f : Filter) (hdepth : f.toJson.depth ≤ n) :
    ofJsonWithin n f.toJson = some f := by
  induction n generalizing f with
  | zero => cases f <;> simp [toJson, Json.object, Json.depth] at hdepth
  | succ n ih =>
    cases f with
    | equals name value | atLeast name value =>
      obtain ⟨r, hopen, hname, hvalue⟩ := exists_comparison name value
      rw [toJson, ofJsonWithin, tagged?_object _ _ (by simp)]
      simp [hopen, hname, hvalue]
    | present name =>
      have htext : Json.string? (.string name) = some name := rfl
      obtain ⟨r, hopen, hname⟩ := exists_single "attribute" htext
      rw [toJson, ofJsonWithin, tagged?_object _ _ (by simp)]
      simp [hopen, hname]
    | all filters | any filters =>
      rw [toJson, Json.depth_object_le_iff (by simp)] at hdepth
      have hlist : DataTree.list? (ofJsonWithin n) (.array (toJsonAll filters)) = some filters :=
        list?_toJsonAll ih (hdepth ("filters", _) (by simp))
      obtain ⟨r, hopen, hfilters⟩ := exists_single "filters" hlist
      rw [toJson, ofJsonWithin, tagged?_object _ _ (by simp)]
      simp [hopen, hfilters]
    | not filter =>
      rw [toJson, Json.depth_object_le_iff (by simp)] at hdepth
      obtain ⟨r, hopen, hfilter⟩ :=
        exists_single "filter" (ih filter (hdepth ("filter", _) (by simp)))
      rw [toJson, ofJsonWithin, tagged?_object _ _ (by simp)]
      simp [hopen, hfilter]

mutual

theorem plain_toJson (f : Filter) : f.toJson.Plain := by
  match f with
  | .equals .. | .atLeast .. | .present .. =>
    refine Json.plain_object (by simp) ?_
    simp [RoundTrips.string.plain]
  | .all filters | .any filters =>
    refine Json.plain_object (by simp) ?_
    have hfilters : (Json.array (toJsonAll filters)).Plain := by
      rw [Json.Plain]
      exact plainItems_toJsonAll filters
    simp [RoundTrips.string.plain, hfilters]
  | .not filter =>
    refine Json.plain_object (by simp) ?_
    simp [RoundTrips.string.plain, plain_toJson filter]

theorem plainItems_toJsonAll (filters : List Filter) : Json.PlainItems (toJsonAll filters) := by
  match filters with
  | [] => trivial
  | f :: rest => exact ⟨plain_toJson f, plainItems_toJsonAll rest⟩

end

theorem roundTrips : RoundTrips toJson ofJson? where
  read_write f := ofJsonWithin_toJson f le_rfl
  plain := plain_toJson

end Filter

/-- **No data form loses anything**: values, attributes, entities, changes, pivots and filters of
any nesting are read from their forms as they were written. -/
theorem forms_roundTrip :
    RoundTrips AttributeValue.toJson AttributeValue.ofJson? ∧
    RoundTrips Attribute.toJson Attribute.ofJson? ∧
    RoundTrips Entity.toJson Entity.ofJson? ∧
    RoundTrips Change.toJson Change.ofJson? ∧
    RoundTrips Pivot.toJson Pivot.ofJson? ∧
    RoundTrips Filter.toJson Filter.ofJson? :=
  ⟨AttributeValue.roundTrips, Attribute.roundTrips, Entity.roundTrips, Change.roundTrips,
    Pivot.roundTrips, Filter.roundTrips⟩

end StoreSync
