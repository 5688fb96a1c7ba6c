import Mathlib.Data.List.DropRight
import Mathlib.Data.List.Nodup
import StoreSync.Proofs.Forms
import StoreSync.TaskConfig

/-!
# Settings as data

The settings of a task are written as data and read again without a loss, as a value and as either
text of it (`TaskConfig.read?_written`).

Two things stand in the way.  A condition is written as a text, and a text is read with its blanks
cut off and with the literals in any case: the form of `.expression " TRUE "` is read as `.always`.
Conditions that were read (`Condition.Parsed`) have no such texts, because cutting blanks off twice
is cutting them off once (`Text.trim_trim`), and they are the only ones that are read again
(`Condition.read?_toJson_iff`).  And a field without content is left out.  The `form` of a structure
lists its fields with what they hold, if anything; `Json.present` writes those that hold something,
and `Record.open?_present` finds them and only them, so that an empty allow-list is a field and an
absent one is none.
-/

namespace StoreSync

/-! ## Blanks -/

namespace Text

lemma trimChars_trimChars (cs : List Char) : trimChars (trimChars cs) = trimChars cs := by
  have hfront : trimChars cs <+: cs.dropWhile isBlank := List.rdropWhile_prefix isBlank _
  -- What is left begins as it did before its end was cut off.
  have hstart : (trimChars cs).dropWhile isBlank = trimChars cs := by
    rw [List.dropWhile_eq_self_iff]
    intro hpos
    rw [hfront.getElem hpos]
    exact List.dropWhile_eq_self_iff.1 (List.dropWhile_idempotent isBlank cs)
      (hpos.trans_le hfront.length_le)
  have hend : trimEndChars (trimChars cs) = trimChars cs :=
    List.rdropWhile_idempotent isBlank _
  show trimEndChars ((trimChars cs).dropWhile isBlank) = trimChars cs
  rw [hstart, hend]

lemma trim_trim (s : String) : trim (trim s) = trim s := by
  rw [trim, trim, String.toList_ofList, trimChars_trimChars]

end Text

/-! ## Conditions -/

namespace Condition

/-- Reading a condition from its text again gives the same condition. -/
lemma ofText_text_ofText (s : String) : ofText (ofText s).text = ofText s := by
  by_cases htrue : Text.sameAsciiFolded (Text.trim s) "true" = true
  · have hs : ofText s = .always := by simp [ofText, htrue]
    rw [hs]
    decide +kernel
  · by_cases hfalse : Text.sameAsciiFolded (Text.trim s) "false" = true
    · have hs : ofText s = .never := by simp [ofText, htrue, hfalse]
      rw [hs]
      decide +kernel
    · have hs : ofText s = .expression (Text.trim s) := by simp [ofText, htrue, hfalse]
      rw [hs]
      simp [text, ofText, Text.trim_trim, htrue, hfalse]

/-- The condition was read, from a text or from a Boolean. -/
def Parsed (c : Condition) : Prop := ∃ j : Json, read? j = some c

lemma parsed_ofText (s : String) : (ofText s).Parsed := ⟨.string s, rfl⟩

lemma parsed_literal (b : Bool) : (if b then always else never).Parsed :=
  ⟨.boolean b, by cases b <;> rfl⟩

/-- What is read is a literal or the condition of a text. -/
lemma Parsed.exists_text {c : Condition} (h : c.Parsed) : ∃ s, ofText s = c := by
  obtain ⟨j, hj⟩ := h
  cases j with
  | boolean b =>
    obtain rfl : (if b then always else never) = c := by cases b <;> exact Option.some.inj hj
    exact ⟨if b then "true" else "false", by cases b <;> decide +kernel⟩
  | string s => exact ⟨s, Option.some.inj hj⟩
  | null | number _ | array _ | members _ => cases hj

/-- Exactly the conditions that were read are read again as they were. -/
lemma read?_toJson_iff {c : Condition} : read? c.toJson = some c ↔ c.Parsed := by
  constructor
  · intro h
    exact ⟨c.toJson, h⟩
  · intro h
    obtain ⟨s, rfl⟩ := h.exists_text
    exact congrArg some (ofText_text_ofText s)

/-- A text that looks like a literal is read as one, blanks or not. -/
example : read? (expression " TRUE ").toJson = some always := by decide +kernel

end Condition

/-! ## Fields of one value -/

namespace Json

lemma depth_ofStrings (texts : List String) : (ofStrings texts).depth ≤ 2 := by
  have hitems : depthItems (texts.map .string) ≤ 1 := by
    rw [depthItems_le_iff]
    simp [depth]
  rw [ofStrings, depth]
  omega

/-- Numbers of 64 bits are plain. -/
lemma plain_ofNat {n : Nat} (h : n < 2 ^ 64) : (ofNat n).Plain := by
  simp only [ofNat, ofInt, Plain]
  omega

end Json

namespace RoundTrips

lemma texts : RoundTrips Json.ofStrings (DataTree.texts? : Json → Option (List String)) :=
  string.list

end RoundTrips

/-! ## Fields that may be left out -/

namespace Json

/-- The members that are there, of fields that may be left out. -/
def present (fields : List (String × Option Json)) : List (String × Json) :=
  fields.filterMap fun f => f.2.map (f.1, ·)

variable {fields : List (String × Option Json)}

lemma mem_present {f : String × Json} : f ∈ present fields ↔ (f.1, some f.2) ∈ fields := by
  simp only [present, List.mem_filterMap, Option.map_eq_some_iff]
  constructor
  · rintro ⟨⟨name, value⟩, hmem, j, rfl, rfl⟩
    exact hmem
  · intro hmem
    exact ⟨_, hmem, f.2, rfl, rfl⟩

lemma nodup_present (hdistinct : (fields.map (·.1)).Nodup) :
    ((present fields).map (·.1)).Nodup := by
  refine hdistinct.sublist ?_
  induction fields with
  | nil => exact List.Sublist.slnil
  | cons f rest ih =>
    obtain ⟨name, value⟩ := f
    have hrest := ih (List.nodup_cons.1 hdistinct).2
    cases value with
    | none => exact hrest.cons _
    | some j => exact hrest.cons_cons _

lemma lookup_present (hdistinct : (fields.map (·.1)).Nodup) {name : String} {o : Option Json}
    (hmem : (name, o) ∈ fields) : (present fields).lookup name = o := by
  have hone : ∀ o', (name, o') ∈ fields → o' = o := fun o' hmem' =>
    congrArg Prod.snd (List.inj_on_of_nodup_map hdistinct hmem' hmem rfl)
  refine Option.ext fun j => ?_
  rw [TextMap.lookup_eq_some_iff (nodup_present hdistinct), mem_present]
  exact ⟨fun hj => (hone _ hj).symm, fun hj => hj ▸ hmem⟩

lemma plain_present (hdistinct : (fields.map (·.1)).Nodup)
    (h : ∀ f ∈ fields, ∀ j ∈ f.2, j.Plain) : (object (present fields)).Plain :=
  plain_object (nodup_present hdistinct) fun f hf => h _ (mem_present.1 hf) f.2 rfl

lemma depth_present_le (hdistinct : (fields.map (·.1)).Nodup) {n : Nat}
    (h : ∀ f ∈ fields, ∀ j ∈ f.2, j.depth ≤ n) : (object (present fields)).depth ≤ n + 1 :=
  (depth_object_le_iff (nodup_present hdistinct)).2 fun f hf => h _ (mem_present.1 hf) f.2 rfl

end Json

namespace Record

/-- A structure is opened at its form, and finds there what is present. -/
lemma open?_present {fields : List (String × Option Json)} (names : List String)
    (hnames : fields.map (·.1) = names) (hdistinct : names.Nodup) :
    ∃ r, open? names (Json.object (Json.present fields)) = some r ∧
      ∀ name o, (name, o) ∈ fields → r.fields.lookup name = o := by
  subst hnames
  obtain ⟨r, hopen, hlookup⟩ :=
    open?_object (fields.map (·.1)) (Json.present fields) (Json.nodup_present hdistinct)
  refine ⟨r, hopen, fun name o hmem => ?_⟩
  rw [hlookup name (List.mem_map_of_mem hmem), Json.lookup_present hdistinct hmem]

/-- A list of texts that has a field only if it has an item. -/
lemma defaulted_texts_of_lookup {r : Record Json} {name : String} {texts : List String}
    (h : r.fields.lookup name = if texts.isEmpty then none else some (.ofStrings texts)) :
    r.defaulted name [] DataTree.texts? = some texts := by
  cases texts with
  | nil => exact defaulted_of_lookup_eq_none h
  | cons text rest => exact defaulted_of_lookup h (RoundTrips.texts.read_write _)

end Record

/-! ## Policies -/

lemma AttributeStatus.roundTrips :
    RoundTrips toJson (read? : Json → Option AttributeStatus) where
  read_write s := by cases s <;> decide
  plain s := by simp [toJson, Json.Plain]

namespace IdentifierRule

def form (r : IdentifierRule) : List (String × Option Json) :=
  [("expression", r.expression.map .string), ("unique_attribute", r.uniqueAttribute.map .string),
    ("base", r.base.map .string)]

lemma toJson_eq (r : IdentifierRule) : r.toJson = .object (Json.present r.form) := by
  obtain ⟨expression, unique, base⟩ := r
  cases expression <;> cases unique <;> cases base <;> rfl

lemma roundTrips : RoundTrips toJson (read? : Json → Option IdentifierRule) where
  read_write r := by
    obtain ⟨opened, hopen, hlookup⟩ := Record.open?_present
      ["expression", "unique_attribute", "base"] (show r.form.map (·.1) = _ from rfl) (by decide)
    have hexpression : opened.optionalDefaulted "expression" DataTree.text? =
        some r.expression :=
      Record.optionalDefaulted_of_lookup
        (hlookup _ (r.expression.map .string) (by simp [form])) fun _ => rfl
    have hunique : opened.optionalDefaulted "unique_attribute" DataTree.text? =
        some r.uniqueAttribute :=
      Record.optionalDefaulted_of_lookup
        (hlookup _ (r.uniqueAttribute.map .string) (by simp [form])) fun _ => rfl
    have hbase : opened.optionalDefaulted "base" DataTree.text? = some r.base :=
      Record.optionalDefaulted_of_lookup
        (hlookup _ (r.base.map .string) (by simp [form])) fun _ => rfl
    rw [← toJson_eq] at hopen
    simp [read?, hopen, hexpression, hunique, hbase]
  plain r := by
    rw [toJson_eq]
    refine Json.plain_present (by simp [form]) ?_
    simp [form, RoundTrips.string.plain]

lemma depth_toJson_le (r : IdentifierRule) : r.toJson.depth ≤ 2 := by
  rw [toJson_eq]
  refine Json.depth_present_le (by simp [form]) ?_
  simp [form, Json.depth]

end IdentifierRule

namespace AttributePolicy

def form (p : AttributePolicy) : List (String × Option Json) :=
  [("status", p.status.map AttributeStatus.toJson),
    ("default_values", if p.defaultValues.isEmpty then none else some (.ofStrings p.defaultValues)),
    ("force_values", if p.forceValues.isEmpty then none else some (.ofStrings p.forceValues)),
    ("create_values", if p.createValues.isEmpty then none else some (.ofStrings p.createValues))]

lemma toJson_eq (p : AttributePolicy) : p.toJson = .object (Json.present p.form) := by
  obtain ⟨status, defaults, forced, created⟩ := p
  cases status <;> cases defaults <;> cases forced <;> cases created <;> rfl

lemma roundTrips : RoundTrips toJson (read? : Json → Option AttributePolicy) where
  read_write p := by
    obtain ⟨opened, hopen, hlookup⟩ := Record.open?_present
      ["status", "default_values", "force_values", "create_values"]
      (show p.form.map (·.1) = _ from rfl) (by decide)
    have hstatus : opened.optionalDefaulted "status" AttributeStatus.read? = some p.status :=
      Record.optionalDefaulted_of_lookup
        (hlookup _ (p.status.map AttributeStatus.toJson) (by simp [form]))
        fun s => by cases s <;> decide
    have hdefaults : opened.defaulted "default_values" [] DataTree.texts? =
        some p.defaultValues :=
      Record.defaulted_texts_of_lookup (hlookup _ _ (by simp [form]))
    have hforced : opened.defaulted "force_values" [] DataTree.texts? = some p.forceValues :=
      Record.defaulted_texts_of_lookup (hlookup _ _ (by simp [form]))
    have hcreated : opened.defaulted "create_values" [] DataTree.texts? = some p.createValues :=
      Record.defaulted_texts_of_lookup (hlookup _ _ (by simp [form]))
    rw [← toJson_eq] at hopen
    simp [read?, hopen, hstatus, hdefaults, hforced, hcreated]
  plain p := by
    rw [toJson_eq]
    refine Json.plain_present (by simp [form]) ?_
    simp [form, RoundTrips.texts.plain, AttributeStatus.roundTrips.plain]

lemma depth_toJson_le (p : AttributePolicy) : p.toJson.depth ≤ 3 := by
  rw [toJson_eq]
  refine Json.depth_present_le (by simp [form]) ?_
  simp [form, Json.depth_ofStrings, AttributeStatus.toJson, Json.depth]

end AttributePolicy

namespace Conditions

/-- The conditions are as they are read. -/
def Parsed (c : Conditions) : Prop := ∀ m, (c.of m).Parsed

def form (c : Conditions) : List (String × Option Json) :=
  Modification.all.map fun m => (m.name, some (c.of m).toJson)

lemma toJson_eq (c : Conditions) : c.toJson = .object (Json.present c.form) := rfl

lemma read?_toJson {c : Conditions} (h : c.Parsed) : read? c.toJson = some c := by
  obtain ⟨opened, hopen, hlookup⟩ := Record.open?_present ["create", "update", "delete", "rename"]
    (show c.form.map (·.1) = _ from rfl) (by decide)
  have hfield : ∀ m : Modification,
      opened.defaulted m.name .always Condition.read? = some (c.of m) := by
    intro m
    have hmem : (m.name, some (c.of m).toJson) ∈ c.form :=
      List.mem_map_of_mem (by cases m <;> decide)
    exact Record.defaulted_of_lookup (hlookup _ _ hmem) (Condition.read?_toJson_iff.2 (h m))
  have hcreate : opened.defaulted "create" .always Condition.read? = some c.create :=
    hfield .create
  have hupdate : opened.defaulted "update" .always Condition.read? = some c.update :=
    hfield .update
  have hdelete : opened.defaulted "delete" .always Condition.read? = some c.delete :=
    hfield .delete
  have hrename : opened.defaulted "rename" .always Condition.read? = some c.rename :=
    hfield .rename
  rw [← toJson_eq] at hopen
  simp [read?, hopen, hcreate, hupdate, hdelete, hrename]

lemma nodup_form (c : Conditions) : (c.form.map (·.1)).Nodup := by
  show ["create", "update", "delete", "rename"].Nodup
  decide

lemma plain_toJson (c : Conditions) : c.toJson.Plain := by
  rw [toJson_eq]
  refine Json.plain_present c.nodup_form ?_
  simp [form, Condition.toJson, Json.Plain]

lemma depth_toJson_le (c : Conditions) : c.toJson.depth ≤ 2 := by
  rw [toJson_eq]
  refine Json.depth_present_le c.nodup_form ?_
  simp [form, Condition.toJson, Json.depth]

end Conditions

namespace Policy

def form (p : Policy) : List (String × Option Json) :=
  [("default_status", some p.defaultStatus.toJson),
    ("attributes", some (.object (p.attributes.entries.map fun e => (e.1, e.2.toJson)))),
    ("conditions", some p.conditions.toJson), ("identifier", some p.identifier.toJson),
    ("write_attributes", p.writeAttributes.map .ofStrings)]

lemma toJson_eq (p : Policy) : p.toJson = .object (Json.present p.form) := by
  obtain ⟨status, attributes, conditions, identifier, allowed⟩ := p
  cases allowed <;> rfl

lemma read?_toJson {p : Policy} (h : p.conditions.Parsed) : read? p.toJson = some p := by
  obtain ⟨opened, hopen, hlookup⟩ := Record.open?_present
    ["default_status", "attributes", "conditions", "identifier", "write_attributes"]
    (show p.form.map (·.1) = _ from rfl) (by decide)
  have hstatus : opened.defaulted "default_status" .force AttributeStatus.read? =
      some p.defaultStatus :=
    Record.defaulted_of_lookup (hlookup _ _ (by simp [form]))
      (AttributeStatus.roundTrips.read_write _)
  have hattributes : opened.defaulted "attributes" ∅ (DataTree.map? AttributePolicy.read?) =
      some p.attributes :=
    Record.defaulted_of_lookup (hlookup _ _ (by simp [form]))
      (AttributePolicy.roundTrips.map.read_write _)
  have hconditions : opened.defaulted "conditions" .always Conditions.read? =
      some p.conditions :=
    Record.defaulted_of_lookup (hlookup _ _ (by simp [form])) (Conditions.read?_toJson h)
  have hidentifier : opened.defaulted "identifier" .empty IdentifierRule.read? =
      some p.identifier :=
    Record.defaulted_of_lookup (hlookup _ _ (by simp [form]))
      (IdentifierRule.roundTrips.read_write _)
  have hallowed : opened.optionalDefaulted "write_attributes" DataTree.texts? =
      some p.writeAttributes :=
    Record.optionalDefaulted_of_lookup
      (hlookup _ (p.writeAttributes.map .ofStrings) (by simp [form]))
      fun names => congrArg (Option.map some) (RoundTrips.texts.read_write names)
  rw [← toJson_eq] at hopen
  simp [read?, hopen, hstatus, hattributes, hconditions, hidentifier, hallowed]

lemma plain_toJson (p : Policy) : p.toJson.Plain := by
  rw [toJson_eq]
  refine Json.plain_present (by simp [form]) ?_
  simp [form, AttributeStatus.roundTrips.plain, AttributePolicy.roundTrips.map.plain p.attributes,
    p.conditions.plain_toJson, IdentifierRule.roundTrips.plain, RoundTrips.texts.plain]

lemma depth_toJson_le (p : Policy) : p.toJson.depth ≤ 5 := by
  have hattributes :
      (Json.object (p.attributes.entries.map fun e => (e.1, e.2.toJson))).depth ≤ 4 := by
    refine (Json.depth_object_le_iff ?_).2 fun f hf => ?_
    · rw [List.map_map]
      exact p.attributes.nodup_keys
    · obtain ⟨e, -, rfl⟩ := List.mem_map.1 hf
      exact e.2.depth_toJson_le
  have hconditions := p.conditions.depth_toJson_le
  have hidentifier := p.identifier.depth_toJson_le
  have hallowed : ∀ names, (Json.ofStrings names).depth ≤ 4 := fun names =>
    (Json.depth_ofStrings names).trans (by omega)
  rw [toJson_eq]
  refine Json.depth_present_le (by simp [form]) ?_
  simp only [form, List.forall_mem_cons, Option.mem_def, Option.some.injEq, forall_eq',
    AttributeStatus.toJson, Json.depth, hattributes, Option.map_eq_some_iff]
  refine ⟨by omega, trivial, by omega, by omega, ?_, by simp⟩
  rintro _ ⟨names, -, rfl⟩
  exact hallowed names

end Policy

/-! ## Tasks -/

namespace DryRun

def form (d : DryRun) : List (String × Json) :=
  [("no_create", .boolean d.create), ("no_update", .boolean d.update),
    ("no_delete", .boolean d.delete), ("no_modrdn", .boolean d.rename)]

lemma roundTrips : RoundTrips toJson (read? : Json → Option DryRun) where
  read_write d := by
    obtain ⟨opened, hopen, hlookup⟩ := Record.open?_object
      ["no_create", "no_update", "no_delete", "no_modrdn"] d.form (by simp [form])
    have hcreate : opened.defaulted "no_create" false DataTree.flag? = some d.create :=
      Record.defaulted_of_lookup (hlookup _ (by simp)) rfl
    have hupdate : opened.defaulted "no_update" false DataTree.flag? = some d.update :=
      Record.defaulted_of_lookup (hlookup _ (by simp)) rfl
    have hdelete : opened.defaulted "no_delete" false DataTree.flag? = some d.delete :=
      Record.defaulted_of_lookup (hlookup _ (by simp)) rfl
    have hrename : opened.defaulted "no_modrdn" false DataTree.flag? = some d.rename :=
      Record.defaulted_of_lookup (hlookup _ (by simp)) rfl
    have hform : d.toJson = .object d.form := rfl
    simp [hform, read?, hopen, hcreate, hupdate, hdelete, hrename]
  plain d := Json.plain_object (by simp) (by simp [Json.Plain])

lemma depth_toJson_le (d : DryRun) : d.toJson.depth ≤ 2 :=
  (Json.depth_object_le_iff (by simp)).2 (by simp [Json.depth])

end DryRun

namespace TaskConfig

/-- The numbers have 64 bits. -/
structure Fits (c : TaskConfig) : Prop where
  workers : c.workers < 2 ^ 64
  timeLimit : c.timeLimitSeconds < 2 ^ 64
  pollInterval : c.pollIntervalSeconds < 2 ^ 64
  stopGrace : c.stopGraceSeconds < 2 ^ 64

def form (c : TaskConfig) : List (String × Option Json) :=
  [("name", some (.string c.name)), ("workers", some (.ofNat c.workers)),
    ("time_limit_secs", some (.ofNat c.timeLimitSeconds)),
    ("poll_interval_secs", some (.ofNat c.pollIntervalSeconds)),
    ("stop_grace_secs", some (.ofNat c.stopGraceSeconds)),
    ("timestamp_attribute", some (.string c.timestampAttribute)),
    ("dry_run", some c.dryRun.toJson), ("policy", some c.policy.toJson),
    ("library", c.library.map .string)]

lemma toJson_eq (c : TaskConfig) : c.toJson = .object (Json.present c.form) := by
  obtain ⟨name, workers, limit, poll, grace, timestamp, dryRun, policy, library⟩ := c
  cases library <;> rfl

lemma read?_toJson {c : TaskConfig} (h : c.policy.conditions.Parsed) :
    read? c.toJson = some c := by
  obtain ⟨opened, hopen, hlookup⟩ := Record.open?_present fieldNames
    (show c.form.map (·.1) = _ from rfl) (by decide)
  have hname : opened.required "name" DataTree.text? = some c.name :=
    Record.required_of_lookup (hlookup _ (some (.string c.name)) (by simp [form])) rfl
  have hworkers : opened.defaulted "workers" (new "").workers DataTree.natural? =
      some c.workers :=
    Record.defaulted_of_lookup (hlookup _ (some (.ofNat c.workers)) (by simp [form])) rfl
  have hlimit : opened.defaulted "time_limit_secs" (new "").timeLimitSeconds DataTree.natural? =
      some c.timeLimitSeconds :=
    Record.defaulted_of_lookup (hlookup _ (some (.ofNat c.timeLimitSeconds)) (by simp [form])) rfl
  have hpoll : opened.defaulted "poll_interval_secs" (new "").pollIntervalSeconds
      DataTree.natural? = some c.pollIntervalSeconds :=
    Record.defaulted_of_lookup (hlookup _ (some (.ofNat c.pollIntervalSeconds))
      (by simp [form])) rfl
  have hgrace : opened.defaulted "stop_grace_secs" (new "").stopGraceSeconds DataTree.natural? =
      some c.stopGraceSeconds :=
    Record.defaulted_of_lookup (hlookup _ (some (.ofNat c.stopGraceSeconds)) (by simp [form])) rfl
  have htimestamp : opened.defaulted "timestamp_attribute" (new "").timestampAttribute
      DataTree.text? = some c.timestampAttribute :=
    Record.defaulted_of_lookup (hlookup _ (some (.string c.timestampAttribute))
      (by simp [form])) rfl
  have hdryRun : opened.defaulted "dry_run" (new "").dryRun DryRun.read? = some c.dryRun :=
    Record.defaulted_of_lookup (hlookup _ _ (by simp [form])) (DryRun.roundTrips.read_write _)
  have hpolicy : opened.defaulted "policy" (new "").policy Policy.read? = some c.policy :=
    Record.defaulted_of_lookup (hlookup _ _ (by simp [form])) (Policy.read?_toJson h)
  have hlibrary : opened.optionalDefaulted "library" DataTree.text? = some c.library :=
    Record.optionalDefaulted_of_lookup (hlookup _ (c.library.map .string) (by simp [form]))
      fun _ => rfl
  rw [← toJson_eq] at hopen
  simp [read?, ofRecord?, hopen, hname, hworkers, hlimit, hpoll, hgrace, htimestamp, hdryRun,
    hpolicy, hlibrary]

lemma plain_toJson {c : TaskConfig} (h : c.Fits) : c.toJson.Plain := by
  rw [toJson_eq]
  refine Json.plain_present (by simp [form]) ?_
  simp [form, RoundTrips.string.plain, Json.plain_ofNat h.workers, Json.plain_ofNat h.timeLimit,
    Json.plain_ofNat h.pollInterval, Json.plain_ofNat h.stopGrace, DryRun.roundTrips.plain,
    c.policy.plain_toJson]

lemma depth_toJson_le (c : TaskConfig) : c.toJson.depth ≤ 6 := by
  have hdryRun := c.dryRun.depth_toJson_le
  have hpolicy := c.policy.depth_toJson_le
  rw [toJson_eq]
  refine Json.depth_present_le (by simp [form]) ?_
  simp [form, Json.ofNat, Json.ofInt, Json.depth]
  omega

/-- What a pass asks of its settings is answered alike. -/
structure SameAnswers (c c' : TaskConfig) : Prop where
  validate : c.validate = c'.validate
  statusOf : ∀ name, c.policy.statusOf name = c'.policy.statusOf name
  writeScope : ∀ source, c.policy.writeScope source = c'.policy.writeScope source
  expressions : c.policy.expressions = c'.policy.expressions
  qualify : ∀ relative, c.policy.identifier.qualify relative = c'.policy.identifier.qualify relative

lemma SameAnswers.refl (c : TaskConfig) : c.SameAnswers c :=
  ⟨rfl, fun _ => rfl, fun _ => rfl, rfl, fun _ => rfl⟩

/-- **Settings are read as they were written**, from their form and from the texts of it, if their
conditions were read and their numbers have 64 bits. -/
theorem read?_written {c : TaskConfig} (hparsed : c.policy.conditions.Parsed) (hfits : c.Fits) :
    ∃ c', read? c.toJson = some c' ∧
      (∀ text ∈ [c.toJson.compact, c.toJson.pretty], (Json.parse? text).bind read? = some c') ∧
      c' = c ∧ c'.SameAnswers c := by
  have hread := read?_toJson hparsed
  have hdepth : c.toJson.depth ≤ Json.depthLimit := c.depth_toJson_le.trans (by decide)
  have hcompact := Json.parse?_compact c.toJson (plain_toJson hfits) hdepth
  have hpretty := Json.parse?_pretty c.toJson (plain_toJson hfits) hdepth
  refine ⟨c, hread, ?_, rfl, .refl c⟩
  simp [hcompact, hpretty, hread]

/-- Settings with all numbers at their limits, conditions from all kinds of texts, and an allow-list
that allows nothing. -/
def locked : TaskConfig where
  name := "people"
  workers := 2 ^ 64 - 1
  timeLimitSeconds := 2 ^ 64 - 1
  pollIntervalSeconds := 2 ^ 64 - 1
  stopGraceSeconds := 0
  timestampAttribute := "whenChanged"
  dryRun := ⟨false, true, false, true⟩
  policy :=
    { defaultStatus := .merge
      attributes := TextMap.ofList
        [("mail", ⟨some .force, ["source.uid + \"@x\""], [], [""]⟩), ("", ⟨none, [], [], []⟩)]
      conditions := ⟨.ofText "\tTRUE ", .ofText "false", .ofText " destination.uid != () ", .always⟩
      identifier := ⟨none, some "uid", some ""⟩
      writeAttributes := some [] }
  library := some ""

lemma parsed_locked : locked.policy.conditions.Parsed := by
  intro m
  cases m with
  | create => exact Condition.parsed_ofText "\tTRUE "
  | update => exact Condition.parsed_ofText "false"
  | delete => exact Condition.parsed_ofText " destination.uid != () "
  | rename => exact Condition.parsed_literal true

lemma fits_locked : locked.Fits := by
  constructor <;> simp [locked]

theorem read?_written_locked :
    locked.policy.conditions.Parsed ∧ locked.Fits ∧
    (∃ c', read? locked.toJson = some c' ∧
      (∀ text ∈ [locked.toJson.compact, locked.toJson.pretty],
        (Json.parse? text).bind read? = some c') ∧
      c' = locked ∧ c'.SameAnswers locked) ∧
    locked.policy.writeAttributes = some [] ∧
    locked.policy.conditions.create = .always ∧
    locked.policy.conditions.delete = .expression "destination.uid != ()" :=
  ⟨parsed_locked, fits_locked, read?_written parsed_locked fits_locked, rfl, by decide +kernel,
    by decide +kernel⟩

end TaskConfig

end StoreSync
