import StoreSync.Policy

/-!
# Task configuration

All settings of one synchronization task.  Times are whole seconds.
-/

namespace StoreSync

/-- Kinds of changes that are computed and reported but not applied. -/
structure DryRun where
  create : Bool
  update : Bool
  delete : Bool
  rename : Bool
deriving DecidableEq, Repr

namespace DryRun

def none : DryRun := ⟨false, false, false, false⟩

def all : DryRun := ⟨true, true, true, true⟩

def suppresses (d : DryRun) : Modification → Bool
  | .create => d.create
  | .update => d.update
  | .delete => d.delete
  | .rename => d.rename

def union (a b : DryRun) : DryRun :=
  ⟨a.create || b.create, a.update || b.update, a.delete || b.delete, a.rename || b.rename⟩

def toJson (d : DryRun) : Json :=
  .object [("no_create", .boolean d.create), ("no_update", .boolean d.update),
    ("no_delete", .boolean d.delete), ("no_modrdn", .boolean d.rename)]

def read? {τ : Type} [DataTree τ] (t : τ) : Option DryRun := do
  let r ← Record.open? ["no_create", "no_update", "no_delete", "no_modrdn"] t
  return ⟨← r.defaulted "no_create" false DataTree.flag?,
    ← r.defaulted "no_update" false DataTree.flag?,
    ← r.defaulted "no_delete" false DataTree.flag?,
    ← r.defaulted "no_modrdn" false DataTree.flag?⟩

@[simp] theorem suppresses_union (a b : DryRun) (m : Modification) :
    (a.union b).suppresses m = (a.suppresses m || b.suppresses m) := by
  cases m <;> rfl

end DryRun

/-- The settings of one task. -/
structure TaskConfig where
  name : String
  /-- Number of units that may run at once. -/
  workers : Nat
  timeLimitSeconds : Nat
  /-- Pause after a poll that found nothing. -/
  pollIntervalSeconds : Nat
  /-- How long a forced stop, or a pass out of time, waits for what is running. -/
  stopGraceSeconds : Nat
  /-- The source attribute that is compared with the watermark. -/
  timestampAttribute : String
  dryRun : DryRun
  policy : Policy
  /-- Functions that every expression of the task can call. -/
  library : Option String
deriving DecidableEq

namespace TaskConfig

/-- Defaults for everything but the name. -/
def new (name : String) : TaskConfig :=
  ⟨name, 5, 3600, 5, 5, "modifyTimestamp", .none, .empty, none⟩

/-- Times in milliseconds. -/
def timeLimit (c : TaskConfig) : Nat := c.timeLimitSeconds * 1000

def pollInterval (c : TaskConfig) : Nat := c.pollIntervalSeconds * 1000

def stopGrace (c : TaskConfig) : Nat := c.stopGraceSeconds * 1000

/-- What is wrong with a task configuration. -/
inductive Defect where
  | emptyName
  | noWorkers
  | noTime
  | noPollInterval
  | emptyTimestampAttribute
  | policy (defect : Policy.Defect)
deriving DecidableEq, Repr

def Defect.message (task : String) : Defect → String
  | .emptyName => "task name must not be empty"
  | .noWorkers => inTask "workers must be at least 1"
  | .noTime => inTask "time_limit_secs must be at least 1"
  | .noPollInterval => inTask "poll_interval_secs must be at least 1"
  | .emptyTimestampAttribute => inTask "timestamp_attribute must not be empty"
  | .policy d => inTask d.message
where
  inTask (m : String) : String := "task '" ++ task ++ "': " ++ m

/-- The first defect, if there is one. -/
def defect? (c : TaskConfig) : Option Defect :=
  if Policy.isBlankText c.name then some .emptyName
  else if c.workers = 0 then some .noWorkers
  else if c.timeLimitSeconds = 0 then some .noTime
  else if c.pollIntervalSeconds = 0 then some .noPollInterval
  else if Policy.isBlankText c.timestampAttribute then some .emptyTimestampAttribute
  else c.policy.defect?.map .policy

/-- Refuse a configuration that no pass can start with. -/
def validate (c : TaskConfig) : Except SyncError Unit :=
  match c.defect? with
  | some d => .error (.configuration (d.message c.name))
  | none => .ok ()

/-! ## Data form -/

def toJson (c : TaskConfig) : Json :=
  .object ([("name", .string c.name), ("workers", .ofNat c.workers),
    ("time_limit_secs", .ofNat c.timeLimitSeconds),
    ("poll_interval_secs", .ofNat c.pollIntervalSeconds),
    ("stop_grace_secs", .ofNat c.stopGraceSeconds),
    ("timestamp_attribute", .string c.timestampAttribute), ("dry_run", c.dryRun.toJson),
    ("policy", c.policy.toJson)] ++
    match c.library with
    | some text => [("library", .string text)]
    | none => [])

/-- The names of the fields, in order. -/
def fieldNames : List String :=
  ["name", "workers", "time_limit_secs", "poll_interval_secs", "stop_grace_secs",
    "timestamp_attribute", "dry_run", "policy", "library"]

/-- Read the settings from an opened structure. -/
def ofRecord? {τ : Type} [DataTree τ] (r : Record τ) : Option TaskConfig := do
  let d := new ""
  return ⟨← r.required "name" DataTree.text?,
    ← r.defaulted "workers" d.workers DataTree.natural?,
    ← r.defaulted "time_limit_secs" d.timeLimitSeconds DataTree.natural?,
    ← r.defaulted "poll_interval_secs" d.pollIntervalSeconds DataTree.natural?,
    ← r.defaulted "stop_grace_secs" d.stopGraceSeconds DataTree.natural?,
    ← r.defaulted "timestamp_attribute" d.timestampAttribute DataTree.text?,
    ← r.defaulted "dry_run" d.dryRun DryRun.read?,
    ← r.defaulted "policy" d.policy Policy.read?,
    ← r.optionalDefaulted "library" DataTree.text?⟩

def read? {τ : Type} [DataTree τ] (t : τ) : Option TaskConfig := do
  ofRecord? (← Record.open? fieldNames t)

end TaskConfig

end StoreSync
