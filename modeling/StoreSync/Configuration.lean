import StoreSync.Command.Error
import StoreSync.Files.Path
import StoreSync.Schema
import StoreSync.TaskConfig
import StoreSync.Yaml.Parser

/-!
# Configurations

A configuration names stores, which are kept in files, and the tasks between them.  It is read
from a data value or from a configuration file.
-/

namespace StoreSync

/-- A store that is kept in a file. -/
structure StoreFile where
  /-- The data file, within the directory of the configuration. -/
  path : String
  pivotAttribute : String
  timestampAttribute : String
  changeFeed : Bool
  schema : EntitySchema
deriving DecidableEq, Repr

namespace StoreFile

def toJson (f : StoreFile) : Json :=
  .object [("json_file", .string f.path), ("pivot_attribute", .string f.pivotAttribute),
    ("timestamp_attribute", .string f.timestampAttribute),
    ("change_feed", .boolean f.changeFeed), ("schema", f.schema.toJson)]

def read? {τ : Type} [DataTree τ] (t : τ) : Option StoreFile := do
  let r ← Record.open? ["json_file", "pivot_attribute", "timestamp_attribute", "change_feed",
    "schema"] t
  return ⟨← r.required "json_file" DataTree.text?, ← r.required "pivot_attribute" DataTree.text?,
    ← r.defaulted "timestamp_attribute" "modifyTimestamp" DataTree.text?,
    ← r.defaulted "change_feed" true DataTree.flag?, ← r.required "schema" EntitySchema.read?⟩

end StoreFile

/-- A task and the names of the stores it runs between. -/
structure TaskEntry where
  source : String
  destination : String
  task : TaskConfig
deriving DecidableEq

namespace TaskEntry

def name (e : TaskEntry) : String := e.task.name

/-- The stores stand among the settings of the task. -/
def toJson (e : TaskEntry) : Json :=
  match e.task.toJson with
  | .members fields =>
    .object ([("source", .string e.source), ("destination", .string e.destination)] ++ fields)
  | j => j

/-- Read an entry, which must be a mapping.  The words in the settings of the task are taken for
what they stand for. -/
def read? {τ υ : Type} [DataTree τ] [DataTree υ] (typed : τ → υ) (t : τ) : Option TaskEntry := do
  let members ← DataTree.members? t
  let ends ← (members.filter fun m => m.1 = "source" ∨ m.1 = "destination") |> distinct
  let settings ← (members.filter fun m => TaskConfig.fieldNames.contains m.1) |> distinct
  return ⟨← ends.required "source" DataTree.text?, ← ends.required "destination" DataTree.text?,
    ← TaskConfig.ofRecord? ⟨settings.fields.map fun m => (m.1, typed m.2), true⟩⟩
where
  distinct {τ : Type} (fields : List (String × τ)) : Option (Record τ) :=
    if Record.distinctNames fields then some ⟨fields, true⟩ else none

end TaskEntry

/-- Stores and tasks. -/
structure Configuration where
  stores : TextMap StoreFile
  tasks : List TaskEntry
  /-- The directory in which the paths of store files are meant. -/
  directory : String
deriving DecidableEq

namespace Configuration

/-! ## Data form -/

def toJson (c : Configuration) : Json :=
  .object [("stores", .members (c.stores.map StoreFile.toJson).entries),
    ("tasks", .array (c.tasks.map TaskEntry.toJson))]

def readWith? {τ υ : Type} [DataTree τ] [DataTree υ] (typed : τ → υ) (directory : String)
    (t : τ) : Option Configuration := do
  let r ← Record.open? ["stores", "tasks"] t
  return ⟨← r.defaulted "stores" ∅ (DataTree.map? StoreFile.read?),
    ← r.defaulted "tasks" [] (DataTree.list? (TaskEntry.read? typed)), directory⟩

/-- Read a configuration from a data value. -/
def ofJson? (directory : String) (j : Json) : Option Configuration := readWith? id directory j

/-- Read a configuration from the text of a configuration file. -/
def parse? (directory : String) (text : String) : Option Configuration := do
  readWith? Yaml.TypedNode.mk directory (← Yaml.parse? text)

/-! ## Validity -/

/-- The name that selects every task. -/
def everyTask : String := "all"

/-- What is wrong with a configuration. -/
inductive Defect where
  | reservedName
  | repeatedName (task : String)
  | unknownStore (task store : String)
  | oneStore (task store : String)
  | noPivotAttribute (store : String)
deriving DecidableEq, Repr

def Defect.message : Defect → String
  | .reservedName => "'" ++ everyTask ++ "' is reserved and cannot name a task"
  | .repeatedName task => "task '" ++ task ++ "' is defined twice"
  | .unknownStore task store => "task '" ++ task ++ "' references unknown store '" ++ store ++ "'"
  | .oneStore task store =>
    "task '" ++ task ++ "' uses '" ++ store ++ "' as both source and destination"
  | .noPivotAttribute store => "store '" ++ store ++ "' has no pivot_attribute"

/-- The first defect of an entry, given the names of the entries before it. -/
def entryDefect? (c : Configuration) (before : List String) (e : TaskEntry) : Option Defect :=
  if Text.sameAsciiFolded e.name everyTask then some .reservedName
  else if before.any (Text.sameAsciiFolded e.name) then some (.repeatedName e.name)
  else if !c.stores.contains e.source then some (.unknownStore e.name e.source)
  else if !c.stores.contains e.destination then some (.unknownStore e.name e.destination)
  else if e.source = e.destination then some (.oneStore e.name e.source)
  else none

/-- Check entries one after the other. -/
def validateEntries (c : Configuration) (before : List String) :
    List TaskEntry → Except CommandError Unit
  | [] => .ok ()
  | e :: rest =>
    match c.entryDefect? before e with
    | some d => .error (.configuration d.message)
    | none => do
      e.task.validate.mapError .sync
      c.validateEntries (e.name :: before) rest

/-- Check every task, then every store. -/
def validate (c : Configuration) : Except CommandError Unit := do
  c.validateEntries [] c.tasks
  match c.stores.entries.find? fun e => Policy.isBlankText e.2.pivotAttribute with
  | some (name, _) => throw (.configuration (Defect.noPivotAttribute name).message)
  | none => return

/-! ## Selection -/

/-- The tasks with the requested names, in any case, in the order of the configuration.  Every
name must match. -/
def select (c : Configuration) (requested : List String) : Except CommandError (List TaskEntry) :=
  if requested.any (Text.sameAsciiFolded · everyTask) then
    if c.tasks.isEmpty then .error (.noSuchTask everyTask) else .ok c.tasks
  else
    match requested.find? fun r => !c.tasks.any (Text.sameAsciiFolded ·.name r) with
    | some name => .error (.noSuchTask name)
    | none => .ok (c.tasks.filter fun e => requested.any (Text.sameAsciiFolded e.name))

/-- The path of a store's file. -/
def storePath (c : Configuration) (f : StoreFile) : String := Path.join c.directory f.path

end Configuration

end StoreSync
