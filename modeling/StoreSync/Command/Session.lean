import StoreSync.Command.Summary
import StoreSync.Configuration
import StoreSync.Files.Host
import StoreSync.Json.Parser
import StoreSync.Json.Printer
import StoreSync.PollingGroup

/-!
# Sessions

A session holds the stores of a configuration, each loaded from its file, and runs tasks between
them.  After every pass the store that was the destination is saved.  A failure ends the session;
what was saved before it stays.
-/

namespace StoreSync

/-- Settings that go before those of every task. -/
structure Overrides where
  dryRun : DryRun
  workers : Option Nat
  timeLimitSeconds : Option Nat
deriving DecidableEq, Repr

/-- The settings of a task under overrides. -/
def TaskConfig.under (o : Overrides) (c : TaskConfig) : TaskConfig :=
  { c with
    dryRun := c.dryRun.union o.dryRun
    workers := o.workers.getD c.workers
    timeLimitSeconds := o.timeLimitSeconds.getD c.timeLimitSeconds }

/-- Stores by name. -/
abbrev Stores := TextMap MemoryStore

/-- A configuration with its stores. -/
structure Session where
  configuration : Configuration
  overrides : Overrides
  stores : Stores

namespace Session

/-! ## Tasks -/

/-- The adapter of one store among several. -/
def adapter (name : String) (f : StoreFile) : Adapter Stores :=
  (MemoryStore.adapter name f.changeFeed).within
    (fun stores => (stores.get? name).getD (.new name f.pivotAttribute))
    (fun store stores => stores.insert name store)

/-- The store of a name. -/
def lookup (s : Session) (name : String) : Except CommandError (Adapter Stores) :=
  match s.configuration.stores.get? name with
  | some f => .ok (adapter name f)
  | none => .error (unknownStore name)
where
  unknownStore (name : String) : CommandError :=
    .configuration ("unknown store '" ++ name ++ "'")

/-- The task of an entry.  The source decides which attribute carries the time of a change. -/
def task (s : Session) (e : TaskEntry) : Except CommandError (Task Stores) := do
  let config := e.task.under s.overrides
  let config := match s.configuration.stores.get? e.source with
    | some f => { config with timestampAttribute := f.timestampAttribute }
    | none => config
  let source ← s.lookup e.source
  let destination ← s.lookup e.destination
  (Task.new config source destination).mapError .sync

/-! ## Files -/

variable {m : Type → Type} [Monad m] [Host m]

/-- Load a store.  Where nothing is at its path it is empty. -/
def loadStore (c : Configuration) (name : String) (f : StoreFile) :
    ExceptT CommandError m MemoryStore := do
  let fresh : MemoryStore :=
    { MemoryStore.new name f.pivotAttribute with
      timestampAttribute := f.timestampAttribute, changeFeed := f.changeFeed }
  let path := c.storePath f
  if ← Host.isPresent (m := m) path then
    match ← Host.readFile (m := m) path with
    | .error e => throw (.store name (.io e.message))
    | .ok text =>
      let now ← Host.now (m := m)
      match fresh.load f.schema now (Json.parse? text) with
      | (store, .ok _) => return store
      | (_, .error e) => throw (.store name e)
  else return fresh

/-- Load stores one after the other. -/
def loadStores (c : Configuration) :
    List (String × StoreFile) → ExceptT CommandError m Stores
  | [] => return ∅
  | (name, f) :: rest => do
    let store ← loadStore c name f
    return (← loadStores c rest).insert name store

/-- Begin a session. -/
def begin (c : Configuration) (o : Overrides) : ExceptT CommandError m Session := do
  return ⟨c, o, ← loadStores c c.stores.entries⟩

/-- Save a store. -/
def save (s : Session) (name : String) : ExceptT CommandError m Unit := do
  match s.stores.get? name, s.configuration.stores.get? name with
  | some store, some f =>
    let text := (store.toRecords f.schema).pretty
    match ← Host.writeFile (m := m) (s.configuration.storePath f) text with
    | .ok () => return
    | .error e => throw (.store name (.io e.message))
  | _, _ => throw (lookup.unknownStore name)

/-! ## Passes -/

/-- Run one pass and save its destination. -/
def runPass (pass : Task Stores → Timed (Engine Stores) → PassReport × Timed (Engine Stores))
    (s : Session) (e : TaskEntry) : ExceptT CommandError m (PassRun × Session) := do
  let t ← s.task e
  let name ← Host.newRunName (m := m)
  let began ← Host.now (m := m)
  let (report, engine) := pass t ⟨0, .new s.stores began⟩
  let ended ← Host.now (m := m)
  let s := { s with stores := engine.state.world.stores }
  s.save e.destination
  let taken := (ended.milliseconds - began.milliseconds).toNat
  return (⟨name, began, { report with duration := report.duration + taken }⟩, s)

/-- Run one pass after the other. -/
def runEach (pass : Task Stores → Timed (Engine Stores) → PassReport × Timed (Engine Stores))
    (s : Session) : List TaskEntry → ExceptT CommandError m (List PassRun × Session)
  | [] => return ([], s)
  | e :: rest => do
    let (run, s) ← s.runPass pass e
    let (runs, s) ← s.runEach pass rest
    return (run :: runs, s)

/-- The tasks that are asked for, of which there may be none. -/
def selected (s : Session) (requested : List String) : Except CommandError (List TaskEntry) :=
  if requested.isEmpty then .ok [] else s.configuration.select requested

/-- Run the requested full passes, then the requested clean passes. -/
def run (s : Session) (synchronization cleaning : List String) :
    ExceptT CommandError m (List PassRun × Session) := do
  let full ← s.selected synchronization
  let clean ← s.selected cleaning
  let (runs, s) ← s.runEach Engine.sync full
  let (more, s) ← s.runEach Engine.clean clean
  return (runs ++ more, s)

/-! ## Polling -/

/-- A bound on the steps of a stop, which a loop can take any number of. -/
def stopFuel : Nat := 1000000000

/-- Stop one loop after the other and save the destination of each. -/
def stopEach (s : Session) (g : Timed (PollingGroup Stores)) (i : Nat) :
    List TaskEntry → ExceptT CommandError m Session
  | [] => return s
  | e :: rest => do
    let g := g |> PollingGroup.stop stopFuel i
    let s := { s with stores := g.state.world.stores }
    s.save e.destination
    s.stopEach g (i + 1) rest

/-- Poll for the requested tasks.  `wait` lets the loops run until they are to be stopped. -/
def poll (s : Session) (wait : PollingGroup Stores → m (Timed (PollingGroup Stores)))
    (requested : List String) : ExceptT CommandError m Session := do
  let entries ← s.configuration.select requested
  let tasks ← entries.mapM fun e => s.task e
  let g ← wait (.new tasks s.stores (← Host.now (m := m)))
  s.stopEach g 0 entries

end Session

end StoreSync
