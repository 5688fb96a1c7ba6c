import StoreSync.Command.Options
import StoreSync.Command.Session
import StoreSync.Command.Variables

/-!
# The command

The command reads its variables and options, loads the configuration and its stores, and runs
either the polling loops or the passes that the options ask for.
-/

namespace StoreSync.Command

/-- The variable that gives the path of the configuration. -/
def configurationVariable : String := "IDSYNC_CONFIG"

/-- What the command came to. -/
inductive Outcome where
  /-- No options could be read. -/
  | unusable (cause : Options.UsageError)
  | failed (cause : CommandError)
  /-- The loops were stopped. -/
  | interrupted
  | finished (options : Options) (runs : List PassRun)

def Outcome.exitCode : Outcome → Nat
  | .unusable cause => cause.exitCode
  | .failed cause => cause.exitStatus.code
  | .interrupted => ExitStatus.success.code
  | .finished _ runs => (ExitStatus.ofReports (runs.map (·.report))).code

/-- What is written to the output. -/
def Outcome.output : Outcome → List String
  | .unusable .helpWanted => [Options.help]
  | .unusable .versionWanted => [Options.version]
  | .finished o runs =>
    if o.json then [(Json.array (runs.map PassRun.toJson)).pretty]
    else runs.map (·.report.summary)
  | _ => []

/-- What is written beside the output. -/
def Outcome.complaints : Outcome → List String
  | .unusable .helpWanted => []
  | .unusable .versionWanted => []
  | .unusable _ => [Options.help]
  | .failed cause => ["Error: " ++ cause.message]
  | _ => []

variable {m : Type → Type} [Monad m] [Host m]

/-- Read and check a configuration file.  The paths in it are meant in its own directory. -/
def loadConfiguration (path : String) : ExceptT CommandError m Configuration := do
  match ← Host.readFile (m := m) path with
  | .error e => throw (.unreadable path e.message)
  | .ok text =>
    match Configuration.parse? (Path.parent path) text with
    | none => throw (.malformed path "not a configuration")
    | some c =>
      c.validate
      return c

/-- The settings that the options put before those of the tasks. -/
def overrides (o : Options) : Overrides := ⟨o.effectiveDryRun, o.workers, o.timeLimitSeconds⟩

/-- Do what the options ask for; the passes, if passes were run. -/
def perform (wait : PollingGroup Stores → m (Timed (PollingGroup Stores))) (o : Options) :
    ExceptT CommandError m (Option (List PassRun)) := do
  if !o.hasWork then throw .nothingToDo
  let s ← Session.begin (← loadConfiguration o.configuration) (overrides o)
  if o.asynchronous.isEmpty then
    let (runs, _) ← s.run o.synchronization o.cleaning
    return some runs
  else
    let _ ← s.poll wait o.asynchronous
    return none

/-- The path that a variable gives for the configuration.  The file `.env` may set variables. -/
def configurationPath? : m (Option String) := do
  let text := match ← Host.readFile (m := m) ".env" with
    | .ok text => text
    | .error _ => ""
  let known ← (configurationVariable :: Variables.mentioned text).filterMapM fun name => do
    return (← Host.environment (m := m) name).map (name, ·)
  return (Variables.withFile text (.ofList known)).get? configurationVariable

/-- Run the command with the words behind its name. -/
def run (wait : PollingGroup Stores → m (Timed (PollingGroup Stores))) (words : List String) :
    m Outcome := do
  match Options.read (← configurationPath?) words with
  | .error cause => return .unusable cause
  | .ok o =>
    match ← (perform wait o).run with
    | .error cause => return .failed cause
    | .ok none => return .interrupted
    | .ok (some runs) => return .finished o runs

end StoreSync.Command
