import StoreSync.TaskConfig
import StoreSync.Text.Integer

/-!
# Options of the command

Options are read from left to right.  A setting takes its value from its own word, behind `=` or
right behind its letter, or from the next word, unless that looks like an option itself.  Letters
of switches can be joined behind one dash.  A setting whose value is still to come is completed
when the next option is met, so that an unknown word hides what is wrong with the value before
it.  Apart from the names of tasks nothing may be given twice.
-/

namespace StoreSync

/-- How the log is written. -/
inductive LogFormat where
  | text
  | json
deriving DecidableEq, Repr

def LogFormat.name : LogFormat → String
  | .text => "text"
  | .json => "json"

/-- What was asked for on the command line. -/
structure Options where
  /-- The path of the configuration file. -/
  configuration : String
  /-- Names of tasks to synchronize. -/
  synchronization : List String
  /-- Names of tasks to clean. -/
  cleaning : List String
  /-- Names of tasks to synchronize until an interrupt. -/
  asynchronous : List String
  /-- Kinds of changes that are not applied. -/
  suppressed : DryRun
  /-- No change at all is applied. -/
  dryRun : Bool
  workers : Option Nat
  timeLimitSeconds : Option Nat
  json : Bool
  verbose : Bool
  logFormat : LogFormat
deriving DecidableEq, Repr

namespace Options

/-- What there is without any option. -/
def standard (configuration : String) : Options :=
  ⟨configuration, [], [], [], .none, false, none, none, false, false, .text⟩

/-- The dry run that the options ask for. -/
def effectiveDryRun (o : Options) : DryRun := if o.dryRun then .all else o.suppressed

/-- Whether any task is to run. -/
def hasWork (o : Options) : Bool :=
  !(o.synchronization.isEmpty && o.cleaning.isEmpty && o.asynchronous.isEmpty)

/-- Why no options could be read. -/
inductive UsageError where
  /-- A value is missing or not one of those that are possible. -/
  | invalidValue
  /-- A value is no number in its range. -/
  | notANumber
  | unknown
  /-- Something was given twice. -/
  | repeated
  /-- A switch was given a value. -/
  | unexpectedValue
  | helpWanted
  | versionWanted
deriving DecidableEq, Repr

/-- Asking for help or for the version is no failure. -/
def UsageError.exitCode : UsageError → Nat
  | .helpWanted | .versionWanted => 0
  | _ => 2

/-- Options without value. -/
inductive Switch where
  | noCreate
  | noUpdate
  | noDelete
  | noRename
  | dryRun
  | json
  | verbose
  | help
  | version
deriving DecidableEq, Repr

/-- Options with a value. -/
inductive Setting where
  | configuration
  | synchronization
  | cleaning
  | asynchronous
  | workers
  | timeLimit
  | logFormat
deriving DecidableEq, Repr

/-- An option by its name. -/
inductive Named where
  | switch (s : Switch)
  | setting (s : Setting)
deriving DecidableEq, Repr

/-- Names behind two dashes. -/
def longNames : List (String × Named) := [
  ("config", .setting .configuration), ("synchronization", .setting .synchronization),
  ("cleaning", .setting .cleaning), ("asynchronous-synchronization", .setting .asynchronous),
  ("threads", .setting .workers), ("time-limit", .setting .timeLimit),
  ("log-format", .setting .logFormat), ("nocreate", .switch .noCreate),
  ("noupdate", .switch .noUpdate), ("nodelete", .switch .noDelete),
  ("nomodrdn", .switch .noRename), ("dryrun", .switch .dryRun), ("json", .switch .json),
  ("verbose", .switch .verbose), ("help", .switch .help), ("version", .switch .version)]

/-- Letters behind one dash. -/
def letters : List (Char × Named) := [
  ('f', .setting .configuration), ('s', .setting .synchronization), ('c', .setting .cleaning),
  ('a', .setting .asynchronous), ('t', .setting .workers), ('n', .switch .dryRun),
  ('v', .switch .verbose), ('h', .switch .help), ('V', .switch .version)]

/-- How far the options have been read. -/
structure Reading where
  options : Options
  /-- What was given so far, apart from names of tasks. -/
  given : List Named
  /-- A setting that is not complete, with its value if that has been met. -/
  pending : Option (Setting × Option String)
  /-- Whether no more options are expected. -/
  closed : Bool

namespace Reading

/-- Note that something was given that may be given once. -/
def once (n : Named) (r : Reading) : Except UsageError Reading :=
  if r.given.contains n then .error .repeated else .ok { r with given := n :: r.given }

def number (value : String) : Except UsageError Nat :=
  match Text.parseNat64? value with
  | some n => .ok n
  | none => .error .notANumber

/-- Give a setting its value. -/
def assign (s : Setting) (value : String) (r : Reading) : Except UsageError Reading :=
  match s with
  | .synchronization =>
    .ok { r with options.synchronization := r.options.synchronization ++ [value] }
  | .cleaning => .ok { r with options.cleaning := r.options.cleaning ++ [value] }
  | .asynchronous => .ok { r with options.asynchronous := r.options.asynchronous ++ [value] }
  | .configuration => do
    let r ← r.once (.setting s)
    if value = "" then throw .invalidValue
    return { r with options.configuration := value }
  | .workers => do
    let r ← r.once (.setting s)
    return { r with options.workers := some (← number value) }
  | .timeLimit => do
    let r ← r.once (.setting s)
    return { r with options.timeLimitSeconds := some (← number value) }
  | .logFormat => do
    let r ← r.once (.setting s)
    match [LogFormat.text, .json].find? (·.name = value) with
    | some format => return { r with options.logFormat := format }
    | none => throw .invalidValue

/-- Complete the setting that is not complete. -/
def complete (r : Reading) : Except UsageError Reading :=
  match r.pending with
  | none => .ok r
  | some (_, none) => .error .invalidValue
  | some (s, some value) => { r with pending := none }.assign s value

/-- Turn a switch. -/
def turn (s : Switch) (r : Reading) : Except UsageError Reading := do
  let r ← r.complete
  match s with
  | .help => throw .helpWanted
  | .version => throw .versionWanted
  | s =>
    let r ← r.once (.switch s)
    return match s with
      | .noCreate => { r with options.suppressed.create := true }
      | .noUpdate => { r with options.suppressed.update := true }
      | .noDelete => { r with options.suppressed.delete := true }
      | .noRename => { r with options.suppressed.rename := true }
      | .dryRun => { r with options.dryRun := true }
      | .json => { r with options.json := true }
      | _ => { r with options.verbose := true }

/-- Begin a setting, with its value or in wait for it. -/
def set (s : Setting) (value : Option String) (r : Reading) : Except UsageError Reading := do
  let r ← r.complete
  match value with
  | some v => r.assign s v
  | none => return { r with pending := some (s, none) }

/-- A word behind two dashes: a name, and perhaps a value behind `=`. -/
def long (word : List Char) (r : Reading) : Except UsageError Reading :=
  let name := String.ofList (word.takeWhile (· ≠ '='))
  let value := match word.dropWhile (· ≠ '=') with
    | _ :: v => some (String.ofList v)
    | [] => none
  match longNames.lookup name, value with
  | none, _ => .error .unknown
  | some (.switch _), some _ => .error .unexpectedValue
  | some (.switch s), none => r.turn s
  | some (.setting s), value => r.set s value

/-- Letters behind one dash: switches, and at the end perhaps a setting with its value. -/
def short : List Char → Reading → Except UsageError Reading
  | [], r => .ok r
  | c :: rest, r =>
    match letters.lookup c with
    | none => .error .unknown
    | some (.switch s) => r.turn s >>= short rest
    | some (.setting s) =>
      r.set s (match rest with
        | [] => none
        | '=' :: v => some (String.ofList v)
        | v => some (String.ofList v))

/-- Take up one word. -/
def word (r : Reading) (w : String) : Except UsageError Reading :=
  if r.closed then .error .unknown
  else
    match w.toList with
    | ['-', '-'] => .ok { r with closed := true }
    | '-' :: '-' :: cs => r.long cs
    | '-' :: c :: cs => r.short (c :: cs)
    | _ =>
      match r.pending with
      | some (s, none) => .ok { r with pending := some (s, some w) }
      | _ => .error .unknown

end Reading

/-- Read the words behind the name of the command.  The path of the configuration can also come
from a variable, if the words do not give it. -/
def read (fromVariable : Option String) (words : List String) : Except UsageError Options := do
  let r ← words.foldlM Reading.word ⟨.standard "idsync.yaml", [], none, false⟩
  let r ← r.complete
  match fromVariable with
  | some path =>
    if r.given.contains (.setting .configuration) then return r.options
    else return (← r.assign .configuration path).options
  | none => return r.options

/-! ## Help -/

/-- What is said about the options. -/
def help : String :=
  "Usage: idsync [OPTIONS]\n\n" ++
  "Options:\n" ++
  "  -f, --config <CONFIG>                      Configuration file [env: IDSYNC_CONFIG]\n" ++
  "  -s, --synchronization <TASK>               Synchronize a task (or \"all\")\n" ++
  "  -c, --cleaning <TASK>                      Clean a task (or \"all\")\n" ++
  "  -a, --asynchronous-synchronization <TASK>  Synchronize a task until interrupted\n" ++
  "      --nocreate                             Do not create entries\n" ++
  "      --noupdate                             Do not update entries\n" ++
  "      --nodelete                             Do not delete entries\n" ++
  "      --nomodrdn                             Do not rename entries\n" ++
  "  -n, --dryrun                               Apply no change at all\n" ++
  "  -t, --threads <N>                          Number of workers per task\n" ++
  "      --time-limit <SECS>                    Time limit of each pass\n" ++
  "      --json                                 Print reports as JSON\n" ++
  "  -v, --verbose                              Debug logging\n" ++
  "      --log-format <FORMAT>                  text or json\n" ++
  "  -h, --help                                 Print help\n" ++
  "  -V, --version                              Print version"

def version : String := "idsync 0.1.0"

end Options

end StoreSync
