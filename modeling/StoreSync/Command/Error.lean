import StoreSync.SyncError

/-!
# Errors of the command

What keeps the command from its passes, or ends it between them, and the exit codes.
-/

namespace StoreSync

/-- Why the command failed. -/
inductive CommandError where
  | configuration (message : String)
  /-- The configuration file could not be read. -/
  | unreadable (path message : String)
  /-- The configuration file does not hold a configuration. -/
  | malformed (path message : String)
  | noSuchTask (name : String)
  | nothingToDo
  /-- A store's file could not be loaded or saved. -/
  | store (name : String) (cause : StoreError)
  | sync (cause : SyncError)
  | output (message : String)
deriving DecidableEq, Repr

/-- How the command ended. -/
inductive ExitStatus where
  /-- Every pass completed, and no unit failed. -/
  | success
  /-- Nothing could be run. -/
  | refused
  /-- A pass failed. -/
  | failed
  /-- Units failed, or the time was up. -/
  | partly
deriving DecidableEq, Repr

def ExitStatus.code : ExitStatus → Nat
  | .success => 0
  | .refused => 1
  | .failed => 2
  | .partly => 3

namespace CommandError

def message : CommandError → String
  | .configuration m => "Configuration error: " ++ m
  | .unreadable path m => "Cannot read " ++ path ++ ": " ++ m
  | .malformed path m => "Invalid YAML in " ++ path ++ ": " ++ m
  | .noSuchTask name => "No task matches '" ++ name ++ "'"
  | .nothingToDo =>
    "Nothing to do. Use --synchronization, --cleaning or --asynchronous-synchronization."
  | .store name cause => "Store '" ++ name ++ "': " ++ cause.message
  | .sync cause => cause.message
  | .output m => "Output error: " ++ m

def kind : CommandError → String
  | .configuration _ => "config"
  | .unreadable _ _ => "read"
  | .malformed _ _ => "yaml"
  | .noSuchTask _ => "no_task_matched"
  | .nothingToDo => "nothing_to_do"
  | .store _ _ => "store"
  | .sync _ => "sync"
  | .output _ => "output"

/-- A lost connection or an empty source counts as a failed pass. -/
def exitStatus : CommandError → ExitStatus
  | .sync (.configuration _) => .refused
  | .sync cause => if cause.endsPass then .failed else .refused
  | .store _ cause => if cause.isConnectionLost then .failed else .refused
  | _ => .refused

end CommandError

end StoreSync
