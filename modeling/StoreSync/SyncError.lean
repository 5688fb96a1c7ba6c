import StoreSync.Store.Error

/-!
# Synchronization errors

What can go wrong in a pass or while a task is set up.  A store's error is classified once, when
it is met: either the connection is lost, which ends the pass, or the unit alone fails.
-/

namespace StoreSync

/-- Why a unit or a pass failed. -/
inductive SyncError where
  | connectionLost (store : String) (cause : StoreError)
  | adapter (store : String) (cause : StoreError)
  | evaluation (expression message : String)
  | configuration (message : String)
  /-- The pass used up its time, given in milliseconds. -/
  | timeout (limit : Nat)
  | emptySource (store : String)
  | missingIdentifier (message : String)
  | internal (message : String)
deriving DecidableEq, Repr

namespace SyncError

/-- Classify a store's error by the store's own verdict on its connection. -/
def ofStore (store : String) (cause : StoreError) (lost : Bool) : SyncError :=
  if lost then .connectionLost store cause else .adapter store cause

def message : SyncError → String
  | .connectionLost store cause => "Connection lost to " ++ store ++ ": " ++ cause.message
  | .adapter store cause => "Adapter error from " ++ store ++ ": " ++ cause.message
  | .evaluation expression m => "Evaluation error in '" ++ expression ++ "': " ++ m
  | .configuration m => "Configuration error: " ++ m
  | .timeout limit => "Pass exceeded its time limit of " ++ toString (limit / 1000) ++ "s"
  | .emptySource store => "Source store " ++ store ++ " returned no pivots"
  | .missingIdentifier m => "Cannot resolve destination identifier: " ++ m
  | .internal m => "Internal error: " ++ m

def kind : SyncError → String
  | .connectionLost _ _ => "connection_lost"
  | .adapter _ _ => "adapter"
  | .evaluation _ _ => "evaluation"
  | .configuration _ => "configuration"
  | .timeout _ => "timeout"
  | .emptySource _ => "empty_source"
  | .missingIdentifier _ => "missing_identifier"
  | .internal _ => "internal"

def isConnectionLost : SyncError → Bool
  | .connectionLost _ _ => true
  | _ => false

/-- Whether the error ends the whole pass. -/
def endsPass : SyncError → Bool
  | .connectionLost _ _ | .configuration _ | .emptySource _ => true
  | _ => false

/-- Code of the store's error behind this one. -/
def storeCode? : SyncError → Option String
  | .connectionLost _ cause | .adapter _ cause => some cause.code
  | _ => none

end SyncError

end StoreSync
