/-!
# Store errors

What a store may answer instead of a result.  A lost connection ends the whole pass; every other
error stays within the unit of work that met it.
-/

namespace StoreSync

/-- Why a store operation failed. -/
inductive StoreError where
  /-- The connection to the store is gone. -/
  | connectionFailed (message : String)
  /-- The store does not offer the operation. -/
  | unsupported (operation : String)
  /-- A record has a field that its schema does not declare. -/
  | attributeNotDeclared (name entity : String)
  /-- A field does not have its declared type. -/
  | attributeType (name expected message : String)
  /-- The store refused a change. -/
  | operationFailed (message : String)
  | objectExists (identifier : String)
  | objectNotFound (identifier : String)
  | invalidData (message : String)
  /-- A store file could not be read or written. -/
  | io (message : String)
  /-- A store file does not hold a list of records. -/
  | serialization (message : String)
deriving DecidableEq, Repr

namespace StoreError

/-- Whether the error by itself means that the connection is gone. -/
def isConnectionLost : StoreError → Bool
  | .connectionFailed _ => true
  | _ => false

/-- The stable code of the kind of error. -/
def code : StoreError → String
  | .connectionFailed _ => "CONNECTION_FAILED"
  | .unsupported _ => "UNSUPPORTED"
  | .attributeNotDeclared _ _ => "ATTRIBUTE_NOT_DECLARED"
  | .attributeType _ _ _ => "ATTRIBUTE_TYPE"
  | .operationFailed _ => "OPERATION_FAILED"
  | .objectExists _ => "OBJECT_EXISTS"
  | .objectNotFound _ => "OBJECT_NOT_FOUND"
  | .invalidData _ => "INVALID_DATA"
  | .io _ => "IO_ERROR"
  | .serialization _ => "SERIALIZATION_ERROR"

def message : StoreError → String
  | .connectionFailed m => "connection failed: " ++ m
  | .unsupported op => "operation not supported: " ++ op
  | .attributeNotDeclared name entity =>
    "attribute '" ++ name ++ "' not declared for entity '" ++ entity ++ "'"
  | .attributeType name expected m =>
    "attribute '" ++ name ++ "' expects " ++ expected ++ ": " ++ m
  | .operationFailed m => "operation failed: " ++ m
  | .objectExists id => "object already exists: " ++ id
  | .objectNotFound id => "object not found: " ++ id
  | .invalidData m => "invalid data: " ++ m
  | .io m => "i/o error: " ++ m
  | .serialization m => "serialization error: " ++ m

end StoreError

end StoreSync
