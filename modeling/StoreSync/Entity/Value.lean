import StoreSync.Data.Tree
import StoreSync.Text.Base64

/-!
# Attribute values

A value is a text, a 64-bit integer, a Boolean or a byte sequence.  Values are compared by their
canonical text, so the integer `42` and the text `42` are the same value of an attribute.
-/

namespace StoreSync

/-- A single value of an attribute. -/
inductive AttributeValue where
  | string (text : String)
  | integer (value : Int64)
  | boolean (value : Bool)
  | binary (bytes : List UInt8)
deriving DecidableEq, Repr

namespace AttributeValue

/-- The text by which values are compared; bytes are written in Base64. -/
def canonical : AttributeValue → String
  | .string s => s
  | .integer i => toString i.toInt
  | .boolean b => if b then "true" else "false"
  | .binary bytes => Text.Base64.encode bytes

/-- An empty text or byte sequence counts as no value. -/
def isEmpty : AttributeValue → Bool
  | .string s => s.isEmpty
  | .binary bytes => bytes.isEmpty
  | .integer _ | .boolean _ => false

def string? : AttributeValue → Option String
  | .string s => some s
  | _ => none

def kind : AttributeValue → String
  | .string _ => "string"
  | .integer _ => "integer"
  | .boolean _ => "boolean"
  | .binary _ => "binary"

/-! ## Data form -/

def toJson : AttributeValue → Json
  | .string s => .string s
  | .integer i => .ofInt i.toInt
  | .boolean b => .boolean b
  | .binary bytes => .array (bytes.map fun b => .ofNat b.toNat)

/-- One byte of a byte sequence. -/
def byte? : Json → Option UInt8
  | .number (.integer i) => if 0 ≤ i ∧ i < 256 then some (UInt8.ofNat i.toNat) else none
  | _ => none

def ofJson? : Json → Option AttributeValue
  | .string s => some (.string s)
  | .number (.integer i) => if Text.FitsInt64 i then some (.integer (Int64.ofInt i)) else none
  | .boolean b => some (.boolean b)
  | .array items => (items.mapM byte?).map .binary
  | _ => none

end AttributeValue

end StoreSync
