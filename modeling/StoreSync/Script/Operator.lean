import StoreSync.Script.Value
import StoreSync.Text.Integer

/-!
# Operators of the expression language

Integer arithmetic is checked: what leaves 64 bits, or divides by zero, is an error.  Arithmetic
between an integer and a fraction is that of fractions.  A text on either side of `+` joins
display forms.
-/

namespace StoreSync.Script

open Decimal (Double)

/-- Why an evaluation failed. -/
inductive Failure where
  | overflow
  | divisionByZero
  | negativeExponent
  | noFunction (name : String)
  | noVariable (name : String)
  | noProperty (name : String)
  | badIndex
  | outOfRange
  | notBoolean
  | notIterable
  | constant (name : String)
  | tooLarge
  | tooManyOperations
  | tooDeep
  | notANumber (text : String)
  | thrown (text : String)
  | misplaced
deriving DecidableEq, Repr

def Failure.message : Failure → String
  | .overflow => "arithmetic overflow"
  | .divisionByZero => "division by zero"
  | .negativeExponent => "negative exponent"
  | .noFunction name => "function not found: " ++ name
  | .noVariable name => "variable not found: " ++ name
  | .noProperty name => "property not found: " ++ name
  | .badIndex => "value cannot be indexed this way"
  | .outOfRange => "index out of range"
  | .notBoolean => "expected a boolean"
  | .notIterable => "value cannot be iterated"
  | .constant name => "cannot change constant " ++ name
  | .tooLarge => "size limit exceeded"
  | .tooManyOperations => "too many operations"
  | .tooDeep => "too many nested calls"
  | .notANumber text => "not a number: " ++ text
  | .thrown text => text
  | .misplaced => "statement out of place"

namespace Value

/-- An integer result, unless it leaves 64 bits. -/
def checked (i : Int) : Except Failure Value :=
  if Text.FitsInt64 i then .ok (.integer i) else .error .overflow

/-- A fraction result of an operation on machine numbers. -/
def ofFloat (x : Float) : Value := .float ⟨x.toBits⟩

def toFloat (d : Double) : Float := Float.ofBits d.bits

/-- Remainder with the sign of the dividend. -/
def floatMod (x y : Float) : Float :=
  let q := x / y
  let t := if q < 0 then q.ceil else q.floor
  x - t * y

/-- Arithmetic on integers. -/
def integerOp (op : BinaryOp) (a b : Int) : Except Failure Value :=
  match op with
  | .add => checked (a + b)
  | .sub => checked (a - b)
  | .mul => checked (a * b)
  | .div => if b = 0 then .error .divisionByZero else checked (a.tdiv b)
  | .mod =>
    if b = 0 then .error .divisionByZero
    else if a = -0x8000000000000000 ∧ b = -1 then .error .overflow
    else checked (a.tmod b)
  | .pow =>
    if b < 0 then .error .negativeExponent
    else if 64 ≤ b ∧ 1 < a.natAbs then .error .overflow
    else if a.natAbs ≤ 1 then checked (if b = 0 then 1 else if b % 2 = 0 then a * a else a)
    else checked (Int.pow a b.toNat)
  | .bitAnd => .ok (.integer ((Int64.ofInt a) &&& (Int64.ofInt b)).toInt)
  | .bitOr => .ok (.integer ((Int64.ofInt a) ||| (Int64.ofInt b)).toInt)
  | .bitXor => .ok (.integer ((Int64.ofInt a) ^^^ (Int64.ofInt b)).toInt)
  | .shiftLeft => shift a b
  | .shiftRight => shift a (-b)
  | _ => .error (.noFunction "operator")
where
  /-- Shift to the left, or to the right by a negative amount. -/
  shift (a b : Int) : Except Failure Value :=
    if 64 ≤ b.natAbs then .ok (.integer (if b < 0 ∧ a < 0 then -1 else 0))
    else if 0 ≤ b then .ok (.integer ((Int64.ofInt (a * Nat.pow 2 b.toNat)).toInt))
    else .ok (.integer (a / Nat.pow 2 (-b).toNat))

/-- Arithmetic on fractions. -/
def floatOp (op : BinaryOp) (a b : Double) : Except Failure Value :=
  let x := toFloat a
  let y := toFloat b
  match op with
  | .add => .ok (ofFloat (x + y))
  | .sub => .ok (ofFloat (x - y))
  | .mul => .ok (ofFloat (x * y))
  | .div => .ok (ofFloat (x / y))
  | .mod => .ok (ofFloat (floatMod x y))
  | .pow => .ok (ofFloat (x ^ y))
  | _ => .error (.noFunction "operator")

/-- Whether an order answers a comparison. -/
def compares (op : BinaryOp) (o : Option Ordering) : Bool :=
  match op with
  | .less => o = some .lt
  | .lessEqual => o = some .lt || o = some .eq
  | .greater => o = some .gt
  | .greaterEqual => o = some .gt || o = some .eq
  | _ => false

/-- Whether two values of one type have no order. -/
def unordered : Value → Value → Bool
  | .array _, .array _ | .object _, .object _ | .range _ _ _, .range _ _ _ => true
  | _, _ => false

/-- Whether a value is contained in another. -/
def contains (whole part : Value) : Except Failure Bool :=
  match whole, part with
  | .array items, v => .ok (items.any (same v))
  | .object fields, .string s => .ok (fields.any (·.1 == s))
  | .string s, .string t => .ok (isInfix t.toList s.toList)
  | .string s, .char c => .ok (s.toList.contains c)
  | .range a b closed, .integer i => .ok (a ≤ i && (i < b || (closed && i = b)))
  | _, _ => .error (.noFunction "contains")
where
  /-- Whether a character list stands somewhere in another. -/
  isInfix (word : List Char) : List Char → Bool
    | [] => word.isEmpty
    | c :: rest => word.isPrefixOf (c :: rest) || isInfix word rest

/-- The sum of two values. -/
def sum (a b : Value) : Except Failure Value :=
  match a, b with
  | .integer x, .integer y => integerOp .add x y
  | .array x, .array y => .ok (.array (x ++ y))
  | .object x, .object y => .ok (.object (y.foldl (fun acc f => putField f.1 f.2 acc) x))
  | .string x, y => .ok (.string (x ++ y.display))
  | x, .string y => .ok (.string (x.display ++ y))
  | .char x, .char y => .ok (.string (x.toString ++ y.toString))
  | x, y => mixed .add x y
where
  /-- Arithmetic in which fractions take part. -/
  mixed (op : BinaryOp) : Value → Value → Except Failure Value
    | .float x, .float y => floatOp op x y
    | .integer x, .float y => floatOp op (floatOfInt x) y
    | .float x, .integer y => floatOp op x (floatOfInt y)
    | _, _ => .error (.noFunction "operator")

/-- Remove every occurrence of a word. -/
def removeWord (word : List Char) : Nat → List Char → List Char
  | 0, cs => cs
  | _, [] => []
  | fuel + 1, c :: rest =>
    if !word.isEmpty && word.isPrefixOf (c :: rest) then
      removeWord word fuel ((c :: rest).drop word.length)
    else c :: removeWord word fuel rest

/-- The value of an operator on two values. -/
def apply (op : BinaryOp) (a b : Value) : Except Failure Value :=
  match op with
  | .add => sum a b
  | .equal => .ok (.bool (same a b))
  | .notEqual => .ok (.bool (!same a b))
  | .less | .lessEqual | .greater | .greaterEqual =>
    if unordered a b then .error (.noFunction "comparison")
    else .ok (.bool (compares op (order? a b)))
  | .within => (contains b a).map .bool
  | .notWithin => (contains b a).map fun r => .bool !r
  | .range => range a b false
  | .rangeInclusive => range a b true
  | op =>
    match op, a, b with
    | op, .integer x, .integer y => integerOp op x y
    | .bitAnd, .bool x, .bool y => .ok (.bool (x && y))
    | .bitOr, .bool x, .bool y => .ok (.bool (x || y))
    | .bitXor, .bool x, .bool y => .ok (.bool (x != y))
    | .sub, .string x, .string y =>
      .ok (.string (String.ofList (removeWord y.toList x.length x.toList)))
    | .sub, .string x, .char y => .ok (.string (String.ofList (x.toList.filter (· != y))))
    | op, x, y => sum.mixed op x y
where
  range (a b : Value) (closed : Bool) : Except Failure Value :=
    match a, b with
    | .integer x, .integer y => .ok (.range x y closed)
    | _, _ => .error (.noFunction "range")

/-- The value of a sign or negation. -/
def applyUnary (op : UnaryOp) (a : Value) : Except Failure Value :=
  match op, a with
  | .negate, .integer i => checked (-i)
  | .negate, .float d => .ok (.float d.neg)
  | .keep, .integer i => .ok (.integer i)
  | .keep, .float d => .ok (.float d)
  | .not, .bool b => .ok (.bool !b)
  | _, _ => .error (.noFunction "sign")

end Value

end StoreSync.Script
