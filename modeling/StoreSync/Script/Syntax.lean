import StoreSync.Decimal.Double

/-!
# Terms of the expression language

Statements and expressions are one kind of term: every term has a value, that of a statement
such as a loop being the empty value unless the loop is left with another one.
-/

namespace StoreSync.Script

/-- A value written in the script. -/
inductive Literal where
  | unit
  | bool (value : Bool)
  | integer (value : Int)
  | float (value : Decimal.Double)
  | char (value : Char)
  | string (text : String)
deriving DecidableEq, Repr

/-- Operators on one operand. -/
inductive UnaryOp where
  | negate
  | keep
  | not
deriving DecidableEq, Repr

/-- Operators that evaluate both operands. -/
inductive BinaryOp where
  | add
  | sub
  | mul
  | div
  | mod
  | pow
  | shiftLeft
  | shiftRight
  | bitAnd
  | bitOr
  | bitXor
  | equal
  | notEqual
  | less
  | lessEqual
  | greater
  | greaterEqual
  | range
  | rangeInclusive
  /-- Whether the left operand is contained in the right one. -/
  | within
  | notWithin
deriving DecidableEq, Repr

/-- A term.  In a chain of accesses `safe` ends the chain with the empty value when that is what
it is applied to. -/
inductive Term where
  | literal (value : Literal)
  | variable (name : String)
  /-- Texts and expressions joined into one text. -/
  | template (parts : List Term)
  | array (items : List Term)
  | object (fields : List (String × Term))
  | unary (op : UnaryOp) (operand : Term)
  | binary (op : BinaryOp) (left right : Term)
  | both (left right : Term)
  | either (left right : Term)
  /-- The right operand when the left one is the empty value. -/
  | orElse (left right : Term)
  | call (function : String) (arguments : List Term)
  | property (of : Term) (name : String) (safe : Bool)
  | index (of place : Term) (safe : Bool)
  | method (of : Term) (name : String) (arguments : List Term) (safe : Bool)
  | block (body : List Term)
  | cond (test yes no : Term)
  | whileLoop (test body : Term)
  | loop (body : Term)
  | forEach (name : String) (items body : Term)
  | declare (name : String) (constant : Bool) (value : Term)
  | assign (op : Option BinaryOp) (target value : Term)
  | leave (value : Term)
  | next
  | answer (value : Term)
  | throw (value : Term)

instance : Inhabited Term := ⟨.literal .unit⟩

/-- A function, which sees nothing but its arguments. -/
structure Function where
  name : String
  parameters : List String
  body : Term

/-- A script: functions, and the terms to evaluate one after the other. -/
structure Program where
  functions : List Function
  body : List Term

/-- The script that runs `a`, then `b`.  Functions of `b` come before those of `a`. -/
def Program.append (a b : Program) : Program := ⟨b.functions ++ a.functions, a.body ++ b.body⟩

end StoreSync.Script
