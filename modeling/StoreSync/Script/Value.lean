import StoreSync.Decimal.Shortest
import StoreSync.Script.Syntax

/-!
# Values of the expression language

Values have two texts.  The display form is what a value contributes to a text: a text stands for
itself, and the empty value for nothing.  Inside arrays and objects values take the quoted form,
in which texts are in quotes and the empty value is `()`.
-/

namespace StoreSync.Script

open Decimal (Double)

/-- A value.  Objects hold their fields in ascending order of the names. -/
inductive Value where
  | unit
  | bool (value : Bool)
  | integer (value : Int)
  | float (value : Double)
  | char (value : Char)
  | string (text : String)
  | array (items : List Value)
  | object (fields : List (String × Value))
  /-- The integers from `first` up to `last`, which belongs to them when `closed`. -/
  | range (first last : Int) (closed : Bool)

instance : Inhabited Value := ⟨.unit⟩

namespace Value

def ofLiteral : Literal → Value
  | .unit => .unit
  | .bool b => .bool b
  | .integer i => .integer i
  | .float d => .float d
  | .char c => .char c
  | .string s => .string s

/-- Name of the type of a value. -/
def typeName : Value → String
  | .unit => "()"
  | .bool _ => "bool"
  | .integer _ => "i64"
  | .float _ => "f64"
  | .char _ => "char"
  | .string _ => "string"
  | .array _ => "array"
  | .object _ => "map"
  | .range _ _ _ => "range"

/-! ## Texts -/

/-- Numbers are displayed with all digits and a fraction between 1e-13 and 1e13, otherwise with
an exponent. -/
def floatDisplay (d : Double) : String :=
  if d.biasedExponent = 2047 then special d
  else if d.isZero then "0.0"
  else
    let x := d.shortest
    let large := 14 < x.point ∨ (x.point = 14 ∧ ¬ (x.digits = 1))
    let small := x.point ≤ -13
    signed d (if large ∨ small then x.scientific else x.positional ".0")
where
  /-- Infinities, and what is no number. -/
  special (d : Double) : String :=
    if d.fraction ≠ 0 then "NaN" else signed d "inf"
  signed (d : Double) (s : String) : String := if d.isNegative then "-" ++ s else s

/-- Within arrays the exponent is used from 1e16 on, and below 1e-4. -/
def floatQuoted (d : Double) : String :=
  if d.biasedExponent = 2047 then floatDisplay.special d
  else if d.isZero then floatDisplay.signed d "0.0"
  else
    let x := d.shortest
    floatDisplay.signed d
      (if 16 < x.point ∨ x.point ≤ -4 then x.scientific else x.positional ".0")

def hexText (n : Nat) : String := String.ofList (Nat.toDigits 16 n)

/-- A character inside quotes. -/
def quotedChar (quote : Char) (c : Char) : String :=
  if c = quote then "\\" ++ c.toString
  else if c = '\\' then "\\\\"
  else if c = '\n' then "\\n"
  else if c = '\r' then "\\r"
  else if c = '\t' then "\\t"
  else if c.toNat = 0 then "\\0"
  else if c.toNat < 32 ∨ (127 ≤ c.toNat ∧ c.toNat < 160) then
    "\\u\x7b" ++ hexText c.toNat ++ "\x7d"
  else c.toString

def quotedText (s : String) : String :=
  "\"" ++ String.join (s.toList.map (quotedChar '"')) ++ "\""

mutual

/-- The quoted form. -/
def quoted : Value → String
  | .unit => "()"
  | .bool b => if b then "true" else "false"
  | .integer i => toString i
  | .float d => floatQuoted d
  | .char c => "'" ++ quotedChar '\'' c ++ "'"
  | .string s => quotedText s
  | .array items => "[" ++ quotedItems items ++ "]"
  | .object fields => "#\x7b" ++ quotedFields fields ++ "\x7d"
  | .range a b closed => toString a ++ (if closed then "..=" else "..") ++ toString b

def quotedItems : List Value → String
  | [] => ""
  | [v] => quoted v
  | v :: rest => quoted v ++ ", " ++ quotedItems rest

def quotedFields : List (String × Value) → String
  | [] => ""
  | [(name, v)] => quotedText name ++ ": " ++ quoted v
  | (name, v) :: rest => quotedText name ++ ": " ++ quoted v ++ ", " ++ quotedFields rest

end

/-- The display form. -/
def display : Value → String
  | .unit => ""
  | .char c => c.toString
  | .string s => s
  | .float d => floatDisplay d
  | v => quoted v

/-! ## Comparison -/

/-- Order of two numbers; none when either is not a number. -/
def compareFloats (a b : Double) : Option Ordering :=
  let x := Float.ofBits a.bits
  let y := Float.ofBits b.bits
  if x < y then some .lt else if y < x then some .gt else if x == y then some .eq else none

/-- An integer as a number with fraction. -/
def floatOfInt (i : Int) : Double :=
  Double.withSign (i < 0) (Double.ofRatio i.natAbs 1)

/-- Order of two texts by code points. -/
def compareTexts (a b : String) : Ordering := if a < b then .lt else if a = b then .eq else .gt

def compareInts (a b : Int) : Ordering := if a < b then .lt else if a = b then .eq else .gt

/-- The order of two values, where they have one: numbers among each other, texts and characters
among each other, Booleans. -/
def order? : Value → Value → Option Ordering
  | .integer a, .integer b => some (compareInts a b)
  | .float a, .float b => compareFloats a b
  | .integer a, .float b => compareFloats (floatOfInt a) b
  | .float a, .integer b => compareFloats a (floatOfInt b)
  | .string a, .string b => some (compareTexts a b)
  | .char a, .char b => some (compareInts a.toNat b.toNat)
  | .string a, .char b => some (compareTexts a b.toString)
  | .char a, .string b => some (compareTexts a.toString b)
  | .bool a, .bool b => some (compareInts a.toNat b.toNat)
  | _, _ => none

mutual

/-- Whether two values are equal.  Values of different types are not, numbers and texts apart. -/
def same : Value → Value → Bool
  | .unit, .unit => true
  | .array a, .array b => sameItems a b
  | .object a, .object b => sameFields a b
  | .range a b c, .range a' b' c' => a = a' && b = b' && c = c'
  | a, b => order? a b = some .eq

def sameItems : List Value → List Value → Bool
  | [], [] => true
  | a :: as, b :: bs => same a b && sameItems as bs
  | _, _ => false

def sameFields : List (String × Value) → List (String × Value) → Bool
  | [], [] => true
  | (n, a) :: as, (m, b) :: bs => n == m && same a b && sameFields as bs
  | _, _ => false

end

/-! ## Size -/

/-- How much data a value holds: items of arrays, fields of objects, bytes of texts. -/
structure Size where
  items : Nat
  fields : Nat
  bytes : Nat

def Size.zero : Size := ⟨0, 0, 0⟩

def Size.add (a b : Size) : Size := ⟨a.items + b.items, a.fields + b.fields, a.bytes + b.bytes⟩

mutual

/-- The size of a value with all it contains. -/
def size : Value → Size
  | .string s => ⟨0, 0, s.utf8ByteSize⟩
  | .array items => (sizeItems items).add ⟨items.length, 0, 0⟩
  | .object fields => (sizeFields fields).add ⟨0, fields.length, 0⟩
  | _ => .zero

def sizeItems : List Value → Size
  | [] => .zero
  | v :: rest => (size v).add (sizeItems rest)

def sizeFields : List (String × Value) → Size
  | [] => .zero
  | (_, v) :: rest => (size v).add (sizeFields rest)

end

/-! ## Objects -/

/-- Put a field at its place by name, over one of the same name. -/
def putField (name : String) (value : Value) : List (String × Value) → List (String × Value)
  | [] => [(name, value)]
  | (n, v) :: rest =>
    if name < n then (name, value) :: (n, v) :: rest
    else if name = n then (name, value) :: rest
    else (n, v) :: putField name value rest

/-- The object of a field list in any order. -/
def ofFields (fields : List (String × Value)) : Value :=
  .object (fields.foldl (fun acc f => putField f.1 f.2 acc) [])

/-- The position of an index that counts from the end when negative. -/
def position? (length : Nat) (i : Int) : Option Nat :=
  if 0 ≤ i then if i < length then some i.toNat else none
  else if -(length : Int) ≤ i then some (length + i).toNat else none

end Value

end StoreSync.Script
