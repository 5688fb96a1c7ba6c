import StoreSync.Json.Basic
import StoreSync.Text.Integer

/-!
# Reading data values

A text is cut into tokens, and the tokens are fed one by one to a machine with a stack of open
arrays and objects.  The machine recurses on the token list, so it needs no bound of its own.
Fewer than 128 arrays and objects may be open at once.
-/

namespace StoreSync.Json

/-- The words of the notation. -/
inductive Token where
  | openArray
  | closeArray
  | openObject
  | closeObject
  | comma
  | colon
  /-- A null, Boolean, number or text. -/
  | scalar (value : Json)

/-! ## Texts -/

/-- The code of four hexadecimal digits. -/
def hexCode? (a b c d : Char) : Option Nat := do
  return 4096 * (← Text.hexDigit? a) + 256 * (← Text.hexDigit? b) + 16 * (← Text.hexDigit? c) +
    (← Text.hexDigit? d)

def simpleEscape? (c : Char) : Option Char :=
  match c with
  | '"' => some '"'
  | '\\' => some '\\'
  | '/' => some '/'
  | 'b' => some '\x08'
  | 'f' => some '\x0c'
  | 'n' => some '\n'
  | 'r' => some '\r'
  | 't' => some '\t'
  | _ => none

/-- The rest of a quoted text, with the characters read so far in reverse.  Characters beyond the
basic plane may be written as two halves, which must stand together. -/
def readString (acc : List Char) : List Char → Option (String × List Char)
  | [] => none
  | '"' :: rest => some (String.ofList acc.reverse, rest)
  | '\\' :: 'u' :: a :: b :: c :: d :: rest =>
    match hexCode? a b c d with
    | none => none
    | some high =>
      if 0xDC00 ≤ high ∧ high ≤ 0xDFFF then none
      else if 0xD800 ≤ high ∧ high ≤ 0xDBFF then
        match rest with
        | '\\' :: 'u' :: e :: f :: g :: h :: rest =>
          match hexCode? e f g h with
          | none => none
          | some low =>
            if 0xDC00 ≤ low ∧ low ≤ 0xDFFF then
              readString
                (Char.ofNat (0x10000 + (high - 0xD800) * 0x400 + (low - 0xDC00)) :: acc) rest
            else none
        | _ => none
      else readString (Char.ofNat high :: acc) rest
  | '\\' :: c :: rest =>
    match simpleEscape? c with
    | none => none
    | some c => readString (c :: acc) rest
  | c :: rest => if c.toNat < 32 then none else readString (c :: acc) rest

/-! ## Numbers -/

def isDigit (c : Char) : Bool := '0' ≤ c && c ≤ '9'

/-- A number while it is read: significand, and the decimal exponent it stands at.  Digits that
no longer fit into 64 bits are dropped; before the point they still count for the exponent. -/
structure Mantissa where
  significand : Nat
  exponent : Int

/-- Take up one digit while the significand stays within 64 bits. -/
def Mantissa.push? (m : Mantissa) (c : Char) : Option Nat :=
  let next := 10 * m.significand + (c.toNat - 48)
  if next < 0x10000000000000000 then some next else none

/-- Digits before the point. -/
def Mantissa.whole : Mantissa → List Char → Mantissa
  | m, [] => m
  | m, c :: rest =>
    match m.exponent, m.push? c with
    | 0, some s => Mantissa.whole ⟨s, 0⟩ rest
    | _, _ => Mantissa.whole ⟨m.significand, m.exponent + 1⟩ rest

/-- Digits after the point, up to the first that no longer fits. -/
def Mantissa.decimals : Mantissa → List Char → Mantissa
  | m, [] => m
  | m, c :: rest =>
    match m.push? c with
    | some s => Mantissa.decimals ⟨s, m.exponent - 1⟩ rest
    | none => m

/-- Split off the digits at the front. -/
def digits (cs : List Char) : List Char × List Char := (cs.takeWhile isDigit, cs.dropWhile isDigit)

/-- The value of a digit sequence. -/
def natOfDigits (ds : List Char) : Nat := ds.foldl (fun n c => 10 * n + (c.toNat - 48)) 0

/-- The exponent part behind an `e`: its value and what follows it. -/
def readExponent (cs : List Char) : Option (Int × List Char) :=
  let (negative, cs) := match cs with
    | '+' :: rest => (false, rest)
    | '-' :: rest => (true, rest)
    | rest => (false, rest)
  match digits cs with
  | ([], _) => none
  | (ds, rest) => some (if negative then -(natOfDigits ds : Int) else natOfDigits ds, rest)

/-- The fraction of a mantissa and an explicit exponent.  An exponent beyond 32 bits leaves only
zero or nothing. -/
def fraction? (negative : Bool) (m : Mantissa) (exponent : Int) : Option Json :=
  if 0x80000000 ≤ exponent then
    if m.significand = 0 then some (.number (.fraction (Decimal.Double.withSign negative ⟨0⟩)))
    else none
  else if exponent ≤ -0x80000000 then
    some (.number (.fraction (Decimal.Double.withSign negative ⟨0⟩)))
  else
    (Decimal.Double.ofScaled? negative m.significand (m.exponent + exponent)).map
      fun d => .number (.fraction d)

/-- A number without its sign, and what follows it.  Without point and exponent it is an integer
as long as it fits into 64 bits; minus zero is a fraction. -/
def readNumber (negative : Bool) (cs : List Char) : Option (Json × List Char) := do
  let (ds, rest) := digits cs
  match ds with
  | [] => none
  | '0' :: _ :: _ => none
  | _ =>
    let m := Mantissa.whole ⟨0, 0⟩ ds
    match rest with
    | '.' :: rest =>
      let (ds, rest) := digits rest
      if ds.isEmpty then none
      else
        let m := m.decimals ds
        match rest with
        | c :: rest' =>
          if c = 'e' ∨ c = 'E' then do
            let (e, rest) ← readExponent rest'
            return (← fraction? negative m e, rest)
          else return (← fraction? negative m 0, rest)
        | [] => return (← fraction? negative m 0, [])
    | c :: rest' =>
      if c = 'e' ∨ c = 'E' then do
        let (e, rest) ← readExponent rest'
        return (← fraction? negative m e, rest)
      else whole m rest
    | [] => whole m []
where
  /-- The number when neither point nor exponent follows. -/
  whole (m : Mantissa) (rest : List Char) : Option (Json × List Char) := do
    if m.exponent ≠ 0 then return (← fraction? negative m 0, rest)
    else if !negative then return (.number (.integer m.significand), rest)
    else if m.significand = 0 ∨ 0x8000000000000000 < m.significand then
      let magnitude := Decimal.Double.ofRatio m.significand 1
      return (.number (.fraction (Decimal.Double.withSign true magnitude)), rest)
    else return (.number (.integer (-(m.significand : Int))), rest)

/-! ## Tokens -/

def isSpace (c : Char) : Bool := c = ' ' || c = '\n' || c = '\t' || c = '\r'

/-- The token at the front of a text that starts with no blank, and what follows it. -/
def readToken : List Char → Option (Token × List Char)
  | '[' :: rest => some (.openArray, rest)
  | ']' :: rest => some (.closeArray, rest)
  | '\x7b' :: rest => some (.openObject, rest)
  | '\x7d' :: rest => some (.closeObject, rest)
  | ',' :: rest => some (.comma, rest)
  | ':' :: rest => some (.colon, rest)
  | 'n' :: 'u' :: 'l' :: 'l' :: rest => some (.scalar .null, rest)
  | 't' :: 'r' :: 'u' :: 'e' :: rest => some (.scalar (.boolean true), rest)
  | 'f' :: 'a' :: 'l' :: 's' :: 'e' :: rest => some (.scalar (.boolean false), rest)
  | '"' :: rest => (readString [] rest).map fun (s, rest) => (.scalar (.string s), rest)
  | '-' :: rest => (readNumber true rest).map fun (n, rest) => (.scalar n, rest)
  | cs => (readNumber false cs).map fun (n, rest) => (.scalar n, rest)

/-- All tokens of a text.  Every token takes a character, so the length of the text bounds their
number. -/
def tokensWithin : Nat → List Char → Option (List Token)
  | 0, cs => if (cs.dropWhile isSpace).isEmpty then some [] else none
  | fuel + 1, cs =>
    match cs.dropWhile isSpace with
    | [] => some []
    | cs => do
      let (token, rest) ← readToken cs
      return token :: (← tokensWithin fuel rest)

def tokens (cs : List Char) : Option (List Token) := tokensWithin cs.length cs

/-! ## The stack machine -/

/-- An open array with its items so far, or an open object with its members so far and the name
of the member that is being read; newest first. -/
inductive Frame where
  | array (items : List Json)
  | object (fields : List (String × Json)) (name : String)

/-- What may come next. -/
inductive Expected where
  /-- A value. -/
  | value
  /-- The first item of the innermost array, or its end. -/
  | firstItem
  /-- The first name of a new object, or its end. -/
  | firstName
  /-- A further name of an object. -/
  | name (fields : List (String × Json))
  /-- The colon behind a name. -/
  | colonAfter (fields : List (String × Json)) (name : String)
  /-- The comma or end behind a finished value. -/
  | afterValue (value : Json)

/-- Arrays and objects that may be open at once. -/
def depthLimit : Nat := 127

/-- Run the machine over the tokens. -/
def run (stack : List Frame) : Expected → List Token → Option Json
  | .afterValue v, [] => if stack.isEmpty then some v else none
  | _, [] => none
  | expected, token :: rest =>
    match expected, token, stack with
    | .firstItem, .closeArray, .array items :: stack =>
      run stack (.afterValue (.array items.reverse)) rest
    | .value, .scalar v, stack => run stack (.afterValue v) rest
    | .firstItem, .scalar v, stack => run stack (.afterValue v) rest
    | .value, .openArray, stack => opened (.array []) .firstItem stack rest
    | .firstItem, .openArray, stack => opened (.array []) .firstItem stack rest
    | .value, .openObject, stack => opened (.object [] "") .firstName stack rest
    | .firstItem, .openObject, stack => opened (.object [] "") .firstName stack rest
    | .firstName, .closeObject, .object _ _ :: stack => run stack (.afterValue (.members [])) rest
    | .firstName, .scalar (.string name), .object _ _ :: stack =>
      run stack (.colonAfter [] name) rest
    | .name fields, .scalar (.string name), stack => run stack (.colonAfter fields name) rest
    | .colonAfter fields name, .colon, stack => run (.object fields name :: stack) .value rest
    | .afterValue v, .comma, .array items :: stack => run (.array (v :: items) :: stack) .value rest
    | .afterValue v, .closeArray, .array items :: stack =>
      run stack (.afterValue (.array (v :: items).reverse)) rest
    | .afterValue v, .comma, .object fields name :: stack =>
      run stack (.name ((name, v) :: fields)) rest
    | .afterValue v, .closeObject, .object fields name :: stack =>
      run stack (.afterValue (Json.object ((name, v) :: fields).reverse)) rest
    | _, _, _ => none
where
  /-- Open one more array or object. -/
  opened (frame : Frame) (expected : Expected) (stack : List Frame) (rest : List Token) :
      Option Json :=
    if stack.length < depthLimit then run (frame :: stack) expected rest else none

/-- Read a value from a whole text. -/
def parse? (text : String) : Option Json := do
  let ts ← tokens text.toList
  run [] .value ts

end StoreSync.Json
