import StoreSync.Script.Operator
import StoreSync.Text.Blank
import StoreSync.Text.Case

/-!
# Functions of the expression language

A function gets its arguments and answers a value.  Some functions change their first argument in
place; they answer its new value too.  Counts and indices of texts are in characters.
-/

namespace StoreSync.Script.Builtin

/-- The answer of a function: its value, and the new first argument if that was changed. -/
structure Answer where
  value : Value
  changed : Option Value

abbrev Result := Except Failure Answer

def plain (v : Value) : Result := .ok ⟨v, none⟩

/-- A new first argument, and nothing as value. -/
def update (v : Value) : Result := .ok ⟨.unit, some v⟩

def unknown (name : String) : Result := .error (.noFunction name)

/-! ## Texts -/

/-- The place of a word at or after a position, counted in characters. -/
def find? (word : List Char) : Nat → List Char → Option Nat
  | n, [] => if word.isEmpty then some n else none
  | n, c :: rest => if word.isPrefixOf (c :: rest) then some n else find? word (n + 1) rest

/-- Cut a text at every occurrence of a word that is not empty. -/
def cut (word : List Char) : Nat → List Char → List Char → List (List Char)
  | 0, acc, cs => [acc.reverse ++ cs]
  | _, acc, [] => [acc.reverse]
  | fuel + 1, acc, c :: rest =>
    if word.isPrefixOf (c :: rest) then
      acc.reverse :: cut word fuel [] ((c :: rest).drop word.length)
    else cut word fuel (c :: acc) rest

/-- Split a text at a word; the empty word stands around every character. -/
def splitAt (word text : List Char) : List (List Char) :=
  if word.isEmpty then [] :: text.map ([·]) ++ [[]]
  else cut word (text.length + 1) [] text

/-- Put a word in place of every occurrence of another. -/
def replaceAll (old new text : List Char) : List Char :=
  if old.isEmpty then
    new ++ text.flatMap fun c => c :: new
  else new.intercalate (cut old (text.length + 1) [] text)

/-- The words between blanks. -/
def blankSeparated (cs : List Char) : List (List Char) :=
  (cs.splitBy fun a b => Text.isBlank a == Text.isBlank b).filter fun w =>
    !(w.head?.any Text.isBlank)

def textOf (cs : List Char) : Value := .string (String.ofList cs)

/-- The characters of a text or of a single character. -/
def chars? : Value → Option (List Char)
  | .string s => some s.toList
  | .char c => some [c]
  | _ => none

/-- Where a start counted from the end when negative lies; before the text it is its start. -/
def offset? (length : Nat) (start : Int) : Option Nat :=
  if start < 0 then some (length - start.natAbs)
  else if start < length then some start.toNat
  else none

/-- The characters from a start on, at most `count` of them. -/
def subString (cs : List Char) (start count : Int) : List Char :=
  if count ≤ 0 then []
  else match offset? cs.length start with
    | some n => (cs.drop n).take count.toNat
    | none => []

/-- The digits of a number in a base up to 36. -/
def digitIn? (base : Nat) (c : Char) : Option Nat :=
  let n :=
    if '0' ≤ c ∧ c ≤ '9' then c.toNat - 48
    else if 'a' ≤ c ∧ c ≤ 'z' then c.toNat - 87
    else if 'A' ≤ c ∧ c ≤ 'Z' then c.toNat - 55
    else base
  if n < base then some n else none

/-- Read an integer in a base; blanks around it do not count. -/
def parseInt (s : String) (base : Nat) : Result :=
  let cs := Text.trimChars s.toList
  let (negative, ds) := match cs with
    | '-' :: ds => (true, ds)
    | '+' :: ds => (false, ds)
    | ds => (false, ds)
  let value := ds.foldl (fun acc c => do
    let n ← acc
    return n * base + (← digitIn? base c)) (if ds.isEmpty then none else some 0)
  match value with
  | some n =>
    let i : Int := if negative then -n else n
    if Text.FitsInt64 i then plain (.integer i) else .error (.notANumber s)
  | none => .error (.notANumber s)

/-- Read a number with fraction; blanks around it do not count. -/
def parseFloat (s : String) : Result :=
  let cs := Text.trimChars s.toList
  let (negative, cs) := match cs with
    | '-' :: ds => (true, ds)
    | '+' :: ds => (false, ds)
    | ds => (false, ds)
  let digit := fun c : Char => '0' ≤ c && c ≤ '9'
  let value := fun ds : List Char => ds.foldl (fun n c => 10 * n + (c.toNat - 48)) 0
  let whole := cs.takeWhile digit
  let rest := cs.dropWhile digit
  let (fraction, rest) := match rest with
    | '.' :: rest => (rest.takeWhile digit, rest.dropWhile digit)
    | rest => ([], rest)
  let exponent : Option Int := match rest with
    | [] => some 0
    | e :: rest =>
      if e ≠ 'e' ∧ e ≠ 'E' then none
      else
        let (negative, ds) := match rest with
          | '-' :: ds => (true, ds)
          | '+' :: ds => (false, ds)
          | ds => (false, ds)
        if ds.isEmpty ∨ !ds.all digit then none
        else some (if negative then -(value ds : Int) else value ds)
  match exponent with
  | some e =>
    if whole.isEmpty ∧ fraction.isEmpty then .error (.notANumber s)
    else plain (.float
      (Decimal.Double.ofDecimal negative (value (whole ++ fraction)) (e - fraction.length)))
  | none => .error (.notANumber s)

/-! ## Calls -/

/-- The functions on a text, by name and further arguments. -/
def onText (name : String) (s : String) (args : List Value) : Result :=
  let cs := s.toList
  match name, args with
  | "len", [] => plain (.integer cs.length)
  | "is_empty", [] => plain (.bool cs.isEmpty)
  | "bytes", [] => plain (.integer s.utf8ByteSize)
  | "starts_with", [.string t] => plain (.bool (t.toList.isPrefixOf cs))
  | "ends_with", [.string t] => plain (.bool (t.toList.isSuffixOf cs))
  | "contains", [v] => (Value.contains (.string s) v).map fun b => ⟨.bool b, none⟩
  | "index_of", [v] => indexOf v 0
  | "index_of", [v, .integer start] =>
    match offset? cs.length start with
    | some n => indexOf v n
    | none => plain (.integer (-1))
  | "sub_string", [.integer a] => plain (textOf (subString cs a cs.length))
  | "sub_string", [.integer a, .integer n] => plain (textOf (subString cs a n))
  | "sub_string", [.range a b closed] =>
    let a := max a 0
    plain (textOf (subString cs a (max b a - a + if closed then 1 else 0)))
  | "split", [] => plain (.array ((blankSeparated cs).map textOf))
  | "split", [.integer i] =>
    let n := if i < 0 then cs.length - i.natAbs else i.toNat
    plain (.array [textOf (cs.take n), textOf (cs.drop n)])
  | "split", [v] =>
    match chars? v with
    | some word => plain (.array ((splitAt word cs).map textOf))
    | none => unknown name
  | "replace", [a, b] =>
    match chars? a, chars? b with
    | some old, some new => update (textOf (replaceAll old new cs))
    | _, _ => unknown name
  | "trim", [] => update (textOf (Text.trimChars cs))
  | "to_upper", [] => plain (.string (Text.upper s))
  | "to_lower", [] => plain (.string (Text.fold s))
  | "make_upper", [] => update (.string (Text.upper s))
  | "make_lower", [] => update (.string (Text.fold s))
  | "clear", [] => update (.string "")
  | "parse_int", [] => parseInt s 10
  | "parse_int", [.integer base] =>
    if 2 ≤ base ∧ base ≤ 36 then parseInt s base.toNat else .error (.notANumber s)
  | "parse_float", [] => parseFloat s
  | "log_info", [] | "log_warn", [] | "log_debug", [] => plain .unit
  | _, _ => unknown name
where
  /-- The place of a text or character from a position on, or minus one. -/
  indexOf (v : Value) (start : Nat) : Result :=
    match chars? v with
    | some word =>
      match if s.isEmpty then none else find? word start (s.toList.drop start) with
      | some n => plain (.integer n)
      | none => plain (.integer (-1))
    | none => unknown "index_of"

/-- The functions on an array. -/
def onArray (name : String) (items : List Value) (args : List Value) : Result :=
  match name, args with
  | "len", [] => plain (.integer items.length)
  | "is_empty", [] => plain (.bool items.isEmpty)
  | "contains", [v] => plain (.bool (items.any (Value.same v)))
  | "index_of", [v] => indexOf v 0
  | "index_of", [v, .integer start] =>
    match offset? items.length start with
    | some n => indexOf v n
    | none => plain (.integer (-1))
  | "push", [v] => update (.array (items ++ [v]))
  | "append", [.array more] => update (.array (items ++ more))
  | "insert", [.integer i, v] =>
    let n := if i < 0 then items.length - i.natAbs else min i.toNat items.length
    update (.array (items.take n ++ v :: items.drop n))
  | "pop", [] => .ok ⟨items.getLast?.getD .unit, some (.array items.dropLast)⟩
  | "shift", [] => .ok ⟨items.head?.getD .unit, some (.array items.tail)⟩
  | "remove", [.integer i] =>
    match Value.position? items.length i with
    | some n => .ok ⟨items[n]?.getD .unit, some (.array (items.eraseIdx n))⟩
    | none => .ok ⟨.unit, some (.array items)⟩
  | "reverse", [] => update (.array items.reverse)
  | "truncate", [.integer n] => update (.array (items.take n.toNat))
  | "clear", [] => update (.array [])
  | _, _ => unknown name
where
  indexOf (v : Value) (start : Nat) : Result :=
    match (items.drop start).findIdx? (Value.same v) with
    | some n => plain (.integer (start + n))
    | none => plain (.integer (-1))

/-- The functions on an object. -/
def onObject (name : String) (fields : List (String × Value)) (args : List Value) : Result :=
  match name, args with
  | "len", [] => plain (.integer fields.length)
  | "is_empty", [] => plain (.bool fields.isEmpty)
  | "contains", [.string s] => plain (.bool (fields.any (·.1 == s)))
  | "keys", [] => plain (.array (fields.map fun f => .string f.1))
  | "values", [] => plain (.array (fields.map (·.2)))
  | "remove", [.string s] =>
    .ok ⟨(fields.lookup s).getD .unit, some (.object (fields.filter (·.1 != s)))⟩
  | "clear", [] => update (.object [])
  | _, _ => unknown name

/-- The functions on a number. -/
def onNumber (name : String) (v : Value) (args : List Value) : Result :=
  match name, v, args with
  | "abs", .integer i, [] => (Value.checked i.natAbs).map fun v => ⟨v, none⟩
  | "abs", .float d, [] => plain (.float (if d.isNegative then d.neg else d))
  | "sign", .integer i, [] => plain (.integer i.sign)
  | "to_float", .integer i, [] => plain (.float (Value.floatOfInt i))
  | "to_float", .float d, [] => plain (.float d)
  | "to_int", .integer i, [] => plain (.integer i)
  | "to_int", .float d, [] =>
    let (n, den) := d.ratio
    let i : Int := if d.isNegative then -((n / den : Nat) : Int) else (n / den : Nat)
    if d.isFinite then (Value.checked i).map fun v => ⟨v, none⟩ else .error .overflow
  | "min", .integer i, [.integer j] => plain (.integer (min i j))
  | "max", .integer i, [.integer j] => plain (.integer (max i j))
  | _, _, _ => unknown name

/-- A character in another case, when that is one character. -/
def onChar (name : String) (c : Char) (args : List Value) : Result :=
  match name, args with
  | "to_upper", [] => single (Text.upperChar c)
  | "to_lower", [] => single (Text.lowerChar c)
  | "to_int", [] => plain (.integer c.toNat)
  | _, _ => unknown name
where
  single : List Char → Result
    | [d] => plain (.char d)
    | _ => plain (.char c)

/-- Call a function by name. -/
def call (name : String) : List Value → Result
  | [] => unknown name
  | v :: args =>
    match name, args with
    | "type_of", [] => plain (.string v.typeName)
    | "to_string", [] => plain (.string v.display)
    | "to_debug", [] => plain (.string v.quoted)
    | "print", [] | "debug", [] => plain .unit
    | _, _ =>
      match v with
      | .string s => onText name s args
      | .array items => onArray name items args
      | .object fields => onObject name fields args
      | .integer _ | .float _ => onNumber name v args
      | .char c => onChar name c args
      | .range _ _ _ =>
        match name, args with
        | "contains", [i] => (Value.contains v i).map fun b => ⟨.bool b, none⟩
        | _, _ => unknown name
      | _ => unknown name

/-- The properties that are computed. -/
def property (v : Value) (name : String) : Except Failure Value :=
  match v, name with
  | .object fields, _ => .ok ((fields.lookup name).getD .unit)
  | .string _, "len" | .string _, "is_empty" | .string _, "bytes" | .array _, "len"
  | .array _, "is_empty" => (call name [v]).map (·.value)
  | _, _ => .error (.noProperty name)

/-- The part of a value at an index. -/
def index (v i : Value) : Except Failure Value :=
  match v, i with
  | .array items, .integer n =>
    match (Value.position? items.length n).bind (items[·]?) with
    | some w => .ok w
    | none => .error .outOfRange
  | .string s, .integer n =>
    let cs := s.toList
    match (Value.position? cs.length n).bind (cs[·]?) with
    | some c => .ok (.char c)
    | none => .error .outOfRange
  | .object fields, .string name => .ok ((fields.lookup name).getD .unit)
  | _, _ => .error .badIndex

/-- Put a new part at an index. -/
def setIndex (v i new : Value) : Except Failure Value :=
  match v, i with
  | .array items, .integer n =>
    match Value.position? items.length n with
    | some k => .ok (.array (items.set k new))
    | none => .error .outOfRange
  | .string s, .integer n =>
    match Value.position? s.toList.length n, new with
    | some k, .char c => .ok (textOf (s.toList.set k c))
    | _, _ => .error .badIndex
  | .object fields, .string name => .ok (.object (Value.putField name new fields))
  | _, _ => .error .badIndex

end StoreSync.Script.Builtin
