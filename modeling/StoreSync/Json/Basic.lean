import StoreSync.Decimal.Shortest

/-!
# Data values

The values that configuration, records and reports are exchanged in: null, Booleans, numbers,
texts, arrays and objects.  An object is a list of members with ascending, distinct names;
`Json.object` brings any member list into that form, and of two members with one name the later
one counts.
-/

namespace StoreSync

open Decimal (Double)

/-- A number: an integer of 64 bits, signed or unsigned, or a binary fraction. -/
inductive JsonNumber where
  | integer (value : Int)
  | fraction (value : Double)
deriving DecidableEq, Repr

/-- A data value. -/
inductive Json where
  | null
  | boolean (value : Bool)
  | number (value : JsonNumber)
  | string (value : String)
  | array (items : List Json)
  | members (fields : List (String × Json))
deriving Repr

instance : Inhabited Json := ⟨.null⟩

/-- Number text: integers in decimal, fractions in their shortest form. -/
def JsonNumber.text : JsonNumber → String
  | .integer i => toString i
  | .fraction d => d.dataText

namespace Json

/-- Put a member at its place by name, over one of the same name. -/
def putMember (name : String) (value : Json) : List (String × Json) → List (String × Json)
  | [] => [(name, value)]
  | (n, v) :: rest =>
    if name < n then (name, value) :: (n, v) :: rest
    else if name = n then (name, value) :: rest
    else (n, v) :: putMember name value rest

/-- The object of a member list in any order. -/
def object (fields : List (String × Json)) : Json :=
  .members (fields.foldl (fun acc f => putMember f.1 f.2 acc) [])

def ofInt (i : Int) : Json := .number (.integer i)

def ofNat (n : Nat) : Json := ofInt n

def ofOption {α : Type} (f : α → Json) : Option α → Json
  | none => .null
  | some a => f a

def ofStrings (texts : List String) : Json := .array (texts.map .string)

/-- The member of an object under a name. -/
def get? (name : String) : Json → Option Json
  | .members fields => fields.lookup name
  | _ => none

mutual

/-- Nesting depth of a data value. -/
def depth : Json → Nat
  | .array items => depthItems items + 1
  | .members fields => depthMembers fields + 1
  | _ => 1

def depthItems : List Json → Nat
  | [] => 0
  | j :: rest => max (depth j) (depthItems rest)

def depthMembers : List (String × Json) → Nat
  | [] => 0
  | (_, j) :: rest => max (depth j) (depthMembers rest)

end

def isNull : Json → Bool
  | .null => true
  | _ => false

def string? : Json → Option String
  | .string s => some s
  | _ => none

def boolean? : Json → Option Bool
  | .boolean b => some b
  | _ => none

def integer? : Json → Option Int
  | .number (.integer i) => some i
  | _ => none

def array? : Json → Option (List Json)
  | .array items => some items
  | _ => none

end Json

end StoreSync
