import StoreSync.Expression.Evaluator
import StoreSync.Script.Evaluation

/-!
# Scripts as expressions

An expression of a policy is a script that sees the entities of a unit as constants.  A library
is a script that goes before every expression: it runs first, and its functions can be called.

The values of an attribute can be reached by its name as it is written and by its folded name.
-/

namespace StoreSync.Script

namespace Limits

/-- The limits for expressions of policies. -/
def standard : Limits :=
  { textBytes := 65536, arrayItems := 10000, objectFields := 10000, operations := 100000,
    depth := 64 }

/-- A depth of recursion that no evaluation within the limits reaches: between two operations
the recursion descends by a few levels, and along a chain of accesses. -/
def fuel (l : Limits) (textLength : Nat) : Nat :=
  if l.operations = 0 then 0x1000000000000000 else 8 * (l.operations + textLength + 2)

end Limits

/-! ## Bindings -/

/-- The names that an expression can use. -/
def bindingNames : List String :=
  ["source", "destination", "source_values", "destination_values", "source_attribute",
    "destination_attribute", "source_identifier", "destination_identifier"]

def ofTexts (ts : List String) : Value := .array (ts.map .string)

/-- An object with a field under the name and the folded name of every attribute. -/
def ofAttributes (f : Attribute → Value) (e : Entity) : Value :=
  .ofFields (e.attributeList.flatMap fun a => [(Text.fold a.name, f a), (a.name, f a)])

/-- The first value of every attribute. -/
def firstValues : Option Entity → Value
  | none => .unit
  | some e => ofAttributes (fun a => a.first?.elim .unit .string) e

/-- All values of every attribute. -/
def allValues : Option Entity → Value
  | none => .object []
  | some e => ofAttributes (fun a => ofTexts a.texts) e

def identifierValue (e : Option Entity) : Value := (e.bind (·.identifier)).elim .unit .string

/-- The constants that stand for some bindings. -/
def constants (b : Bindings) : List Variable :=
  (bindingNames.zip [firstValues b.source, firstValues b.destination, allValues b.source,
    allValues b.destination, ofTexts b.sourceAttribute, ofTexts b.destinationAttribute,
    identifierValue b.source, identifierValue b.destination]).map fun (name, v) => ⟨name, true, v⟩

/-! ## Evaluation -/

/-- Run a script in which some variables are bound. -/
def run (limits : Limits) (fuel : Nat) (frame : List Variable) (s : Program) :
    Except Failure Value :=
  match evalBody fuel ⟨limits, s.functions, 0⟩ s.body ⟨frame, 0⟩ with
  | .ok v _ => .ok v
  | .error (.answer v) _ => .ok v
  | .error (.failure f) _ => .error f
  | .error _ _ => .error .misplaced

/-- A library: its text, which bounds what it can nest, and the script that it is. -/
structure Library where
  text : String
  script : Program

namespace Library

def empty : Library := ⟨"", ⟨[], []⟩⟩

/-- Read a library, in which nothing is bound. -/
def read (limits : Limits) (text : String) : Except SyncError Library :=
  match parse limits.toLimits [] text with
  | .ok s => .ok ⟨text, s⟩
  | .error p => .error (.configuration ("library script: " ++ place p))
where
  place (p : Position) : String :=
    "fault at line " ++ toString p.line ++ ", column " ++ toString p.column

end Library

/-- The value of an expression. -/
def value (limits : Limits) (library : Library) (expression : String) (b : Bindings) :
    Except SyncError Value :=
  match parse limits.toLimits bindingNames expression with
  | .error p => .error (.evaluation expression ("Compilation error: " ++ Library.read.place p))
  | .ok s =>
    let fuel := limits.fuel (library.text.length + expression.length)
    match run limits fuel (constants b) (library.script.append s) with
    | .ok v => .ok v
    | .error f => .error (.evaluation expression ("Runtime error: " ++ f.message))

/-- The truth value of a condition.  Texts that read `true` and `false` are accepted. -/
def truthOf (expression : String) : Value → Except SyncError Bool
  | .bool b => .ok b
  | .string s =>
    if Text.sameAsciiFolded s "true" then .ok true
    else if Text.sameAsciiFolded s "false" then .ok false
    else .error (.evaluation expression "expected a boolean, got string")
  | v => .error (.evaluation expression ("expected a boolean, got " ++ v.typeName))

/-- The texts that a value stands for; what is empty is left out. -/
def textsOf (v : Value) : List String :=
  let all := match v with
    | .array items => items.map Value.display
    | v => [v.display]
  all.filter (· ≠ "")

/-- Scripts as meaning of expressions. -/
def evaluator (limits : Limits) (library : Library) : Evaluator where
  evalBool expression b := do truthOf expression (← value limits library expression b)
  evalTexts expression b := do return textsOf (← value limits library expression b)

/-- The place of the first fault of an expression that can be found without running it. -/
def fault? (limits : Limits) (expression : String) : Option Position :=
  match parse limits.toLimits bindingNames expression with
  | .ok _ => none
  | .error p => some p

end StoreSync.Script
