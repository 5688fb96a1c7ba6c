import StoreSync.Script.Builtin
import StoreSync.Script.Parser

/-!
# Evaluation of scripts

A run of a script changes variables and counts operations.  Every term counts as one operation,
and a run that needs more than its limit fails, so a bound on the depth of the recursion that
exceeds the limit is never what ends a run.

## Constants

Variables declared constant, and everything bound outside of the script, cannot change, nor can
what is reached through them.  A value taken out of a constant by `let` is a value of its own.
A function that changes its first argument does so to a variable named as that argument; called
on anything else, it changes a copy.

## Functions

A function of the script sees nothing but its arguments and, called as a method, `this`.  It goes
before a built-in function of the same name.
-/

namespace StoreSync.Script

/-- Bounds on an evaluation.  Zero operations and zero sizes mean no bound. -/
structure Limits extends Parser.Limits where
  operations : Nat
  /-- How many calls of functions of the script may be nested. -/
  depth : Nat

/-- A variable with its value. -/
structure Variable where
  name : String
  constant : Bool
  value : Value

/-- What a run changes: the variables, innermost first, and the number of operations. -/
structure Memory where
  frame : List Variable
  operations : Nat

/-- Why a term has no value. -/
inductive Exit where
  /-- The loop around it is left with a value. -/
  | leave (value : Value)
  /-- The loop around it goes on with its next turn. -/
  | next
  /-- The function or script around it answers a value. -/
  | answer (value : Value)
  | failure (cause : Failure)

/-- A computation that may change the memory and may end early. -/
abbrev Run := EStateM Exit Memory

/-- What stays the same while a function runs. -/
structure Context where
  limits : Limits
  functions : List Function
  /-- How many calls this one is nested in. -/
  level : Nat

/-- An access to a part of a value, or a method call, with its indices and arguments evaluated. -/
inductive Access where
  | property (name : String) (safe : Bool)
  | index (place : Value) (safe : Bool)
  | method (name : String) (arguments : List Value) (safe : Bool)

/-- What a loop runs over. -/
inductive Sequence where
  | items (values : List Value)
  /-- So many integers from the first on. -/
  | integers (first : Int) (count : Nat)

namespace Sequence

def next? : Sequence → Option (Value × Sequence)
  | .items [] => none
  | .items (v :: rest) => some (v, .items rest)
  | .integers _ 0 => none
  | .integers i (n + 1) => some (.integer i, .integers (i + 1) n)

/-- What a value offers to a loop. -/
def ofValue? : Value → Option Sequence
  | .array vs => some (.items vs)
  | .string s => some (.items (s.toList.map .char))
  | .range a b closed => some (.integers a (b - a + if closed then 1 else 0).toNat)
  | _ => none

end Sequence

namespace Run

def fail {α : Type} (f : Failure) : Run α := throw (.failure f)

def lift {α : Type} : Except Failure α → Run α
  | .ok a => pure a
  | .error f => fail f

/-- Count an operation. -/
def count (c : Context) : Run Unit := do
  let m ← get
  if c.limits.operations ≠ 0 ∧ c.limits.operations ≤ m.operations then fail .tooManyOperations
  else set { m with operations := m.operations + 1 }

/-- Whether a value keeps within the limits on sizes. -/
def fits (l : Parser.Limits) (v : Value) : Bool :=
  let size := v.size
  within l.textBytes size.bytes && within l.arrayItems size.items &&
    within l.objectFields size.fields
where
  within (limit n : Nat) : Bool := limit = 0 || n ≤ limit

/-- A value that keeps within the limits. -/
def bounded (c : Context) (v : Value) : Run Value :=
  if fits c.limits.toLimits v then pure v else fail .tooLarge

/-- The truth value that a condition must have. -/
def truth : Value → Run Bool
  | .bool b => pure b
  | _ => fail .notBoolean

/-! ## Variables -/

def look (name : String) : Run Variable := do
  match (← get).frame.find? (·.name == name) with
  | some v => return v
  | none => fail (.noVariable name)

def declare (v : Variable) : Run Unit :=
  modify fun m => { m with frame := v :: m.frame }

/-- Put a new value into the innermost variable of a name. -/
def replaceIn (name : String) (value : Value) : List Variable → List Variable
  | [] => []
  | v :: rest =>
    if v.name = name then { v with value := value } :: rest
    else v :: replaceIn name value rest

/-- Change a variable. -/
def write (name : String) (value : Value) : Run Unit := do
  if (← look name).constant then fail (.constant name)
  else modify fun m => { m with frame := replaceIn name value m.frame }

/-- Forget the variables that were declared since there were `count` of them. -/
def forget (count : Nat) (m : Memory) : Memory :=
  { m with frame := m.frame.drop (m.frame.length - count) }

/-- Run within a scope of its own, however it is left. -/
def inScope {α : Type} (r : Run α) : Run α := fun m =>
  match r m with
  | .ok a m' => .ok a (forget m.frame.length m')
  | .error e m' => .error e (forget m.frame.length m')

/-- One turn of a loop: nothing, or the value with which it leaves the loop. -/
def turn (r : Run Value) : Run (Option Value) := fun m =>
  match inScope r m with
  | .ok _ m' => .ok none m'
  | .error (.leave v) m' => .ok (some v) m'
  | .error .next m' => .ok none m'
  | .error e m' => .error e m'

/-- Run with other variables, and come back to the present ones.  A value that is answered is
the result. -/
def framed (frame : List Variable) (r : Run Value) : Run (Value × List Variable) := fun m =>
  match r { m with frame := frame } with
  | .ok v m' => .ok (v, m'.frame) { m' with frame := m.frame }
  | .error (.answer v) m' => .ok (v, m'.frame) { m' with frame := m.frame }
  | .error e m' => .error e { m' with frame := m.frame }

end Run

/-! ## Parts of values -/

/-- Put a new value at a property. -/
def setProperty (v : Value) (name : String) (new : Value) : Except Failure Value :=
  match v with
  | .object fields => .ok (.object (Value.putField name new fields))
  | _ => .error (.noProperty name)

/-- A value in which the part behind some accesses is changed by `f`. -/
def changePart (f : Value → Except Failure Value) : Value → List Access → Except Failure Value
  | v, [] => f v
  | v, .property name _ :: rest => do
    setProperty v name (← changePart f (← Builtin.property v name) rest)
  | v, .index i _ :: rest => do
    match v, i with
    | .object _, .string name =>
      setProperty v name (← changePart f (← Builtin.index v i) rest)
    | _, _ => Builtin.setIndex v i (← changePart f (← Builtin.index v i) rest)
  | _, .method name _ _ :: _ => .error (.noProperty name)

/-- The new value of a part to which a value is assigned; arrays take single items too. -/
def combined (op : Option BinaryOp) (new old : Value) : Except Failure Value :=
  match op, old, new with
  | none, _, _ => .ok new
  | some .add, .array vs, .array ws => .ok (.array (vs ++ ws))
  | some .add, .array vs, v => .ok (.array (vs ++ [v]))
  | some op, _, _ => Value.apply op old new

/-- Whether a term standing as a statement is an expression, whose evaluation is counted apart
from the statement. -/
def Term.isExpression : Term → Bool
  | .call _ _ | .block _ | .cond _ _ _ | .whileLoop _ _ | .loop _ | .forEach _ _ _
  | .declare _ _ _ | .assign _ _ _ | .leave _ | .next | .answer _ | .throw _ => false
  | _ => true

/-! ## Terms -/

open Run

mutual

/-- The value of a term. -/
def eval : Nat → Context → Term → Run Value
  | 0, _, _ => fail .tooManyOperations
  | fuel + 1, c, t => do
    count c
    match t with
    | .literal v => return .ofLiteral v
    | .variable name => return (← look name).value
    | .template parts => do
      let vs ← evalAll fuel c parts
      bounded c (.string (String.join (vs.map Value.display)))
    | .array items => do bounded c (.array (← evalAll fuel c items))
    | .object fields => do bounded c (.ofFields (← evalFields fuel c fields))
    | .unary op a => do lift (Value.applyUnary op (← eval fuel c a))
    | .binary op a b => do
      let x ← eval fuel c a
      let y ← eval fuel c b
      bounded c (← lift (Value.apply op x y))
    | .both a b => do
      if ← truth (← eval fuel c a) then return .bool (← truth (← eval fuel c b))
      else return .bool false
    | .either a b => do
      if ← truth (← eval fuel c a) then return .bool true
      else return .bool (← truth (← eval fuel c b))
    | .orElse a b => do
      match ← eval fuel c a with
      | .unit => eval fuel c b
      | v => return v
    | .call name arguments => do
      let vs ← evalAll fuel c arguments
      match c.functions.find? fun f => f.name == name && f.parameters.length == vs.length with
      | some f => return (← callFunction fuel c f vs none).1
      | none => do
        let answer ← lift (Builtin.call name vs)
        match answer.changed, arguments with
        | some new, .variable first :: _ =>
          let new ← bounded c new
          if !(← look first).constant then write first new
        | _, _ => pure ()
        bounded c answer.value
    | .property _ _ _ | .index _ _ _ | .method _ _ _ _ => evalChain fuel c t
    | .block body => inScope (evalBody fuel c body)
    | .cond test yes no => do
      if ← truth (← eval fuel c test) then eval fuel c yes else eval fuel c no
    | .whileLoop test body => whileTurns fuel c test body
    | .loop body => whileTurns fuel c (.literal (.bool true)) body
    | .forEach name items body => do
      match Sequence.ofValue? (← eval fuel c items) with
      | some s => forTurns fuel c name body s
      | none => fail .notIterable
    | .declare name constant value => do
      declare ⟨name, constant, ← eval fuel c value⟩
      return .unit
    | .assign op target value => do
      let new ← eval fuel c value
      assign fuel c op target new
    | .leave value => do throw (.leave (← eval fuel c value))
    | .next => throw .next
    | .answer value => do throw (.answer (← eval fuel c value))
    | .throw value => do fail (.thrown (← eval fuel c value).display)

/-- The values of terms, in order. -/
def evalAll : Nat → Context → List Term → Run (List Value)
  | 0, _, _ => fail .tooManyOperations
  | _, _, [] => return []
  | fuel + 1, c, t :: rest => do
    let v ← eval fuel c t
    return v :: (← evalAll fuel c rest)

def evalFields : Nat → Context → List (String × Term) → Run (List (String × Value))
  | 0, _, _ => fail .tooManyOperations
  | _, _, [] => return []
  | fuel + 1, c, (name, t) :: rest => do
    let v ← eval fuel c t
    return (name, v) :: (← evalFields fuel c rest)

/-- Run statements; the value is that of the last one. -/
def evalBody : Nat → Context → List Term → Run Value
  | 0, _, _ => fail .tooManyOperations
  | _, _, [] => return .unit
  | fuel + 1, c, t :: rest => do
    if t.isExpression then count c
    let v ← eval fuel c t
    if rest.isEmpty then return v else evalBody fuel c rest

/-- The body of a loop or function. -/
def evalBlock : Nat → Context → Term → Run Value
  | 0, _, _ => fail .tooManyOperations
  | fuel + 1, c, .block body => evalBody fuel c body
  | fuel + 1, c, t => eval fuel c t

/-- Turns of a loop while its condition holds. -/
def whileTurns : Nat → Context → Term → Term → Run Value
  | 0, _, _, _ => fail .tooManyOperations
  | fuel + 1, c, test, body => do
    if ← truth (← eval fuel c test) then
      match ← turn (evalBlock fuel c body) with
      | some v => return v
      | none => whileTurns fuel c test body
    else return .unit

/-- Turns of a loop over a sequence. -/
def forTurns : Nat → Context → String → Term → Sequence → Run Value
  | 0, _, _, _, _ => fail .tooManyOperations
  | fuel + 1, c, name, body, s => do
    match s.next? with
    | none => return .unit
    | some (v, rest) =>
      count c
      match ← turn (do declare ⟨name, false, v⟩; evalBlock fuel c body) with
      | some v => return v
      | none => forTurns fuel c name body rest

/-- Call a function of the script.  The second result is `this` as the function leaves it. -/
def callFunction : Nat → Context → Function → List Value → Option Variable →
    Run (Value × Option Value)
  | 0, _, _, _, _ => fail .tooManyOperations
  | fuel + 1, c, f, arguments, this => do
    if c.limits.depth ≤ c.level then fail .tooDeep
    let parameters := (f.parameters.zip arguments).map fun (n, v) => ⟨n, false, v⟩
    let (v, left) ← framed (parameters ++ this.toList)
      (inScope (evalBlock fuel { c with level := c.level + 1 } f.body))
    return (v, (left.find? (·.name == "this")).map (·.value))

/-- The start of a chain of accesses, and the accesses. -/
def accesses : Nat → Context → Term → Run (Term × List Access)
  | 0, _, _ => fail .tooManyOperations
  | fuel + 1, c, .property of name safe => do
    let (start, before) ← accesses fuel c of
    return (start, before ++ [.property name safe])
  | fuel + 1, c, .index of place safe => do
    let (start, before) ← accesses fuel c of
    return (start, before ++ [.index (← eval fuel c place) safe])
  | fuel + 1, c, .method of name arguments safe => do
    let (start, before) ← accesses fuel c of
    return (start, before ++ [.method name (← evalAll fuel c arguments) safe])
  | _, _, t => return (t, [])

/-- The value of a chain of accesses.  Methods change the variable that the chain starts at. -/
def evalChain : Nat → Context → Term → Run Value
  | 0, _, _ => fail .tooManyOperations
  | fuel + 1, c, t => do
    match ← accesses fuel c t with
    | (.variable name, steps) =>
      count c
      let root ← look name
      let (v, changed) ← follow fuel c root.constant root.value steps
      match changed with
      | some new => write name (← bounded c new)
      | none => pure ()
      return v
    | (start, steps) => return (← follow fuel c false (← eval fuel c start) steps).1

/-- Follow accesses from a value: what they lead to, and the value itself if it was changed. -/
def follow : Nat → Context → Bool → Value → List Access → Run (Value × Option Value)
  | 0, _, _, _, _ => fail .tooManyOperations
  | _, _, _, v, [] => return (v, none)
  | fuel + 1, c, constant, v, .property name safe :: rest => do
    if safe && v matches .unit then return (.unit, none)
    else
      let (r, changed) ← follow fuel c constant (← lift (Builtin.property v name)) rest
      match changed with
      | some new => return (r, some (← lift (setProperty v name new)))
      | none => return (r, none)
  | fuel + 1, c, constant, v, .index i safe :: rest => do
    if safe && v matches .unit then return (.unit, none)
    else
      let (r, changed) ← follow fuel c constant (← lift (Builtin.index v i)) rest
      match changed with
      | some new => return (r, some (← lift (Builtin.setIndex v i new)))
      | none => return (r, none)
  | fuel + 1, c, constant, v, .method name arguments safe :: rest => do
    if safe && v matches .unit then return (.unit, none)
    else
      let (r, changed) ← callMethod fuel c constant v name arguments
      return ((← follow fuel c false r rest).1, changed)

/-- Call a method of a value: its result, and the value if it was changed. -/
def callMethod : Nat → Context → Bool → Value → String → List Value →
    Run (Value × Option Value)
  | 0, _, _, _, _, _ => fail .tooManyOperations
  | fuel + 1, c, constant, v, name, arguments => do
    match c.functions.find? fun f =>
        f.name == name && f.parameters.length == arguments.length with
    | some f =>
      let (r, this) ← callFunction fuel c f arguments (some ⟨"this", constant, v⟩)
      return (r, if constant then none else this)
    | none =>
      let answer ← lift (Builtin.call name (v :: arguments))
      if constant && answer.changed.isSome then fail (.constant name)
      return (← bounded c answer.value, answer.changed)

/-- Assign a value to a place. -/
def assign : Nat → Context → Option BinaryOp → Term → Value → Run Value
  | 0, _, _, _, _ => fail .tooManyOperations
  | fuel + 1, c, op, target, new => do
    match ← accesses fuel c target with
    | (.variable name, steps) =>
      count c
      let root ← look name
      let updated ← lift (changePart (combined op new) root.value steps)
      write name (← bounded c updated)
      return .unit
    | _ => fail .misplaced

end

end StoreSync.Script
