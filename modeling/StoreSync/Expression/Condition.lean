import StoreSync.Expression.Evaluator
import StoreSync.Text.Blank

/-!
# Conditions

A condition is a literal or an expression.  The literals are written `true` and `false` in any
ASCII case, and never reach an evaluator.
-/

namespace StoreSync

/-- When a change may be applied. -/
inductive Condition where
  | always
  | never
  | expression (text : String)
deriving DecidableEq, Repr

namespace Condition

instance : Inhabited Condition := ⟨.always⟩

/-- Read a condition; blanks around it do not count. -/
def ofText (text : String) : Condition :=
  let trimmed := Text.trim text
  if Text.sameAsciiFolded trimmed "true" then .always
  else if Text.sameAsciiFolded trimmed "false" then .never
  else .expression trimmed

def text : Condition → String
  | .always => "true"
  | .never => "false"
  | .expression e => e

/-- The expression to evaluate, if the condition is one. -/
def expression? : Condition → Option String
  | .expression e => some e
  | _ => none

/-- Decide the condition; only an expression is asked of the evaluator. -/
def evaluate (c : Condition) (ev : Evaluator) (b : Bindings) : Asked Bool :=
  match c with
  | .always => .ok true
  | .never => .ok false
  | .expression e => ev.askBool e b

/-- Whether the condition mentions a binding. -/
def references (c : Condition) (ev : Evaluator) (name : String) : Bool :=
  match c with
  | .expression e => ev.references e name
  | _ => false

def toJson (c : Condition) : Json := .string c.text

/-- A Boolean or a text. -/
def read? {τ : Type} [DataTree τ] (t : τ) : Option Condition :=
  match DataTree.flag? t with
  | some true => some .always
  | some false => some .never
  | none => (DataTree.text? t).map ofText

end Condition

end StoreSync
