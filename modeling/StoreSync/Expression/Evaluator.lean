import StoreSync.Entity.Basic
import StoreSync.Expression.Mention
import StoreSync.SyncError

/-!
# Evaluators

Policies hold expressions as text.  An evaluator gives them a meaning over named bindings: a
Boolean for a condition, a list of texts for values.  The planner is written against any
evaluator, and keeps a list of what it asked: a computation of type `Asked α` has a result and
the calls made on the way, also when the result is an error.
-/

namespace StoreSync

open Expression (mentions)

/-- What an expression can see. -/
structure Bindings where
  source : Option Entity
  destination : Option Entity
  /-- Source values of the attribute that is being computed. -/
  sourceAttribute : List String
  /-- Destination values of the attribute that is being computed. -/
  destinationAttribute : List String
deriving DecidableEq

namespace Bindings

def pair (source destination : Option Entity) : Bindings := ⟨source, destination, [], []⟩

def ofSource (e : Entity) : Bindings := pair (some e) none

def ofDestination (e : Option Entity) : Bindings := pair none e

def withAttribute (b : Bindings) (source destination : List String) : Bindings :=
  { b with sourceAttribute := source, destinationAttribute := destination }

end Bindings

/-- A meaning for expressions. -/
structure Evaluator where
  evalBool : String → Bindings → Except SyncError Bool
  evalTexts : String → Bindings → Except SyncError (List String)
  /-- Whether an expression mentions a binding. -/
  references : String → String → Bool := mentions

/-- One question to an evaluator. -/
inductive EvaluatorCall where
  | bool (expression : String) (bindings : Bindings)
  | texts (expression : String) (bindings : Bindings)
deriving DecidableEq

/-- A result with the questions that led to it. -/
structure Asked (α : Type) where
  result : Except SyncError α
  calls : List EvaluatorCall

namespace Asked

variable {α β : Type}

def ok (a : α) : Asked α := ⟨.ok a, []⟩

def fail (e : SyncError) : Asked α := ⟨.error e, []⟩

/-- Go on with a result; an error ends the computation. -/
def andThen (x : Asked α) (f : α → Asked β) : Asked β :=
  match x.result with
  | .ok a => ⟨(f a).result, x.calls ++ (f a).calls⟩
  | .error e => ⟨.error e, x.calls⟩

instance : Monad Asked where
  pure := ok
  bind := andThen

@[simp] theorem result_pure (a : α) : (pure a : Asked α).result = .ok a := rfl

@[simp] theorem result_fail (e : SyncError) : (fail e : Asked α).result = .error e := rfl

@[simp] theorem result_bind (x : Asked α) (f : α → Asked β) :
    (x >>= f).result = x.result >>= fun a => (f a).result := by
  show (andThen x f).result = _
  unfold andThen
  split <;> rename_i h <;> rw [h] <;> rfl

end Asked

namespace Evaluator

/-- Ask for a Boolean. -/
def askBool (ev : Evaluator) (expression : String) (b : Bindings) : Asked Bool :=
  ⟨ev.evalBool expression b, [.bool expression b]⟩

/-- Ask for texts. -/
def askTexts (ev : Evaluator) (expression : String) (b : Bindings) : Asked (List String) :=
  ⟨ev.evalTexts expression b, [.texts expression b]⟩

end Evaluator

end StoreSync
