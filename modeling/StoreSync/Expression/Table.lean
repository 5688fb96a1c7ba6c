import StoreSync.Expression.Evaluator

/-!
# Evaluators by table

The simplest evaluator looks the value of an expression up and knows no other expressions.
-/

namespace StoreSync

/-- What a table gives for an expression. -/
inductive TableRow where
  | boolean (value : Bool)
  | texts (values : List String)
  | fault (message : String)
deriving DecidableEq, Repr

/-- The evaluator that looks expressions up. -/
def Evaluator.ofTable (table : List (String × TableRow)) : Evaluator where
  evalBool expression _ :=
    match table.lookup expression with
    | some (.boolean b) => .ok b
    | some (.texts _) => .error (.evaluation expression "not a boolean")
    | row => .error (.evaluation expression (refusal row))
  evalTexts expression _ :=
    match table.lookup expression with
    | some (.texts values) => .ok values
    | some (.boolean _) => .ok []
    | row => .error (.evaluation expression (refusal row))
where
  /-- Why a row has no value. -/
  refusal : Option TableRow → String
    | some (.fault m) => m
    | _ => "not in table"

end StoreSync
