import StoreSync.Text.Case
import StoreSync.Data.Tree
import StoreSync.Time

/-!
# Filters

A filter asks for records by the texts of their attributes.  It is evaluated against a look-up
from attribute name to texts; conjunctions and disjunctions stop at the first filter that decides
them, which `asked` makes visible.
-/

namespace StoreSync

/-- A condition on the attributes of a record. -/
inductive Filter where
  /-- Some text equals the value up to case. -/
  | equals (name value : String)
  /-- Some text is the value or stands after it in code-point order. -/
  | atLeast (name value : String)
  /-- Some text is not empty. -/
  | present (name : String)
  | all (filters : List Filter)
  | any (filters : List Filter)
  | not (filter : Filter)

namespace Filter

/-- Records whose timestamp is at or after an instant, by whole seconds. -/
def changedSince (timestampAttribute : String) (since : Instant) : Filter :=
  .atLeast timestampAttribute since.generalizedTime

/-! ## Evaluation -/

mutual

/-- Whether a record with these texts is among those that are asked for. -/
def holds (lookup : String → List String) : Filter → Bool
  | .equals name value => (lookup name).any (Text.sameFolded · value)
  | .atLeast name value => (lookup name).any (fun v => decide (value ≤ v))
  | .present name => (lookup name).any (fun v => !v.isEmpty)
  | .all filters => holdsAll lookup filters
  | .any filters => holdsAny lookup filters
  | .not filter => !holds lookup filter

def holdsAll (lookup : String → List String) : List Filter → Bool
  | [] => true
  | f :: rest => holds lookup f && holdsAll lookup rest

def holdsAny (lookup : String → List String) : List Filter → Bool
  | [] => false
  | f :: rest => holds lookup f || holdsAny lookup rest

end

mutual

/-- The names that evaluation looks up, in order. -/
def asked (lookup : String → List String) : Filter → List String
  | .equals name _ | .atLeast name _ | .present name => [name]
  | .all filters => askedWhile lookup true filters
  | .any filters => askedWhile lookup false filters
  | .not filter => asked lookup filter

/-- The names looked up while the filters evaluate to `going`. -/
def askedWhile (lookup : String → List String) (going : Bool) : List Filter → List String
  | [] => []
  | f :: rest =>
    asked lookup f ++ if holds lookup f == going then askedWhile lookup going rest else []

end

/-! ## Text -/

mutual

/-- The directory notation, such as `(&(cn=*)(!(uid=x)))`. -/
def text : Filter → String
  | .equals name value => "(" ++ name ++ "=" ++ value ++ ")"
  | .atLeast name value => "(" ++ name ++ ">=" ++ value ++ ")"
  | .present name => "(" ++ name ++ "=*)"
  | .all filters => "(&" ++ textAll filters ++ ")"
  | .any filters => "(|" ++ textAll filters ++ ")"
  | .not filter => "(!" ++ text filter ++ ")"

def textAll : List Filter → String
  | [] => ""
  | f :: rest => text f ++ textAll rest

end

/-! ## Data form -/

mutual

/-- An object with the kind of the filter under `type`. -/
def toJson : Filter → Json
  | .equals name value =>
    .object [("type", .string "equals"), ("attribute", .string name), ("value", .string value)]
  | .atLeast name value =>
    .object [("type", .string "greater_than_or_equals"), ("attribute", .string name),
      ("value", .string value)]
  | .present name => .object [("type", .string "present"), ("attribute", .string name)]
  | .all filters => .object [("type", .string "and"), ("filters", .array (toJsonAll filters))]
  | .any filters => .object [("type", .string "or"), ("filters", .array (toJsonAll filters))]
  | .not filter => .object [("type", .string "not"), ("filter", toJson filter)]

def toJsonAll : List Filter → List Json
  | [] => []
  | f :: rest => toJson f :: toJsonAll rest

end

/-- The kind of a filter and the rest of its data form. -/
def tagged? : Json → Option (String × Json)
  | .members fields => do
    let tag ← (← fields.lookup "type").string?
    return (tag, .members (fields.filter (·.1 != "type")))
  | .array (tag :: rest) => do return (← tag.string?, .array rest)
  | _ => none

/-- Read a filter of at most the given nesting depth. -/
def ofJsonWithin : Nat → Json → Option Filter
  | 0, _ => none
  | fuel + 1, j => do
    let (tag, body) ← tagged? j
    match tag with
    | "equals" =>
      let r ← Record.open? ["attribute", "value"] body
      return .equals (← r.required "attribute" Json.string?) (← r.required "value" Json.string?)
    | "greater_than_or_equals" =>
      let r ← Record.open? ["attribute", "value"] body
      return .atLeast (← r.required "attribute" Json.string?) (← r.required "value" Json.string?)
    | "present" =>
      let r ← Record.open? ["attribute"] body
      return .present (← r.required "attribute" Json.string?)
    | "and" =>
      let r ← Record.open? ["filters"] body
      return .all (← r.required "filters" (DataTree.list? (ofJsonWithin fuel)))
    | "or" =>
      let r ← Record.open? ["filters"] body
      return .any (← r.required "filters" (DataTree.list? (ofJsonWithin fuel)))
    | "not" =>
      let r ← Record.open? ["filter"] body
      return .not (← r.required "filter" (ofJsonWithin fuel))
    | _ => none

def ofJson? (j : Json) : Option Filter := ofJsonWithin j.depth j

end Filter

end StoreSync
