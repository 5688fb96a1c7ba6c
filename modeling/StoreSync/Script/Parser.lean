import StoreSync.Script.Lexer
import StoreSync.Script.Syntax

/-!
# Reading scripts

A recursive-descent reader with operator precedences.  It knows the variables in scope and
refuses a name that is not among them, so that every fault which does not depend on values is
found before a script runs; the fault is reported by its place.  Each function takes a bound on
the nesting of calls; a multiple of the number of tokens is always enough.
-/

namespace StoreSync.Script.Parser

/-- Bounds on what may be written in a script; zero means none. -/
structure Limits where
  textBytes : Nat
  arrayItems : Nat
  objectFields : Nat

/-- A variable in scope. -/
structure Local where
  name : String
  constant : Bool

/-- What the reader carries along. -/
structure State where
  rest : List Lexeme
  /-- The place behind the last token. -/
  stop : Position
  /-- Variables declared so far, innermost first. -/
  locals : List Local
  /-- Names that are bound outside of the script. -/
  bound : List String
  functions : List Function
  inLoop : Bool
  inFunction : Bool
  /-- Whether functions may be defined here. -/
  atTop : Bool
  limits : Limits

/-- A reader of something, or the place of the first fault. -/
abbrev Reader := StateT State (Except Position)

/-! ## Tokens -/

def peek : Reader (Option Token) := do
  return (← get).rest.head?.map (·.token)

/-- The place of the next token. -/
def here : Reader Position := do
  let s ← get
  return match s.rest with
    | l :: _ => l.position
    | [] => s.stop

def failAt {α : Type} (p : Position) : Reader α := throw p

/-- Refuse the next token. -/
def refuse {α : Type} : Reader α := do failAt (← here)

/-- Step over the next token. -/
def advance : Reader Unit := modify fun s => { s with rest := s.rest.tail }

def isSymbol (text : String) : Reader Bool := do return (← peek) == some (.symbol text)

def isKeyword (text : String) : Reader Bool := do return (← peek) == some (.keyword text)

/-- Take a symbol if it is next. -/
def accept (text : String) : Reader Bool := do
  if ← isSymbol text then
    advance
    return true
  else return false

/-- Take a symbol that must be next. -/
def expect (text : String) : Reader Unit := do
  if !(← accept text) then refuse

/-- Take a name that must be next. -/
def expectName : Reader String := do
  match ← peek with
  | some (.name n) =>
    advance
    return n
  | _ => refuse

/-- Whether the term ends here. -/
def atEnd : Reader Bool := do
  match ← peek with
  | none => return true
  | some (.symbol s) => return s = ";" || s = "\x7d"
  | some (.templateMiddle _) | some (.templateEnd _) => return true
  | _ => return false

/-! ## Scopes -/

/-- Read within a scope of its own. -/
def inScope {α : Type} (r : Reader α) : Reader α := do
  let before := (← get).locals
  let a ← r
  modify fun s => { s with locals := before }
  return a

def declareLocal (name : String) (constant : Bool) : Reader Unit :=
  modify fun s => { s with locals := ⟨name, constant⟩ :: s.locals }

/-- Whether a name may be used as a variable. -/
def isVisible (name : String) : Reader Bool := do
  let s ← get
  return s.locals.any (·.name == name) || s.bound.contains name ||
    (name == "this" && s.inFunction)

/-- Whether a name is bound to a constant of this script. -/
def isConstant (name : String) : Reader Bool := do
  return ((← get).locals.find? (·.name == name)).any (·.constant)

/-! ## Operators -/

/-- How an operator joins its operands. -/
inductive Joint where
  | plain (op : BinaryOp)
  | both
  | either
  | orElse

def Joint.join (j : Joint) (a b : Term) : Term :=
  match j with
  | .plain op => .binary op a b
  | .both => .both a b
  | .either => .either a b
  | .orElse => .orElse a b

/-- Operator and precedence of a token between two operands. -/
def joint? : Token → Option (Joint × Nat)
  | .keyword "in" => some (.plain .within, 110)
  | .symbol s =>
    match s with
    | "||" => some (.either, 30)
    | "|" => some (.plain .bitOr, 30)
    | "^" => some (.plain .bitXor, 30)
    | "&&" => some (.both, 60)
    | "&" => some (.plain .bitAnd, 60)
    | "==" => some (.plain .equal, 90)
    | "!=" => some (.plain .notEqual, 90)
    | "!in" => some (.plain .notWithin, 110)
    | "<" => some (.plain .less, 130)
    | "<=" => some (.plain .lessEqual, 130)
    | ">" => some (.plain .greater, 130)
    | ">=" => some (.plain .greaterEqual, 130)
    | "??" => some (.orElse, 135)
    | ".." => some (.plain .range, 140)
    | "..=" => some (.plain .rangeInclusive, 140)
    | "+" => some (.plain .add, 150)
    | "-" => some (.plain .sub, 150)
    | "*" => some (.plain .mul, 180)
    | "/" => some (.plain .div, 180)
    | "%" => some (.plain .mod, 180)
    | "**" => some (.plain .pow, 190)
    | "<<" => some (.plain .shiftLeft, 210)
    | ">>" => some (.plain .shiftRight, 210)
    | _ => none
  | _ => none

/-- The least precedence for the right operand; powers group to the right. -/
def rightPrecedence (precedence : Nat) : Nat := if precedence = 190 then 190 else precedence + 1

/-- The operator of an assignment. -/
def assignment? : Token → Option (Option BinaryOp)
  | .symbol s =>
    match s with
    | "=" => some none
    | "+=" => some (some .add)
    | "-=" => some (some .sub)
    | "*=" => some (some .mul)
    | "/=" => some (some .div)
    | "%=" => some (some .mod)
    | "**=" => some (some .pow)
    | "<<=" => some (some .shiftLeft)
    | ">>=" => some (some .shiftRight)
    | "&=" => some (some .bitAnd)
    | "|=" => some (some .bitOr)
    | "^=" => some (some .bitXor)
    | _ => none
  | _ => none

/-- Whether a term can stand on the left of an assignment: a variable, or a chain of properties
and indices that starts at one. -/
def isPlace : Term → Bool
  | .variable _ => true
  | .property of _ safe => !safe && isPlace of
  | .index of _ safe => !safe && isPlace of
  | _ => false

/-- Whether a term can be an index of another, as far as literals tell: an index is an integer or
a text, arrays and texts are not indexed by a text, nor objects by an integer. -/
def isIndexFor (of : Term) : Term → Bool
  | .literal (.integer _) => !(of matches .object _)
  | .literal (.string _) | .template _ =>
    !(of matches .array _ | .template _ | .literal (.string _) | .literal (.integer _))
  | .literal _ | .both _ _ | .either _ _ => false
  | _ => true

/-- The opposite of a number that is written out. -/
def negated : Term → Term
  | .literal (.integer i) =>
    if i = -0x8000000000000000 then .unary .negate (.literal (.integer i))
    else .literal (.integer (-i))
  | .literal (.float d) => .literal (.float d.neg)
  | t => .unary .negate t

/-- Whether a statement needs no semicolon behind it. -/
def endsItself : Term → Bool
  | .block _ | .cond _ _ _ | .whileLoop _ _ | .loop _ | .forEach _ _ _ => true
  | _ => false

/-! ## Terms -/

mutual

/-- An expression. -/
def expression : Nat → Reader Term
  | 0 => refuse
  | fuel + 1 => operands fuel 0

/-- Operands joined by operators of at least a precedence. -/
def operands : Nat → Nat → Reader Term
  | 0, _ => refuse
  | fuel + 1, least => do
    let first ← unary fuel
    joined fuel least first

/-- Operators behind a left operand. -/
def joined : Nat → Nat → Term → Reader Term
  | 0, _, _ => refuse
  | fuel + 1, least, left => do
    match (← peek).bind joint? with
    | none => return left
    | some (joint, precedence) =>
      if precedence < least then return left
      else
        advance
        let right ← operands fuel (rightPrecedence precedence)
        joined fuel least (joint.join left right)

/-- An operand with its signs. -/
def unary : Nat → Reader Term
  | 0 => refuse
  | fuel + 1 => do
    if ← accept "-" then return negated (← unary fuel)
    else if ← accept "+" then return .unary .keep (← unary fuel)
    else if ← accept "!" then return .unary .not (← unary fuel)
    else chain fuel (← primary fuel)

/-- Properties, indices and method calls behind a term. -/
def chain : Nat → Term → Reader Term
  | 0, _ => refuse
  | fuel + 1, t => do
    match ← peek with
    | some (.symbol s) =>
      if s = "." ∨ s = "?." then
        advance
        let safe := s == "?."
        let name ← expectName
        if ← accept "(" then chain fuel (.method t name (← arguments fuel) safe)
        else chain fuel (.property t name safe)
      else if s = "[" ∨ s = "?[" then
        advance
        let place ← here
        let i ← expression fuel
        if !isIndexFor t i then failAt place
        expect "]"
        chain fuel (.index t i (s == "?["))
      else return t
    | _ => return t

/-- The arguments of a call, behind its opening parenthesis. -/
def arguments : Nat → Reader (List Term)
  | 0 => refuse
  | fuel + 1 => do
    if ← accept ")" then return []
    else
      let first ← expression fuel
      if ← accept "," then return first :: (← arguments fuel)
      else
        expect ")"
        return [first]

/-- A term without operators. -/
def primary : Nat → Reader Term
  | 0 => refuse
  | fuel + 1 => do
    match ← peek with
    | some (.integer i) => literal (.integer i)
    | some (.float d) => literal (.float d)
    | some (.char c) => literal (.char c)
    | some (.string s) => literal (.string s)
    | some (.keyword "true") => literal (.bool true)
    | some (.keyword "false") => literal (.bool false)
    | some (.keyword "if") => conditional fuel
    | some (.keyword "while") => whileTerm fuel
    | some (.keyword "loop") => loopTerm fuel
    | some (.keyword "for") => forTerm fuel
    | some (.templateStart s) =>
      advance
      return .template (.literal (.string s) :: (← templateParts fuel))
    | some (.symbol "(") =>
      advance
      if ← accept ")" then return .literal .unit
      else
        let t ← expression fuel
        expect ")"
        return t
    | some (.symbol "[") =>
      advance
      return .array (← items fuel 0)
    | some (.symbol "#\x7b") =>
      advance
      return .object (← fields fuel [])
    | some (.symbol "\x7b") => block fuel
    | some (.name n) =>
      let place ← here
      advance
      if ← accept "(" then return .call n (← arguments fuel)
      else if ← isVisible n then return .variable n
      else failAt place
    | _ => refuse

/-- The rest of a template: an expression, then the next piece. -/
def templateParts : Nat → Reader (List Term)
  | 0 => refuse
  | fuel + 1 => do
    let body ← inScope (body fuel)
    match ← peek with
    | some (.templateMiddle s) =>
      advance
      return .block body :: .literal (.string s) :: (← templateParts fuel)
    | some (.templateEnd s) =>
      advance
      return [.block body, .literal (.string s)]
    | _ => refuse

/-- The items of an array, behind its bracket. -/
def items : Nat → Nat → Reader (List Term)
  | 0, _ => refuse
  | fuel + 1, count => do
    let limit := (← get).limits.arrayItems
    if 0 < limit ∧ limit ≤ count then refuse
    else if ← accept "]" then return []
    else
      let first ← expression fuel
      if ← accept "," then return first :: (← items fuel (count + 1))
      else if ← isSymbol "]" then return first :: (← items fuel (count + 1))
      else refuse

/-- The fields of an object, behind its brace. -/
def fields : Nat → List String → Reader (List (String × Term))
  | 0, _ => refuse
  | fuel + 1, names => do
    if ← accept "\x7d" then return []
    else
      let place ← here
      let name ← match ← peek with
        | some (.name n) => pure n
        | some (.string s) => pure s
        | _ => refuse
      if names.contains name then failAt place
      advance
      expect ":"
      let limit := (← get).limits.objectFields
      if 0 < limit ∧ limit ≤ names.length then refuse
      let value ← expression fuel
      if ← accept "," then return (name, value) :: (← fields fuel (name :: names))
      else
        expect "\x7d"
        return [(name, value)]

/-- A block with its braces. -/
def block : Nat → Reader Term
  | 0 => refuse
  | fuel + 1 => do
    expect "\x7b"
    let outer := (← get).atTop
    modify fun s => { s with atTop := false }
    let ts ← inScope (body fuel)
    modify fun s => { s with atTop := outer }
    expect "\x7d"
    return .block ts

/-- An expression that a block follows; it does not start with a brace itself. -/
def bare : Nat → Reader Term
  | 0 => refuse
  | fuel + 1 => do
    if ← isSymbol "\x7b" then refuse
    expression fuel

/-- A condition with its branches. -/
def conditional : Nat → Reader Term
  | 0 => refuse
  | fuel + 1 => do
    advance
    let test ← bare fuel
    let yes ← block fuel
    if ← isKeyword "else" then
      advance
      if ← isKeyword "if" then return .cond test yes (← conditional fuel)
      else return .cond test yes (← block fuel)
    else return .cond test yes (.literal .unit)

def whileTerm : Nat → Reader Term
  | 0 => refuse
  | fuel + 1 => do
    advance
    let test ← bare fuel
    return .whileLoop test (← loopBody fuel)

def loopTerm : Nat → Reader Term
  | 0 => refuse
  | fuel + 1 => do
    advance
    return .loop (← loopBody fuel)

def forTerm : Nat → Reader Term
  | 0 => refuse
  | fuel + 1 => do
    advance
    let name ← expectName
    if !(← isKeyword "in") then refuse
    advance
    let items ← bare fuel
    let body ← inScope do
      declareLocal name false
      loopBody fuel
    return .forEach name items body

/-- A block that may be left early. -/
def loopBody : Nat → Reader Term
  | 0 => refuse
  | fuel + 1 => do
    let outer := (← get).inLoop
    modify fun s => { s with inLoop := true }
    let b ← block fuel
    modify fun s => { s with inLoop := outer }
    return b

/-- Statements up to the end of the block or script. -/
def body : Nat → Reader (List Term)
  | 0 => refuse
  | fuel + 1 => do
    match ← peek with
    | none => return []
    | some (.symbol "\x7d") | some (.templateMiddle _) | some (.templateEnd _) => return []
    | some (.symbol ";") =>
      advance
      body fuel
    | some (.keyword "fn") =>
      if !(← get).atTop then refuse
      function fuel
      body fuel
    | _ =>
      let t ← statement fuel
      if ← atEnd then return t :: (← body fuel)
      else if endsItself t then return t :: (← body fuel)
      else refuse

/-- One statement. -/
def statement : Nat → Reader Term
  | 0 => refuse
  | fuel + 1 => do
    match ← peek with
    | some (.keyword "let") => declaration fuel false
    | some (.keyword "const") => declaration fuel true
    | some (.keyword "if") => conditional fuel
    | some (.keyword "while") => whileTerm fuel
    | some (.keyword "loop") => loopTerm fuel
    | some (.keyword "for") => forTerm fuel
    | some (.symbol "\x7b") => block fuel
    | some (.keyword "break") =>
      if !(← get).inLoop then refuse
      advance
      return .leave (← optionalValue fuel)
    | some (.keyword "continue") =>
      if !(← get).inLoop then refuse
      advance
      return .next
    | some (.keyword "return") =>
      advance
      return .answer (← optionalValue fuel)
    | some (.keyword "throw") =>
      advance
      return .throw (← optionalValue fuel)
    | _ =>
      let place ← here
      let t ← expression fuel
      match (← peek).bind assignment? with
      | none => return t
      | some op =>
        advance
        let value ← expression fuel
        if !isPlace t then failAt place
        match t with
        | .variable n => if ← isConstant n then failAt place
        | _ => pure ()
        return .assign op t value

/-- The declaration of a variable or constant. -/
def declaration : Nat → Bool → Reader Term
  | 0, _ => refuse
  | fuel + 1, constant => do
    advance
    let name ← expectName
    let value ← if ← accept "=" then expression fuel else pure (.literal .unit)
    declareLocal name constant
    return .declare name constant value

/-- A value, or nothing before the end of the statement. -/
def optionalValue : Nat → Reader Term
  | 0 => refuse
  | fuel + 1 => do
    if ← atEnd then return .literal .unit else expression fuel

/-- The definition of a function. -/
def function : Nat → Reader Unit
  | 0 => refuse
  | fuel + 1 => do
    let place ← here
    advance
    let name ← expectName
    expect "("
    let ps ← parameters fuel []
    let outer ← get
    set { outer with
      locals := ps.map (⟨·, false⟩), bound := [], inLoop := false, inFunction := true }
    let b ← block fuel
    if outer.functions.any (fun f => f.name == name && f.parameters.length == ps.length) then
      failAt place
    modify fun s => { outer with
      rest := s.rest, functions := outer.functions ++ [⟨name, ps, b⟩] }

/-- The parameters of a function, behind its parenthesis. -/
def parameters : Nat → List String → Reader (List String)
  | 0, _ => refuse
  | fuel + 1, names => do
    if ← accept ")" then return []
    else
      let place ← here
      let name ← expectName
      if names.contains name then failAt place
      if ← accept "," then return name :: (← parameters fuel (name :: names))
      else
        expect ")"
        return [name]

/-- A literal that is the next token. -/
def literal (value : Literal) : Reader Term := do
  advance
  return .literal value

end

/-- A whole script. -/
def script (fuel : Nat) : Reader Program := do
  let ts ← body fuel
  if (← get).rest.isEmpty then return ⟨(← get).functions, ts⟩ else refuse

end Parser

/-- Read a script in which the given names are bound, or tell where it is faulty. -/
def parse (limits : Parser.Limits) (bound : List String) (text : String) :
    Except Position Program :=
  let (lexemes, stop) := Lexer.lexemes limits.textBytes text
  (Parser.script (20 * (lexemes.length + 2))).run' {
    rest := lexemes, stop := stop, locals := [], bound := bound, functions := [],
    inLoop := false, inFunction := false, atTop := true, limits := limits }

end StoreSync.Script
