import StoreSync.Json.Parser
import StoreSync.Script.Token
import StoreSync.Text.Blank

/-!
# Cutting a script into tokens

The lexer reads one token after the other.  It remembers whether the last token leaves a sign to
the number that follows, and how many braces are open in each enclosing template expression, so
that it knows the brace that ends one.
-/

namespace StoreSync.Script.Lexer

open StoreSync.Json (isDigit natOfDigits)
open StoreSync.Text (hexDigit?)

/-- What the lexer remembers between two tokens. -/
structure State where
  position : Position
  /-- A sign here belongs to the number behind it. -/
  signAllowed : Bool
  /-- Open braces within each enclosing template expression, innermost first. -/
  templates : List Nat
  /-- The longest text that may be written, in bytes; none when zero. -/
  textLimit : Nat

/-- Result of reading a piece of text: the text, what follows, and the place there. -/
structure Piece where
  text : List Char
  rest : List Char
  position : Position
  /-- Whether the piece ends at an expression. -/
  opensExpression : Bool

/-! ## Texts and characters -/

/-- Read `count` hexadecimal digits. -/
def hexCode (count : Nat) (acc : Nat) : List Char → Option (Nat × List Char)
  | cs =>
    match count, cs with
    | 0, cs => some (acc, cs)
    | _ + 1, [] => none
    | count + 1, c :: rest =>
      match hexDigit? c with
      | some d => hexCode count (16 * acc + d) rest
      | none => none

/-- The character that an escape stands for, and what follows the escape. -/
def escape? : List Char → Option (Char × List Char)
  | [] => none
  | c :: rest =>
    match c with
    | 'n' => some ('\n', rest)
    | 't' => some ('\t', rest)
    | 'r' => some ('\r', rest)
    | '\\' | '"' | '\'' | '\x60' => some (c, rest)
    | 'x' => code 2 rest
    | 'u' => code 4 rest
    | 'U' => code 8 rest
    | _ => none
where
  /-- A character by its code. -/
  code (count : Nat) (cs : List Char) : Option (Char × List Char) :=
    match hexCode count 0 cs with
    | some (n, rest) => if n.isValidChar then some (Char.ofNat n, rest) else none
    | none => none

/-- Read a text up to its closing quote, which stands for itself when doubled.  A line break ends
the text unless a backslash precedes it.  `fuel` bounds the number of characters. -/
def readQuoted (quote : Char) : Nat → Position → List Char → List Char → Option Piece
  | 0, _, _, _ => none
  | fuel + 1, p, acc, cs =>
    match cs with
    | [] => none
    | '\\' :: '\n' :: rest =>
      readQuoted quote fuel ((p.after '\\').after '\n') acc (rest.dropWhile (· = ' '))
    | '\\' :: rest =>
      match escape? rest with
      | some (c, rest') =>
        let used := rest.take (rest.length - rest'.length)
        readQuoted quote fuel ((p.after '\\').afterAll used) (c :: acc) rest'
      | none => none
    | c :: rest =>
      if c = quote then
        if rest.head? = some quote then
          readQuoted quote fuel ((p.after c).after c) (c :: acc) rest.tail
        else some ⟨acc.reverse, rest, p.after c, false⟩
      else if c = '\n' then none
      else readQuoted quote fuel (p.after c) (c :: acc) rest

/-- Read a piece of a template: up to the closing back quote or the next expression. -/
def readTemplate (p : Position) (acc : List Char) : List Char → Option Piece
  | [] => none
  | '\x60' :: '\x60' :: rest =>
    readTemplate ((p.after '\x60').after '\x60') ('\x60' :: acc) rest
  | '\x60' :: rest => some ⟨acc.reverse, rest, p.after '\x60', false⟩
  | '$' :: '\x7b' :: rest => some ⟨acc.reverse, rest, (p.after '$').after '\x7b', true⟩
  | c :: rest => readTemplate (p.after c) (c :: acc) rest

/-! ## Numbers -/

/-- A number as it is read: its digits, and where it ends. -/
def dropSeparators (cs : List Char) : List Char := cs.filter (· != '_')

def isDigitOrSeparator (c : Char) : Bool := isDigit c || c = '_'

/-- The letter that opens a number in base 16, 8 or 2. -/
def base? (c : Char) : Option Nat :=
  match c with
  | 'x' | 'X' => some 16
  | 'o' | 'O' => some 8
  | 'b' | 'B' => some 2
  | _ => none

/-- The value of digits in a base. -/
def valueInBase? (base : Nat) (ds : List Char) : Option Nat :=
  ds.foldl (fun acc c => do
    let n ← acc
    let d ← hexDigit? c
    if d < base then some (n * base + d) else none) (if ds.isEmpty then none else some 0)

/-- A 64-bit pattern as a signed integer. -/
def signed (n : Nat) : Int := if n < 0x8000000000000000 then n else (n : Int) - 0x10000000000000000

/-- The fraction of a number: digits behind a point that belongs to it. -/
def fractionPart (cs : List Char) : Option (List Char × List Char) :=
  match cs with
  | '.' :: rest =>
    match rest with
    | [] => none
    | c :: _ =>
      if isDigit c then
        some (dropSeparators (rest.takeWhile isDigitOrSeparator),
          rest.dropWhile isDigitOrSeparator)
      else if c = '_' ∨ c = '.' ∨ c.isAlpha then none
      else some (['0'], rest)
  | _ => none

/-- The exponent of a number: sign and digits behind an `e`. -/
def exponentPart (cs : List Char) : Option (Int × List Char) :=
  match cs with
  | 'e' :: rest =>
    let (negative, ds) := match rest with
      | '+' :: ds => (false, ds)
      | '-' :: ds => (true, ds)
      | ds => (false, ds)
    match ds with
    | c :: _ =>
      if isDigit c then
        let n : Int := natOfDigits (dropSeparators (ds.takeWhile isDigitOrSeparator))
        some (if negative then -n else n, ds.dropWhile isDigitOrSeparator)
      else none
    | [] => none
  | _ => none

/-- Read a number that starts with a digit.  An integer beyond 64 bits is read as a fraction. -/
def readNumber (negative : Bool) (cs : List Char) : Token × List Char :=
  match cs with
  | '0' :: b :: rest =>
    match base? b with
    | some base =>
      let ds := rest.takeWhile fun c => (hexDigit? c).isSome || c = '_'
      match valueInBase? base (dropSeparators ds) with
      | some n =>
        if n < 0x10000000000000000 then
          (.integer (if negative then -signed n else signed n), rest.drop ds.length)
        else (.bad, rest.drop ds.length)
      | none => (.bad, rest.drop ds.length)
    | none => decimal cs
  | cs => decimal cs
where
  /-- A number in base ten. -/
  decimal (cs : List Char) : Token × List Char :=
    let whole := dropSeparators (cs.takeWhile isDigitOrSeparator)
    let rest := cs.dropWhile isDigitOrSeparator
    let fraction := fractionPart rest
    let rest := (fraction.map (·.2)).getD rest
    let exponent := exponentPart rest
    let rest := (exponent.map (·.2)).getD rest
    let n := natOfDigits whole
    let bound := if negative then 0x8000000000000000 else 0x7fffffffffffffff
    if fraction.isNone ∧ exponent.isNone ∧ n ≤ bound then
      (.integer (if negative then -(n : Int) else n), rest)
    else
      let ds := (fraction.map (·.1)).getD []
      let e := (exponent.map (·.1)).getD 0
      (.float (Decimal.Double.ofDecimal negative (natOfDigits (whole ++ ds)) (e - ds.length)),
        rest)

/-! ## Blanks and comments -/

/-- Skip blanks and comments; block comments nest. -/
def skipBlank : Nat → Position → List Char → Position × List Char
  | 0, p, cs => (p, cs)
  | fuel + 1, p, cs =>
    match cs with
    | '/' :: '/' :: rest =>
      let line := rest.takeWhile (· != '\n')
      skipBlank fuel (p.afterAll ('/' :: '/' :: line)) (rest.drop line.length)
    | '/' :: '*' :: rest =>
      let (p, rest) := skipComment fuel 1 ((p.after '/').after '*') rest
      skipBlank fuel p rest
    | c :: rest => if Text.isBlank c then skipBlank fuel (p.after c) rest else (p, cs)
    | [] => (p, [])
where
  /-- Skip to the end of a comment that is `depth` levels deep. -/
  skipComment : Nat → Nat → Position → List Char → Position × List Char
    | 0, _, p, cs => (p, cs)
    | _, 0, p, cs => (p, cs)
    | fuel + 1, depth + 1, p, cs =>
      match cs with
      | '*' :: '/' :: rest => skipComment fuel depth ((p.after '*').after '/') rest
      | '/' :: '*' :: rest => skipComment fuel (depth + 2) ((p.after '/').after '*') rest
      | c :: rest => skipComment fuel (depth + 1) (p.after c) rest
      | [] => (p, [])

/-! ## Tokens -/

def isNameStart (c : Char) : Bool := c.isAlpha || c = '_'

def isNameChar (c : Char) : Bool := c.isAlphanum || c = '_'

/-- The token of a word.  A name has a letter before any digit. -/
def wordToken (cs : List Char) : Token :=
  let word := String.ofList cs
  if keywords.contains word then .keyword word
  else
    match cs.dropWhile (· = '_') with
    | c :: _ => if c.isAlpha then .name word else .bad
    | [] => .bad

/-- The first of some words that stands at the front. -/
def longest? (words : List String) (cs : List Char) : Option (String × List Char) :=
  words.findSome? fun w =>
    if w.toList.isPrefixOf cs then some (w, cs.drop w.toList.length) else none

/-- One token, what follows it and the state there.  After a bad token nothing follows. -/
structure Step where
  token : Token
  rest : List Char
  state : State

/-- A token that took up the characters between two ends. -/
def took (st : State) (token : Token) (cs rest : List Char) : Step :=
  ⟨token, rest, { st with
    position := st.position.afterAll (cs.take (cs.length - rest.length))
    signAllowed := token.beforeOperand }⟩

def bad (st : State) : Step := ⟨.bad, [], st⟩

/-- Whether a text is within the limit. -/
def fits (st : State) (text : List Char) : Bool :=
  st.textLimit = 0 || (String.ofList text).utf8ByteSize ≤ st.textLimit

/-- Go on with a template from a place in its text. -/
def templateStep (st : State) (first : Bool) (p : Position) (cs : List Char) : Step :=
  match readTemplate p [] cs with
  | none => bad st
  | some piece =>
    let text := String.ofList piece.text
    if !fits st piece.text then bad st
    else if piece.opensExpression then
      ⟨if first then .templateStart text else .templateMiddle text, piece.rest,
        { st with position := piece.position, signAllowed := true,
                  templates := if first then 0 :: st.templates else 0 :: st.templates.tail }⟩
    else
      ⟨if first then .string text else .templateEnd text, piece.rest,
        { st with position := piece.position, signAllowed := false,
                  templates := if first then st.templates else st.templates.tail }⟩

/-- Count an opened or closed brace in the innermost template expression. -/
def countBrace (st : State) (f : Nat → Nat) : State :=
  match st.templates with
  | [] => st
  | n :: rest => { st with templates := f n :: rest }

/-- Read the token at the front of a text that starts with no blank. -/
def step (st : State) (cs : List Char) : Step :=
  match cs with
  | [] => bad st
  | '"' :: rest =>
    match readQuoted '"' (rest.length + 1) (st.position.after '"') [] rest with
    | some piece =>
      if fits st piece.text then
        ⟨.string (String.ofList piece.text), piece.rest,
          { st with position := piece.position, signAllowed := false }⟩
      else bad st
    | none => bad st
  | '\'' :: rest =>
    match readQuoted '\'' (rest.length + 1) (st.position.after '\'') [] rest with
    | some ⟨[c], rest, p, _⟩ =>
      ⟨.char c, rest, { st with position := p, signAllowed := false }⟩
    | _ => bad st
  | '\x60' :: '\n' :: rest =>
    templateStep st true ((st.position.after '\x60').after '\n') rest
  | '\x60' :: rest => templateStep st true (st.position.after '\x60') rest
  | '\x7d' :: rest =>
    match st.templates with
    | 0 :: _ => templateStep st false (st.position.after '\x7d') rest
    | _ => took (countBrace st (· - 1)) (.symbol "\x7d") cs rest
  | c :: rest =>
    if isDigit c then
      let (token, rest) := readNumber false cs
      took st token cs rest
    else if c = '-' ∧ st.signAllowed ∧ rest.head?.any isDigit then
      let (token, rest) := readNumber true rest
      took st token cs rest
    else if isNameStart c then
      let word := cs.takeWhile isNameChar
      took st (wordToken word) cs (cs.drop word.length)
    else if c = '!' ∧ "in".toList.isPrefixOf rest ∧ !(rest.drop 2).head?.any isNameChar then
      took st (.symbol "!in") cs (rest.drop 2)
    else if (longest? reservedSymbols cs).isSome ∧ !"**".toList.isPrefixOf cs then bad st
    else
      match longest? symbols cs with
      | some (s, rest) =>
        let st := if s = "\x7b" ∨ s = "#\x7b" then countBrace st (· + 1) else st
        took st (.symbol s) cs rest
      | none => bad st

/-- All tokens, and the place behind the last character.  Every step takes a character or ends
the text, so the length bounds their number. -/
def lexemesWithin : Nat → State → List Char → List Lexeme × Position
  | 0, st, _ => ([], st.position)
  | fuel + 1, st, cs =>
    match skipBlank (cs.length + 1) st.position cs with
    | (p, []) => ([], p)
    | (p, cs) =>
      let s := step { st with position := p } cs
      let (rest, stop) := lexemesWithin fuel s.state s.rest
      (⟨s.token, p⟩ :: rest, stop)

/-- The tokens of a script, and the place of its end. -/
def lexemes (textLimit : Nat) (script : String) : List Lexeme × Position :=
  let cs := script.toList
  lexemesWithin (cs.length + 1) ⟨.start, true, [], textLimit⟩ cs

end StoreSync.Script.Lexer
