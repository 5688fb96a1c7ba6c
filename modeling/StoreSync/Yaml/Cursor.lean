import StoreSync.Yaml.Scalar

/-!
# Reading scalars

A cursor is the rest of a text with the place where it begins.  Scalars are read from a cursor:
in single quotes, in double quotes with escapes, plainly, or as a block of lines.  A line end
within a quoted or plain scalar stands for a blank, and every empty line behind it for a line
end.
-/

namespace StoreSync.Yaml

/-- The rest of a text, and the line and column of its first character. -/
structure Cursor where
  rest : List Char
  line : Nat
  column : Nat
deriving Repr

def isSpace (c : Char) : Bool := c = ' ' || c = '\t'

/-- Whether a list of characters begins with a blank, a line end, or is over. -/
def startsBlank : List Char → Bool
  | [] => true
  | c :: _ => isSpace c || c = '\n'

namespace Cursor

def start (cs : List Char) : Cursor := ⟨cs, 0, 0⟩

/-- Go on by characters of the same line. -/
def ahead (n : Nat) (c : Cursor) : Cursor :=
  { c with rest := c.rest.drop n, column := c.column + n }

/-- Go on past blanks of the same line. -/
def pastSpaces (c : Cursor) : Cursor := c.ahead (c.rest.takeWhile isSpace).length

/-- Go on past characters, which may hold line ends. -/
def past : List Char → Cursor → Cursor
  | [], c => c
  | '\n' :: cs, c => past cs ⟨c.rest.drop 1, c.line + 1, 0⟩
  | _ :: cs, c => past cs (c.ahead 1)

/-- The cursor at a suffix of its text. -/
def moveTo (rest : List Char) (c : Cursor) : Cursor :=
  c.past (c.rest.take (c.rest.length - rest.length))

/-- Skip blanks, line ends and comments.  Outside of brackets a line may not be indented with
tabulators. -/
def skip (bracketed : Bool) : (tabs comment : Bool) → List Char → Nat → Nat → Cursor
  | _, _, [], line, column => ⟨[], line, column⟩
  | tabs, comment, c :: rest, line, column =>
    if c = '\n' then skip bracketed bracketed false rest (line + 1) 0
    else if comment || c = ' ' || (c = '\t' && tabs) then
      skip bracketed tabs comment rest line (column + 1)
    else if c = '#' then skip bracketed tabs true rest line (column + 1)
    else ⟨c :: rest, line, column⟩

/-- The next cursor at something other than blanks and comments. -/
def next (bracketed : Bool) (c : Cursor) : Cursor :=
  skip bracketed (bracketed || c.column ≠ 0) false c.rest c.line c.column

/-- Whether a line begins here with three equal characters and then a blank. -/
def isMarker (mark : Char) (c : Cursor) : Bool :=
  match c.column, c.rest with
  | 0, a :: b :: d :: rest => a = mark && b = mark && d = mark && startsBlank rest
  | _, _ => false

/-- Whether a document begins or ends here. -/
def isDocumentEdge (c : Cursor) : Bool := c.isMarker '-' || c.isMarker '.'

/-- Whether nothing of the document is left. -/
def isOver (c : Cursor) : Bool := c.rest.isEmpty || c.isDocumentEdge

/-- Whether an entry of a sequence begins here. -/
def isDash (c : Cursor) : Bool :=
  match c.rest with
  | '-' :: rest => startsBlank rest
  | _ => false

end Cursor

/-! ## Line ends -/

/-- Skip a line end with the blanks around it, and further ones: their number, and the rest. -/
def breaks : Nat → List Char → Nat × List Char
  | n, [] => (n, [])
  | n, c :: rest =>
    if c = '\n' then breaks (n + 1) rest
    else if isSpace c then breaks n rest
    else (n, c :: rest)

/-- What line ends in a row stand for. -/
def folded : Nat → List Char
  | 0 => []
  | 1 => [' ']
  | n + 1 => List.replicate n '\n'

/-- Take a run of blanks and line ends within a scalar.  The blanks count unless there is a line
end among them. -/
def readGap (cs : List Char) : List Char × List Char :=
  let blanks := cs.takeWhile isSpace
  let rest := cs.dropWhile isSpace
  match rest with
  | '\n' :: _ =>
    let (n, rest) := breaks 0 rest
    (folded n, rest)
  | _ => (blanks, rest)

/-! ## Quoted scalars -/

/-- Characters that one letter behind a backslash stands for. -/
def escapes : List (Char × Char) := [
  ('0', '\x00'), ('a', '\x07'), ('b', '\x08'), ('t', '\t'), ('\t', '\t'), ('n', '\n'),
  ('v', '\x0b'), ('f', '\x0c'), ('r', '\r'), ('e', '\x1b'), (' ', ' '), ('"', '"'), ('/', '/'),
  ('\\', '\\'), ('N', '\x85'), ('_', '\xa0'), ('L', '\u2028'), ('P', '\u2029')]

/-- How many hexadecimal digits follow a letter behind a backslash. -/
def codeLength? (c : Char) : Option Nat :=
  if c = 'x' then some 2 else if c = 'u' then some 4 else if c = 'U' then some 8 else none

/-- The character with a code, which must not be half of a pair. -/
def charOfCode? (n : Nat) : Option Char := if n.isValidChar then some (Char.ofNat n) else none

/-- The rest of a scalar in single quotes.  The first number bounds the number of steps. -/
def readSingle : Nat → List Char → List Char → Option (String × List Char)
  | 0, _, _ => none
  | _, _, [] => none
  | fuel + 1, acc, c :: rest =>
    if c = '\'' then
      match rest with
      | '\'' :: rest => readSingle fuel ('\'' :: acc) rest
      | rest => some (String.ofList acc.reverse, rest)
    else if isSpace c || c = '\n' then
      let (gap, rest) := readGap (c :: rest)
      readSingle fuel (gap.reverse ++ acc) rest
    else readSingle fuel (c :: acc) rest

/-- The rest of a scalar in double quotes.  A line end behind a backslash stands for nothing. -/
def readDouble : Nat → List Char → List Char → Option (String × List Char)
  | 0, _, _ => none
  | _, _, [] => none
  | fuel + 1, acc, c :: rest =>
    if c = '"' then some (String.ofList acc.reverse, rest)
    else if c = '\\' then
      match rest with
      | [] => none
      | e :: rest =>
        if e = '\n' then
          let (n, rest) := breaks 0 rest
          readDouble fuel (List.replicate n '\n' ++ acc) rest
        else
          match escapes.lookup e, codeLength? e with
          | some c, _ => readDouble fuel (c :: acc) rest
          | none, some n =>
            if rest.length < n then none
            else
              match Text.magnitude? 16 (rest.take n) >>= charOfCode? with
              | some c => readDouble fuel (c :: acc) (rest.drop n)
              | none => none
          | none, none => none
    else if isSpace c || c = '\n' then
      let (gap, rest) := readGap (c :: rest)
      readDouble fuel (gap.reverse ++ acc) rest
    else readDouble fuel (c :: acc) rest

/-! ## Plain scalars -/

def isBracket (c : Char) : Bool := c = ',' || c = '[' || c = ']' || c = '\x7b' || c = '\x7d'

/-- Characters that no plain scalar begins with. -/
def isIndicator (c : Char) : Bool :=
  isBracket c || c = '#' || c = '&' || c = '*' || c = '!' || c = '|' || c = '>' || c = '\'' ||
    c = '"' || c = '%' || c = '@' || c = '\x60'

/-- Whether a plain scalar begins here. -/
def startsPlain (bracketed : Bool) : List Char → Bool
  | [] => false
  | c :: rest =>
    if c = '-' then !startsBlank rest
    else if c = '?' || c = ':' then !bracketed && !startsBlank rest
    else !startsBlank (c :: rest) && !isIndicator c

/-- What a plain scalar has on one line, and the rest.  It ends before a colon or behind a blank
before a number sign; a colon right before a bracket is an error. -/
def readRun (bracketed : Bool) : (blank : Bool) → List Char → Option (List Char × List Char)
  | _, [] => some ([], [])
  | blank, c :: rest =>
    if c = '\n' || (c = '#' && blank) || (c = ':' && startsBlank rest) ||
        (bracketed && isBracket c) then some ([], c :: rest)
    else if bracketed && c = ':' && (rest.head?.any fun d => isBracket d || d = '?') then none
    else (readRun bracketed (isSpace c) rest).map fun (run, rest) => (c :: run, rest)

/-- Drop blanks at the end of a run. -/
def trimRun (run : List Char) : List Char := (run.reverse.dropWhile isSpace).reverse

/-- A plain scalar from its first line on, with the text so far in reverse.  Outside of brackets
it goes on with the lines that are indented at least as far as given. -/
def readPlain (bracketed : Bool) (least : Nat) :
    Nat → List Char → Cursor → Option (String × Cursor)
  | 0, _, _ => none
  | fuel + 1, acc, c => do
    let (run, rest) ← readRun bracketed true c.rest
    let text := trimRun run
    let acc := text.reverse ++ acc
    let here := (String.ofList acc.reverse, c.ahead text.length)
    match breaks 0 rest with
    | (0, _) => return here
    | (n, further) =>
      let there := c.moveTo further
      if there.isOver || there.rest.head? = some '#' || (!bracketed && there.column < least) then
        return here
      else
        match ← readRun bracketed true there.rest with
        | ([], _) => return here
        | _ => readPlain bracketed least fuel ((folded n).reverse ++ acc) there

/-! ## Blocks of lines -/

/-- What becomes of the line ends at the end of a block. -/
inductive Chomping where
  | strip
  | clip
  | keep
deriving DecidableEq, Repr

/-- The head of a block: what becomes of its end, and how much deeper than its surroundings it is
indented, if that is said. -/
def readHead : List Char → Chomping → Option Nat → Option (Chomping × Option Nat × List Char)
  | [], chomping, indent => some (chomping, indent, [])
  | c :: rest, chomping, indent =>
    if c = '-' then readHead rest .strip indent
    else if c = '+' then readHead rest .keep indent
    else if '1' ≤ c ∧ c ≤ '9' then readHead rest chomping (Text.digit? c)
    else
      match (c :: rest).dropWhile isSpace with
      | [] => some (chomping, indent, [])
      | '\n' :: lines => some (chomping, indent, lines)
      | '#' :: rest =>
        if isSpace c then some (chomping, indent, (rest.dropWhile (· ≠ '\n')).drop 1) else none
      | _ => none

/-- The lines of a block without their indentation, from the lines of a text. -/
def blockLines (indent : Nat) : List (List Char) → List (List Char)
  | [] => []
  | line :: rest =>
    if line.all (· = ' ') || (line.take indent).all (· = ' ') then
      line.drop indent :: blockLines indent rest
    else []

/-- Drop lines at the front. -/
def dropLines : Nat → List Char → List Char
  | 0, cs => cs
  | n + 1, cs => dropLines n ((cs.dropWhile (· ≠ '\n')).drop 1)

/-- The text of the lines of a block: the text so far in reverse, the line ends since its last
line that is not empty, and whether that line began with a blank. -/
def joinLines (isFolded : Bool) : List (List Char) → List Char → Nat → Bool → List Char × Nat
  | [], acc, pending, _ => (acc, pending)
  | line :: rest, acc, pending, indented =>
    if line.isEmpty then joinLines isFolded rest acc (pending + 1) indented
    else
      let indentedNow := startsBlank line
      let gap :=
        if isFolded && !indented && !indentedNow && !acc.isEmpty then folded pending
        else List.replicate pending '\n'
      joinLines isFolded rest (line.reverse ++ gap ++ acc) 1 indentedNow

/-- A block behind its mark, in surroundings that are indented by less than `least`. -/
def readBlock (isFolded : Bool) (least : Nat) (cs : List Char) : Option (String × List Char) := do
  let (chomping, indent, body) ← readHead cs .clip none
  let ended := body.getLast? = some '\n'
  let all := body.splitOn '\n'
  let all := if all.getLast? = some [] then all.dropLast else all
  let deepest := ((all.find? fun line => line.any (· ≠ ' ')).map
    fun line => (line.takeWhile (· = ' ')).length).getD 0
  let lines := blockLines (match indent with
    | some n => least - 1 + n
    | none => max deepest (max least 1)) all
  let (text, pending) := joinLines isFolded lines [] 0 false
  let pending := if lines.length = all.length && !ended then pending - 1 else pending
  let ending := match chomping with
    | .strip => 0
    | .clip => if text.isEmpty then 0 else min pending 1
    | .keep => pending
  return (String.ofList (List.replicate ending '\n' ++ text).reverse, dropLines lines.length body)

end StoreSync.Yaml
