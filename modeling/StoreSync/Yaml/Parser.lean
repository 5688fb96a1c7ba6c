import StoreSync.Yaml.Cursor
import StoreSync.Yaml.Node

/-!
# Reading configuration files

Outside of brackets the structure is in the columns.  The entries of a mapping or sequence begin
in one column; what belongs to an entry stands on its line or is indented further.  A sequence
that is the value of a key may stand in the column of the key.  Within brackets only the brackets
and commas count.

Every call reads at least one character or goes one level down, so that the number of characters
bounds the recursion.  Anchors, tags, directives and keys that are no scalars are not part of the
notation, and a text holds one document.
-/

namespace StoreSync.Yaml

/-- A scalar in quotes or a plain one. -/
def readScalar (bracketed : Bool) (least : Nat) (c : Cursor) : Option (Scalar × Cursor) :=
  let steps := c.rest.length + 1
  match c.rest with
  | '\'' :: rest => (readSingle steps [] rest).map fun (s, rest) => (⟨s, false⟩, c.moveTo rest)
  | '"' :: rest => (readDouble steps [] rest).map fun (s, rest) => (⟨s, false⟩, c.moveTo rest)
  | cs =>
    if startsPlain bracketed cs then
      (readPlain bracketed least steps [] c).map fun (s, c) => (⟨s, true⟩, c)
    else none

/-- Go on past the colon that makes a scalar a key.  It stands on the line on which the scalar
began; outside of brackets a blank follows. -/
def pastColon? (bracketed : Bool) (began : Nat) (c : Cursor) : Option Cursor :=
  let c := c.pastSpaces
  match c.rest with
  | ':' :: rest =>
    if c.line = began && (bracketed || startsBlank rest) then some (c.ahead 1) else none
  | _ => none

/-! ## Within brackets -/

/-- Whether a list of characters begins with a given one. -/
def startsWith (d : Char) (c : Cursor) : Bool := c.rest.head? = some d

/-- Go on past a comma, unless the closing bracket follows. -/
def pastComma? (close : Char) (c : Cursor) : Option Cursor :=
  if startsWith ',' c then some ((c.ahead 1).next true)
  else if startsWith close c then some c
  else none

mutual

/-- A node within brackets. -/
def readFlow : Nat → Cursor → Option (Node × Cursor)
  | 0, _ => none
  | fuel + 1, c =>
    if c.isOver then none
    else if startsWith '[' c then
      (readItems fuel ((c.ahead 1).next true)).map fun (items, c) => (.sequence items, c)
    else if startsWith '\x7b' c then
      (readMembers fuel ((c.ahead 1).next true)).map fun (entries, c) => (.mapping entries, c)
    else (readScalar true 0 c).map fun (s, c) => (.scalar s, c)

/-- The value behind a colon within brackets, which may be left out. -/
def readFlowValue : Nat → Cursor → Option (Node × Cursor)
  | 0, _ => none
  | fuel + 1, c =>
    if startsWith ',' c || startsWith ']' c || startsWith '\x7d' c then some (.empty, c)
    else readFlow fuel c

/-- The items of a sequence up to its closing bracket.  An item may be one key with its value. -/
def readItems : Nat → Cursor → Option (List Node × Cursor)
  | 0, _ => none
  | fuel + 1, c =>
    if startsWith ']' c then some ([], c.ahead 1)
    else do
      let (item, after) ← readFlow fuel c
      let (item, after) ← match item.scalar?, pastColon? true c.line after with
        | some key, some after => do
          let (value, after) ← readFlowValue fuel (after.next true)
          pure (.mapping [(key, value)], after)
        | _, _ => pure (item, after)
      let (items, after) ← readItems fuel (← pastComma? ']' (after.next true))
      return (item :: items, after)

/-- The entries of a mapping up to its closing bracket. -/
def readMembers : Nat → Cursor → Option (List (Scalar × Node) × Cursor)
  | 0, _ => none
  | fuel + 1, c =>
    if startsWith '\x7d' c then some ([], c.ahead 1)
    else do
      let (key, after) ← readScalar true 0 c
      let (value, after) ← match pastColon? true c.line after with
        | some after => readFlowValue fuel (after.next true)
        | none => pure (.empty, after)
      let (entries, after) ← readMembers fuel (← pastComma? '\x7d' (after.next true))
      return ((key, value) :: entries, after)

end

/-! ## In columns -/

/-- What surrounds a node. -/
structure Surroundings where
  /-- The least column of a node on a line of its own. -/
  least : Nat
  /-- Whether a sequence may stand one column before that. -/
  dashBefore : Bool
  /-- Whether the node begins where a mapping or sequence may begin. -/
  fresh : Bool

/-- A block of lines behind its mark. -/
def readLines (isFolded : Bool) (least : Nat) (c : Cursor) : Option (Node × Cursor) :=
  (readBlock isFolded least (c.rest.drop 1)).map fun (s, rest) =>
    (.scalar ⟨s, false⟩, c.moveTo rest)

mutual

/-- A node outside of brackets. -/
def readNode : Nat → Surroundings → Cursor → Option (Node × Cursor)
  | 0, _, _ => none
  | fuel + 1, s, c =>
    if c.isOver then some (.empty, c)
    else if s.fresh && c.isDash &&
        (s.least ≤ c.column || s.dashBefore && s.least ≤ c.column + 1) then
      (readEntries fuel c.column c).map fun (items, c) => (.sequence items, c)
    else if c.column < s.least then some (.empty, c)
    else if startsWith '[' c || startsWith '\x7b' c then readFlow fuel c
    else if startsWith '|' c then readLines false s.least c
    else if startsWith '>' c then readLines true s.least c
    else do
      let (key, after) ← readScalar false s.least c
      match pastColon? false c.line after with
      | none => return (.scalar key, after)
      | some after =>
        if s.fresh then
          let (value, after) ← readValue fuel c.column c.line after
          let (entries, after) ← readPairs fuel c.column (after.next false)
          return (.mapping ((key, value) :: entries), after)
        else none

/-- The value of a key in a column. -/
def readValue : Nat → (column line : Nat) → Cursor → Option (Node × Cursor)
  | 0, _, _, _ => none
  | fuel + 1, column, line, c =>
    let c := c.next false
    readNode fuel ⟨column + 1, true, c.line ≠ line⟩ c

/-- Further entries of a mapping in a column. -/
def readPairs : Nat → (column : Nat) → Cursor → Option (List (Scalar × Node) × Cursor)
  | 0, _, _ => none
  | fuel + 1, column, c =>
    if c.isOver || c.column < column then some ([], c)
    else if c.column ≠ column then none
    else do
      let (key, after) ← readScalar false (column + 1) c
      let (value, after) ← readValue fuel column c.line (← pastColon? false c.line after)
      let (entries, after) ← readPairs fuel column (after.next false)
      return ((key, value) :: entries, after)

/-- The entries of a sequence in a column. -/
def readEntries : Nat → (column : Nat) → Cursor → Option (List Node × Cursor)
  | 0, _, _ => none
  | fuel + 1, column, c =>
    if c.isOver || c.column < column then some ([], c)
    else if c.column ≠ column then none
    else if !c.isDash then some ([], c)
    else do
      let (item, after) ← readNode fuel ⟨column + 1, false, true⟩ ((c.ahead 1).next false)
      let (items, after) ← readEntries fuel column (after.next false)
      return (item :: items, after)

end

/-! ## Documents -/

/-- Whether a character may stand in a file. -/
def isAllowed (c : Char) : Bool :=
  c = '\t' || c = '\n' || c = '\r' || c = '\x85' || (' ' ≤ c && c ≤ '~') ||
    ('\xa0' ≤ c && c.toNat ≠ 0xFEFF && c.toNat ≠ 0xFFFE && c.toNat ≠ 0xFFFF)

/-- Write every line end as one character. -/
def unifyLines : List Char → List Char
  | '\r' :: '\n' :: rest => '\n' :: unifyLines rest
  | '\r' :: rest => '\n' :: unifyLines rest
  | c :: rest => c :: unifyLines rest
  | [] => []

/-- Whether nothing but the mark of its end follows a document. -/
def endsHere (c : Cursor) : Bool :=
  let c := c.next false
  if c.isMarker '.' then ((c.ahead 3).next false).rest.isEmpty else c.rest.isEmpty

/-- Read the one document of a text. -/
def parse? (text : String) : Option Node := do
  let cs := match text.toList with
    | c :: rest => if c.toNat = 0xFEFF then rest else c :: rest
    | [] => []
  if !cs.all isAllowed then none
  else
    let c := (Cursor.start (unifyLines cs)).next false
    let marked := c.isMarker '-'
    let begun := if marked then (c.ahead 3).next false else c
    let fresh := !marked || begun.line ≠ c.line
    let (node, after) ← readNode (3 * cs.length + 8) ⟨0, false, fresh⟩ begun
    if endsHere after then return node else none

end StoreSync.Yaml
