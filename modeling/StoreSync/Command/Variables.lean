import StoreSync.Text.Blank
import StoreSync.TextMap

/-!
# Files of variables

A file of variables holds a line `NAME=value` for each.  A value ends at a blank; it may be quoted,
and outside of single quotes a `$NAME` stands for another variable.  A number sign behind a blank
begins a comment.  Variables that are set already keep their value, and nothing is read behind the
first line that is wrong.
-/

namespace StoreSync.Variables

/-! ## Values -/

/-- What a character of a value means by the characters before it. -/
inductive Mode where
  | bare
  | single
  | double
  /-- Behind a backslash, outside or inside of double quotes. -/
  | escaped (quoted : Bool)
  /-- Behind a dollar sign: the name so far, in reverse, and whether braces are around it. -/
  | name (letters : List Char) (braced quoted : Bool)
  /-- Behind the blank that ends the value. -/
  | behind
deriving DecidableEq, Repr

/-- The mode outside of escapes and names. -/
def Mode.ground (quoted : Bool) : Mode := if quoted then .double else .bare

/-- The value of a variable, empty when it is not set. -/
def valueOf (known : TextMap String) (letters : List Char) : List Char :=
  ((known.get? (String.ofList letters.reverse)).getD "").toList

/-- One character outside of escapes, names and single quotes. -/
def plainStep (quoted : Bool) (out : List Char) (c : Char) : Mode × List Char :=
  if c = '$' then (.name [] false quoted, out)
  else if c = '\\' then (.escaped quoted, out)
  else if c = '"' then (.ground (!quoted), out)
  else if quoted then (.double, c :: out)
  else if c = '\'' then (.single, out)
  else if c = ' ' ∨ c = '\t' then (.behind, out)
  else (.bare, c :: out)

/-- Read a value, with its characters so far in reverse. -/
def readValue (known : TextMap String) : Mode → List Char → List Char → Option String
  | .single, _, [] => none
  | .double, _, [] => none
  | .name letters braced quoted, out, [] =>
    if braced || quoted then none
    else some (String.ofList ((valueOf known letters).reverse ++ out).reverse)
  | _, out, [] => some (String.ofList out.reverse)
  | .bare, out, c :: rest =>
    let (mode, out) := plainStep false out c
    readValue known mode out rest
  | .double, out, c :: rest =>
    let (mode, out) := plainStep true out c
    readValue known mode out rest
  | .single, out, c :: rest =>
    if c = '\'' then readValue known .bare out rest
    else readValue known .single (c :: out) rest
  | .escaped quoted, out, c :: rest =>
    if c = '\\' ∨ c = '\'' ∨ c = '"' ∨ c = '$' ∨ c = ' ' then
      readValue known (.ground quoted) (c :: out) rest
    else if c = 'n' then readValue known (.ground quoted) ('\n' :: out) rest
    else none
  | .name letters true quoted, out, c :: rest =>
    if c = '\x7d' then
      readValue known (.ground quoted) ((valueOf known letters).reverse ++ out) rest
    else readValue known (.name (c :: letters) true quoted) out rest
  | .name letters false quoted, out, c :: rest =>
    if c.isAlphanum then readValue known (.name (c :: letters) false quoted) out rest
    else if c = '\x7b' ∧ letters = [] then readValue known (.name [] true quoted) out rest
    else
      let out := (valueOf known letters).reverse ++ out
      if c = '$' then readValue known (.name [] false quoted) out rest
      else readValue known (.ground quoted) (c :: out) rest
  | .behind, out, c :: rest =>
    if c = ' ' ∨ c = '\t' then readValue known .behind out rest
    else if c = '#' then some (String.ofList out.reverse)
    else none

/-! ## Lines -/

def isNameChar (c : Char) : Bool := c.isAlphanum || c = '_' || c = '.'

/-- A name at the front, and what follows it and blanks. -/
def readName (cs : List Char) : Option (String × List Char) :=
  match cs with
  | c :: _ =>
    if c.isAlpha || c = '_' then
      some (String.ofList (cs.takeWhile isNameChar),
        (cs.dropWhile isNameChar).dropWhile Text.isBlank)
    else none
  | [] => none

/-- Behind the name of a variable: its value. -/
def readAssigned (known : TextMap String) : List Char → Option String
  | '=' :: rest =>
    match rest.dropWhile Text.isBlank with
    | [] => some ""
    | '#' :: _ => some ""
    | cs => readValue known .bare [] cs
  | _ => none

/-- Read a line that is neither empty nor a comment. -/
def readAssignment (known : TextMap String) (cs : List Char) : Option (String × String) := do
  let (name, rest) ← readName cs
  let (name, rest) ← if name = "export" && rest.head? ≠ some '=' then readName rest
    else some (name, rest)
  return (name, ← readAssigned known rest)

/-- Read lines one after the other. -/
def readLines : List (List Char) → TextMap String → TextMap String
  | [], known => known
  | line :: rest, known =>
    match Text.trimChars line with
    | [] => readLines rest known
    | '#' :: _ => readLines rest known
    | cs =>
      match readAssignment known cs with
      | none => known
      | some (name, value) =>
        readLines rest
          (if known.contains name then known else known.insert name value)

/-- Names that a text may mention: its longest runs of letters, digits and the like. -/
def mentioned (text : String) : List String :=
  ((text.toList.splitOnP fun c => !isNameChar c).filter (!·.isEmpty)).map String.ofList

/-- The variables with those of a file added. -/
def withFile (text : String) (known : TextMap String) : TextMap String :=
  readLines (text.toList.splitOn '\n') known

end StoreSync.Variables
