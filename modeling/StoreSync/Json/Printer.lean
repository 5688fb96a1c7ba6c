import StoreSync.Json.Basic

/-!
# Data values as text

The compact form without blanks, and the indented form of data files: two spaces a level,
`"name": value`, and no line break inside an empty array or object.
-/

namespace StoreSync.Json

/-- Two hexadecimal digits, in lower case. -/
def hexByte (n : Nat) : List Char :=
  [Nat.digitChar (n / 16 % 16), Nat.digitChar (n % 16)]

/-- A character inside a quoted text.  Quotes, backslashes and control characters are escaped. -/
def escapeChar (c : Char) : List Char :=
  if c = '"' then ['\\', '"']
  else if c = '\\' then ['\\', '\\']
  else if c = '\n' then ['\\', 'n']
  else if c = '\r' then ['\\', 'r']
  else if c = '\t' then ['\\', 't']
  else if c.toNat = 8 then ['\\', 'b']
  else if c.toNat = 12 then ['\\', 'f']
  else if c.toNat < 32 then '\\' :: 'u' :: '0' :: '0' :: hexByte c.toNat
  else [c]

/-- A text in quotes. -/
def quoted (s : String) : String :=
  "\"" ++ String.ofList (s.toList.flatMap escapeChar) ++ "\""

mutual

/-- The compact form. -/
def compact : Json → String
  | .null => "null"
  | .boolean b => if b then "true" else "false"
  | .number n => n.text
  | .string s => quoted s
  | .array items => "[" ++ compactItems items ++ "]"
  | .members fields => "\x7b" ++ compactMembers fields ++ "\x7d"

def compactItems : List Json → String
  | [] => ""
  | [item] => compact item
  | item :: rest => compact item ++ "," ++ compactItems rest

def compactMembers : List (String × Json) → String
  | [] => ""
  | [(name, value)] => quoted name ++ ":" ++ compact value
  | (name, value) :: rest => quoted name ++ ":" ++ compact value ++ "," ++ compactMembers rest

end

/-- A line break with the indentation of a level. -/
def newline (level : Nat) : String := "\n" ++ String.ofList (List.replicate (2 * level) ' ')

mutual

/-- The indented form, at a level. -/
def indented (level : Nat) : Json → String
  | .null => "null"
  | .boolean b => if b then "true" else "false"
  | .number n => n.text
  | .string s => quoted s
  | .array [] => "[]"
  | .array (item :: rest) =>
    "[" ++ newline (level + 1) ++ indented (level + 1) item ++
      indentedItems (level + 1) rest ++ newline level ++ "]"
  | .members [] => "\x7b\x7d"
  | .members ((name, value) :: rest) =>
    "\x7b" ++ newline (level + 1) ++ quoted name ++ ": " ++ indented (level + 1) value ++
      indentedMembers (level + 1) rest ++ newline level ++ "\x7d"

/-- The items after the first one. -/
def indentedItems (level : Nat) : List Json → String
  | [] => ""
  | item :: rest => "," ++ newline level ++ indented level item ++ indentedItems level rest

/-- The members after the first one. -/
def indentedMembers (level : Nat) : List (String × Json) → String
  | [] => ""
  | (name, value) :: rest =>
    "," ++ newline level ++ quoted name ++ ": " ++ indented level value ++
      indentedMembers level rest

end

/-- The form of data files. -/
def pretty (value : Json) : String := indented 0 value

end StoreSync.Json
