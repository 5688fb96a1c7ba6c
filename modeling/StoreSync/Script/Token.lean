import StoreSync.Decimal.Double

/-!
# Words of the expression language

A token with the place of its first character.  A text between back quotes may hold expressions
in `${…}`; it is cut into the pieces of text around them.  What is not a word of the language is
a `bad` token, so that a reader reports the first fault in reading order.
-/

namespace StoreSync.Script

/-- A place in a script, counted from one. -/
structure Position where
  line : Nat
  column : Nat
deriving DecidableEq, Repr

namespace Position

def start : Position := ⟨1, 1⟩

/-- The place behind a character. -/
def after (p : Position) (c : Char) : Position :=
  if c = '\n' then ⟨p.line + 1, 1⟩ else ⟨p.line, p.column + 1⟩

def afterAll (p : Position) (cs : List Char) : Position := cs.foldl after p

end Position

/-- A word of the language. -/
inductive Token where
  | name (text : String)
  | keyword (text : String)
  | symbol (text : String)
  | integer (value : Int)
  | float (value : Decimal.Double)
  | char (value : Char)
  | string (text : String)
  /-- The piece of a template before its first expression. -/
  | templateStart (text : String)
  /-- A piece between two expressions. -/
  | templateMiddle (text : String)
  /-- The piece behind the last expression. -/
  | templateEnd (text : String)
  | bad
deriving DecidableEq, Repr

/-- A token at its place. -/
structure Lexeme where
  token : Token
  position : Position
deriving DecidableEq, Repr

/-- The words that cannot name anything. -/
def keywords : List String :=
  ["true", "false", "let", "const", "if", "else", "while", "loop", "for", "in", "break",
    "continue", "fn", "return", "throw", "do", "until", "switch", "try", "catch", "private",
    "import", "export", "as", "var", "static", "shared", "goto", "exit", "match", "public",
    "protected", "new", "use", "with", "is", "module", "package", "super", "thread", "spawn",
    "go", "sync", "async", "await", "yield", "default", "void", "null", "nil", "case"]

/-- Operators and punctuation, longer ones before their beginnings. -/
def symbols : List String :=
  ["**=", "<<=", ">>=", "..=", "?[", "?.", "??", "+=", "-=", "*=", "/=", "%=", "**", "..",
    "==", "!=", "<=", ">=", "#\x7b", "||", "|=", "&&", "&=", "^=", "<<", ">>",
    "\x7b", "\x7d", "(", ")", "[", "]", "+", "-", "*", "/", "%", ".", ":", ";", ",", "=", "<",
    ">", "|", "&", "^", "!", "?"]

/-- Character sequences that are set aside and mean nothing. -/
def reservedSymbols : List String :=
  ["===", "!==", "...", "++", "--", "::", ":=", "<-", "->", "=>", "|>", "(*", "*)"]

namespace Token

/-- Whether a sign behind the token belongs to the number or operand that follows it. -/
def beforeOperand : Token → Bool
  | .name _ | .integer _ | .float _ | .char _ | .string _ | .templateEnd _ => false
  | .keyword k => k != "true" && k != "false"
  | .symbol s => s != ")" && s != "]" && s != "\x7d"
  | .templateStart _ | .templateMiddle _ | .bad => true

end Token

end StoreSync.Script
