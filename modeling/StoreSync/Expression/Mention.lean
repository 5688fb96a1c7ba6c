/-!
# Names mentioned in an expression

Whether an expression mentions a binding is decided on its text: some word outside the quoted
literals is the name, or the name followed by an underscore and more.  A literal opens at any of
the three quotes and runs to the next equal quote that no backslash escapes.
-/

namespace StoreSync.Expression

/-- Letters, digits and underscores of ASCII make up words. -/
def isWordChar (c : Char) : Bool := c.isAlphanum || c = '_'

def isQuote (c : Char) : Bool := c = '"' || c = '\'' || c = '\x60'

/-- Whether a word is the name or derives from it, as `name_values` does. -/
def derivesFrom (name word : List Char) : Bool :=
  name.isPrefixOf word &&
    match word.drop name.length with
    | [] => true
    | c :: _ => c = '_'

/-- Where the scan stands: within a word, given in reverse, or within a literal. -/
inductive Scan where
  | word (reversed : List Char)
  | literal (quote : Char) (escaped : Bool)

/-- Scan the text and look at every word as it ends. -/
def mentionsFrom (name : List Char) : Scan → List Char → Bool
  | .word w, [] => derivesFrom name w.reverse
  | .literal _ _, [] => false
  | .word w, c :: rest =>
    if isWordChar c then mentionsFrom name (.word (c :: w)) rest
    else derivesFrom name w.reverse ||
      mentionsFrom name (if isQuote c then .literal c false else .word []) rest
  | .literal q escaped, c :: rest =>
    if escaped then mentionsFrom name (.literal q false) rest
    else if c = '\\' then mentionsFrom name (.literal q true) rest
    else if c = q then mentionsFrom name (.word []) rest
    else mentionsFrom name (.literal q false) rest

/-- Whether an expression mentions a name outside its literals. -/
def mentions (expression name : String) : Bool :=
  mentionsFrom name.toList (.word []) expression.toList

end StoreSync.Expression
