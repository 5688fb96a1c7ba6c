/-!
# Blank characters

The characters with the white-space property, and the removal of blanks at both ends of a text.
-/

namespace StoreSync.Text

/-- Spaces, tabulators, line and paragraph ends, in ASCII and beyond. -/
def isBlank (c : Char) : Bool :=
  let n := c.toNat
  (9 ≤ n && n ≤ 13) || n = 32 || n = 0x85 || n = 0xA0 || n = 0x1680 ||
    (0x2000 ≤ n && n ≤ 0x200A) || n = 0x2028 || n = 0x2029 || n = 0x202F || n = 0x205F ||
    n = 0x3000

/-- Drop blanks at the end of a character list. -/
def trimEndChars (cs : List Char) : List Char := (cs.reverse.dropWhile isBlank).reverse

/-- Drop blanks at both ends of a character list. -/
def trimChars (cs : List Char) : List Char := trimEndChars (cs.dropWhile isBlank)

/-- The text without blanks at its ends. -/
def trim (s : String) : String := String.ofList (trimChars s.toList)

end StoreSync.Text
