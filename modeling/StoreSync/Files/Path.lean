/-!
# Paths

A path is a text of names divided by `/`.  Repeated dividers and names `.` behind the first count
for nothing; no name is looked up.
-/

namespace StoreSync.Path

def isAbsolute (path : String) : Bool := path.toList.head? = some '/'

/-- The path that a path means within a directory. -/
def join (directory path : String) : String :=
  if isAbsolute path || directory = "" then path
  else if directory.toList.getLast? = some '/' then directory ++ path
  else directory ++ "/" ++ path

/-- The names of a path. -/
def names (path : String) : List (List Char) :=
  (path.toList.splitOn '/').filter fun name => !name.isEmpty && name ≠ ['.']

/-- Drop dividers and names `.` at the end of a path, which is given in reverse. -/
def trimReversed : List Char → List Char
  | ['/'] => ['/']
  | '/' :: rest => trimReversed rest
  | ['.', '/'] => ['/']
  | '.' :: '/' :: rest => trimReversed rest
  | cs => cs

/-- The directory of a path; empty when the path is a single name. -/
def parent (path : String) : String :=
  match trimReversed path.toList.reverse with
  | ['/'] => ""
  | cs => String.ofList (trimReversed (cs.dropWhile (· ≠ '/'))).reverse

end StoreSync.Path
