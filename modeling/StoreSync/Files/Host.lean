import StoreSync.Time

/-!
# The host

What the command needs of the machine it runs on: files of text, variables, the time of day, and
names that are new.
-/

namespace StoreSync

/-- Why a file could not be read or written. -/
inductive FileError where
  | notFound
  | notADirectory
  | isADirectory
  | other (message : String)
deriving DecidableEq, Repr

def FileError.message : FileError → String
  | .notFound => "No such file or directory (os error 2)"
  | .notADirectory => "Not a directory (os error 20)"
  | .isADirectory => "Is a directory (os error 21)"
  | .other m => m

/-- What the command needs of its machine, as effects of `m`. -/
class Host (m : Type → Type) where
  readFile : String → m (Except FileError String)
  /-- Whether there is a file or directory at a path. -/
  isPresent : String → m Bool
  /-- Write a file, in place of one that is there. -/
  writeFile : String → String → m (Except FileError Unit)
  /-- The value of a variable of the environment. -/
  environment : String → m (Option String)
  now : m Instant
  /-- A name for a run that no other run has. -/
  newRunName : m String

end StoreSync
