import StoreSync.Files.Host
import StoreSync.Files.Path
import StoreSync.TextMap

/-!
# A folder of files

A folder with all that is below it, as a value, and what else a command finds around it.  Paths
are meant within the folder, and nothing outside of it is there.
-/

namespace StoreSync

/-- The files and directories of a folder, each under its names joined by `/`. -/
structure Folder where
  /-- The text of a file; none for a directory. -/
  contents : TextMap (Option String)
  /-- The variables of the environment. -/
  environment : TextMap String
  /-- The time of day, which stands still. -/
  time : Instant
  /-- How many names were given to runs. -/
  named : Nat

namespace Folder

/-- The key of a file or directory, from its names in reverse. -/
def key (names : List String) : String := "/".intercalate names.reverse

/-- The names of a path. -/
def namesOf (path : String) : List String := (Path.names path).map String.ofList

/-- Put a file or directory below directories, which are given in reverse, and with it the
directories on the way. -/
def put (text : Option String) : (above names : List String) → TextMap (Option String) →
    TextMap (Option String)
  | _, [], contents => contents
  | above, [name], contents => contents.insert (key (name :: above)) text
  | above, name :: rest, contents =>
    let k := key (name :: above)
    put text (name :: above) rest (if contents.contains k then contents else contents.insert k none)

/-- The folder of a list of files with their texts, and of directories without. -/
def ofList (files : List (String × Option String)) (environment : TextMap String)
    (time : Instant) : Folder :=
  ⟨files.foldl (fun c f => put f.2 [] (namesOf f.1) c) ∅, environment, time, 0⟩

/-- What is at a place: a file's text, or none for a directory. -/
def at? (f : Folder) : List String → Option (Option String)
  | [] => some none
  | names => f.contents.get? (key names)

/-- Follow one name from a directory. -/
def follow (f : Folder) (place : List String) (name : String) : Except FileError (List String) :=
  match f.at? place with
  | none => .error .notFound
  | some (some _) => .error .notADirectory
  | some none =>
    if name ≠ ".." then .ok (name :: place)
    else match place with
      | [] => .error .notFound
      | _ :: parent => .ok parent

/-- The place that a path leads to. -/
def resolve (f : Folder) (path : String) : Except FileError (List String) :=
  if path = "" || Path.isAbsolute path then .error .notFound
  else (namesOf path).foldlM f.follow []

/-- The text of the file at a path. -/
def read (f : Folder) (path : String) : Except FileError String := do
  match f.at? (← f.resolve path) with
  | none => throw .notFound
  | some none => throw .isADirectory
  | some (some text) => return text

def holds (f : Folder) (path : String) : Bool :=
  match f.resolve path with
  | .ok place => (f.at? place).isSome
  | .error _ => false

/-- Write a file in a directory that is there. -/
def write (f : Folder) (path text : String) : Except FileError Folder := do
  let place ← f.resolve path
  match f.at? place with
  | some none => throw .isADirectory
  | _ => return { f with contents := f.contents.insert (key place) (some text) }

end Folder

instance : Host (StateM Folder) where
  readFile path := do return (← get).read path
  isPresent path := do return (← get).holds path
  writeFile path text := do
    match (← get).write path text with
    | .ok f =>
      set f
      return .ok ()
    | .error e => return .error e
  environment name := do return (← get).environment.get? name
  now := do return (← get).time
  newRunName := do
    modify fun f => { f with named := f.named + 1 }
    return "run " ++ toString (← get).named

end StoreSync
