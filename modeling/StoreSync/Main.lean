import Std.Async.Signal
import StoreSync.Command.Program

/-!
# The program

The command over the files, the variables and the clock of the machine.  Polling goes on in real
time until an interrupt.
-/

namespace StoreSync.Main

/-! ## The machine -/

def fileError : IO.Error → FileError
  | .noFileOrDirectory _ _ _ => .notFound
  | .inappropriateType _ code _ => if code = 20 then .notADirectory else .isADirectory
  | e => .other (toString e)

def attempt {α : Type} (action : IO α) : IO (Except FileError α) := do
  try return .ok (← action)
  catch e => return .error (fileError e)

/-- The present, in nanoseconds. -/
def present : IO Instant := do
  let t ← Std.Time.Timestamp.now
  return ⟨t.toNanosecondsSinceUnixEpoch.val⟩

/-- A random name in five groups of hexadecimal digits. -/
def randomName : IO String := do
  let bytes := (← IO.getRandomBytes 16).toList.zipIdx.map fun (b, i) =>
    if i = 6 then b &&& 0x0f ||| 0x40 else if i = 8 then b &&& 0x3f ||| 0x80 else b
  let digits := bytes.flatMap fun b => Json.hexByte b.toNat
  let group (first count : Nat) := String.ofList ((digits.drop first).take count)
  return "-".intercalate [group 0 8, group 8 4, group 12 4, group 16 4, group 20 12]

instance : Host IO where
  readFile path := attempt (IO.FS.readFile path)
  isPresent path := do
    match ← attempt (IO.FS.Handle.mk path .read) with
    | .error .notFound | .error .notADirectory => return false
    | _ => return true
  writeFile path text := attempt (IO.FS.writeFile path text)
  environment name := IO.getEnv name
  now := present
  newRunName := randomName

/-! ## Polling -/

/-- Bounds the steps that loops take before the program looks at the clock again. -/
def burst : Nat := 100000

/-- Let loops run until they are interrupted. -/
partial def pollUntil (interrupted : IO Bool) (start : Nat) (g : PollingGroup Stores) :
    IO (Timed (PollingGroup Stores)) := do
  let now := (← IO.monoMsNow) - start
  let g := PollingGroup.process.run (fun _ => false) (some (now + 1)) burst ⟨now, g⟩
  if ← interrupted then return g
  else
    IO.sleep 10
    pollUntil interrupted start g.state

def poll (g : PollingGroup Stores) : IO (Timed (PollingGroup Stores)) := do
  let signal ← Std.Async.Signal.Waiter.mk .sigint false
  let waiting ← signal.wait
  pollUntil (IO.hasFinished waiting) (← IO.monoMsNow) g

end StoreSync.Main

def main (words : List String) : IO UInt32 := do
  let outcome ← StoreSync.Command.run StoreSync.Main.poll words
  outcome.output.forM IO.println
  outcome.complaints.forM IO.eprintln
  return outcome.exitCode.toUInt32
