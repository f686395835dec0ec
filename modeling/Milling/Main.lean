import Milling.Command.Run
import Milling.Workplace.Basic
import Std.Time.DateTime.Timestamp

/-!
# The program

The commands at a real workplace: files on disk, standard output for results
and standard error for messages.
-/

namespace Milling

def attempt (action : IO β) : IO (Option β) := do
  match ← action.toBaseIO with
  | .ok value => pure (some value)
  | .error _ => pure none

instance : Workplace IO where
  readFile path := do
    pure ((← attempt (IO.FS.readBinFile path)).map fun bytes => bytes.toList)
  writeFile path text := do pure (← attempt (IO.FS.writeFile path text)).isSome
  makeFolder path := do pure (← attempt (IO.FS.createDirAll path)).isSome
  print text := do
    let output ← IO.getStdout
    output.putStr text
    output.flush
  report line := IO.eprintln line
  clock := do
    let now ← Std.Time.Timestamp.now
    pure (Clock.ofMilliseconds now.toMillisecondsSinceUnixEpoch.val.toNat)

end Milling

def main (arguments : List String) : IO UInt32 := do
  pure (UInt32.ofNat (← Milling.Request.serve arguments))
