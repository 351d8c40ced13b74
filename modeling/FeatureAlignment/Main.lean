import FeatureAlignment.Command.Run
import Std.Time.DateTime.Timestamp

/-!
# The program

* `main` carries out its arguments with the files of the machine.
-/

namespace FeatureAlignment

/-- What the machine says about a file that it refuses. -/
def FileFault.ofError : IO.Error → FileFault
  | .inappropriateType _ code _ => if code = 20 then .notDirectory else .isDirectory
  | _ => .missing

/-- **The access to the files of the machine.** -/
def machineFiles : FileAccess IO where
  read path := do
    try return .ok (← IO.FS.readFile path)
    catch e => return .error (FileFault.ofError e)
  write path content := do
    try
      IO.FS.writeFile path content
      return .ok ()
    catch e => return .error (FileFault.ofError e)

end FeatureAlignment

open FeatureAlignment in
/-- **The program.** -/
def main (arguments : List String) : IO UInt32 := do
  let now ← Std.Time.Timestamp.now
  let outcome ← Command.run machineFiles now.toSecondsSinceUnixEpoch.val arguments
  (← IO.getStdout).putStr outcome.console.out
  (← IO.getStderr).putStr outcome.console.err
  return outcome.exit.toUInt32
