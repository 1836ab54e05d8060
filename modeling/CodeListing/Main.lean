import CodeListing.Command.Execute
import CodeListing.Moment
import Std.Time.DateTime.Timestamp

/-!
# The program

The commands run on the files and the clock of the real machine.
-/

set_option autoImplicit false

namespace CodeListing

/-- The number of a failure, which the machine gives with either sign. -/
def failureNumber (code : UInt32) : UInt32 :=
  if code < 0x80000000 then code else 0 - code

/-- Why the machine refused a file. -/
def FileFault.ofIOError : IO.Error → FileFault
  | .noFileOrDirectory _ _ _ => .notFound
  | .inappropriateType _ code details =>
    if failureNumber code == 20 then .notDirectory
    else if failureNumber code == 21 then .isDirectory
    else .other details
  | error => .other (toString error)

/-- An action with its failure as a value. -/
def attempt {α : Type} (action : IO α) : IO (Except FileFault α) := do
  match ← action.toBaseIO with
  | .ok a => return .ok a
  | .error e => return .error (.ofIOError e)

/-- The real machine. -/
def machine : Host IO where
  canonical? := fun path => do
    match ← attempt (IO.FS.realPath path) with
    | .ok found => return some found.toString
    | .error _ => return none
  directory := return (← IO.currentDir).toString
  readBytes := fun path => attempt (IO.FS.readBinFile path)
  writeText := fun path text => attempt (IO.FS.writeFile path text)
  now := do
    let elapsed := (← Std.Time.Timestamp.now).toDurationSinceUnixEpoch
    return Moment.text ⟨elapsed.second.val.toNat, elapsed.nano.val.toNat⟩

end CodeListing

/-- Runs the command that the arguments ask for. -/
def main (arguments : List String) : IO UInt32 := do
  let result ← CodeListing.Command.runProgram CodeListing.machine arguments
  (← IO.getStdout).putStr result.output
  (← IO.getStderr).putStr result.errors
  return result.exitCode
