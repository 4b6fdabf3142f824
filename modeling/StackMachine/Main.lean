-- SUMMARY: The program: the commands in the setting of the system.
import StackMachine.Command.Line
import StackMachine.Command.Response
import StackMachine.Log.Filter

/-!
# The command line

The commands in the setting of the system: the files are those of the system, and the log shows plain
lines without the time. What a command does is decided in `StackMachine.Command.Response`. Here a run is
carried on until it ends, and what it has printed and logged is shown from time to time.
-/

namespace StackMachine.Main

open Command Bytecode

/-- The number of steps of a run between two times that its output is shown. -/
def slice : Nat := 4096

/-- The words and the number of a failure of the system. -/
def fileError : IO.Error → FileError
  | .alreadyExists _ code details | .noFileOrDirectory _ code details
  | .interrupted _ code details | .invalidArgument _ code details
  | .permissionDenied _ code details | .resourceExhausted _ code details
  | .inappropriateType _ code details | .noSuchThing _ code details
  | .otherError code details | .resourceBusy code details | .resourceVanished code details
  | .unsupportedOperation code details | .hardwareFault code details
  | .unsatisfiedConstraints code details | .illegalOperation code details
  | .protocolError code details | .timeExpired code details =>
    { description := details, code := code.toNat }
  | .unexpectedEof => { description := "unexpected end of file", code := 0 }
  | .userError message => { description := message, code := 0 }

/-- The files of the system. -/
def host : Host IO where
  read path := do
    try return .ok (← IO.FS.withFile path .read fun file => file.readBinToEnd).toList
    catch e => return .error (fileError e)
  write path bytes := do
    try return .ok (← IO.FS.writeBinFile path ⟨bytes.toArray⟩)
    catch e => return .error (fileError e)

def setting : Setting IO where
  parser := Command.parser
  subscriber := Log.Filter.subscriber fun _ => ""
  host

/-- Show text on the two outputs at once. -/
def emit (stdout stderr : String) : IO Unit := do
  (← IO.getStderr).putStr stderr
  (← IO.getStdout).putStr stdout
  (← IO.getStdout).flush

/-- Carry on until the command is done. -/
partial def finish : Reply → IO UInt32
  | .done response => do
    emit response.stdout response.stderr
    return UInt32.ofNat response.exit
  | .running job => do
    let (stdout, stderr, job) := job.drain
    emit stdout stderr
    finish (job.advance slice)

/-- The variables of the environment that are looked at. -/
def environment : IO Environment :=
  consulted.filterMapM fun name => do
    return (← IO.getEnv name).map fun value => (name, value)

end StackMachine.Main

def main (args : List String) : IO UInt32 := do
  let env ← StackMachine.Main.environment
  StackMachine.Main.finish (← StackMachine.Main.setting.start env args)
