import Breadcrumb.CommandLine.Run
import Std.Time

/-!
# The program

Reads the command line and the input it asks for, prints what the run leaves
behind, and exits.
-/

namespace Breadcrumb.CommandLine

/-- The number that the operating system gives an error. -/
def errorNumber : IO.Error → Nat
  | .alreadyExists _ code _ | .otherError code _ | .resourceBusy code _
  | .resourceVanished code _ | .unsupportedOperation code _ | .hardwareFault code _
  | .unsatisfiedConstraints code _ | .illegalOperation code _ | .protocolError code _
  | .timeExpired code _ | .interrupted _ code _ | .noFileOrDirectory _ code _
  | .invalidArgument _ code _ | .permissionDenied _ code _ | .resourceExhausted _ code _
  | .inappropriateType _ code _ | .noSuchThing _ code _ => code.toNat
  | _ => 5

/-- The cause of a failed system call. -/
def systemError (error : IO.Error) : SystemError := ⟨errorNumber error⟩

partial def readAll (stream : IO.FS.Stream) (bytes : ByteArray) : IO ByteArray := do
  let more ← stream.read 65536
  if more.isEmpty then return bytes else readAll stream (bytes ++ more)

/-- The bytes of a stream, or why it cannot be read. -/
def readStream (stream : IO.FS.Stream) : IO (Except Failure ByteArray) := do
  try return .ok (← readAll stream .empty)
  catch error => return .error (.notRead (systemError error))

/-- The bytes of a file, or else of standard input. -/
def readInput : Option String → IO (Except Failure ByteArray)
  | none => do readStream (← IO.getStdin)
  | some name => do
    match ← (IO.FS.Handle.mk name .read).toBaseIO with
    | .ok handle => readStream (IO.FS.Stream.ofHandle handle)
    | .error error => return .error (.notOpened name (systemError error))

end Breadcrumb.CommandLine

open Breadcrumb.CommandLine in
/-- Runs the command line given. -/
def main (words : List String) : IO UInt32 := do
  let stamp := (← Std.Time.PlainDateTime.now).format "uuuu-MM-dd HH:mm:ss.SSS"
  let outcome ← match plan words stamp with
    | .done outcome => pure outcome
    | .reading job => job.finish <$> readInput job.options.file
  (← IO.getStderr).putStr outcome.stderr
  (← IO.getStdout).putStr outcome.stdout
  return outcome.exit.toUInt32
