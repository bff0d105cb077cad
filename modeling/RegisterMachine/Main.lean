import RegisterMachine.CommandLine.Invocation
import RegisterMachine.Log.Clock
import Std.Time.DateTime.Timestamp

/-!
# The program

The one part of the library that talks to the world. It collects what an
invocation wants to know, lets the machine run, and writes what there is to
write as soon as it is there, so that a program that never ends can be watched.
-/

namespace RegisterMachine.CommandLine

/-- Milliseconds since 1970. -/
def currentMillis : IO Nat := do
  return (← Std.Time.Timestamp.now).toMillisecondsSinceUnixEpoch.val.toNat

/-- What a path leads to. An error that names the file comes from opening it, and one that does
not, from reading it. -/
def findFile (path : String) : IO InputFile := do
  try
    return .regular (← IO.FS.readBinFile path).data.toList
  catch error =>
    match error with
    | .noFileOrDirectory .. => return .missing
    | .inappropriateType none .. => return .directory
    | .inappropriateType (some _) .. => return .missing
    | error => return .locked (toString error)

/-- Writes a transcript, with each log line at the time of its writing. -/
def Transcript.write (transcript : Transcript) (colors : Bool) : IO Unit := do
  let stdout ← IO.getStdout
  stdout.putStr transcript.stdout
  stdout.flush
  let stderr ← IO.getStderr
  for line in transcript.log do
    stderr.putStr (line.render colors (Log.timeOfDay (← currentMillis)))

/-- Writes how an invocation ended and answers with its exit code. -/
def Result.finish (result : Result) (colors : Bool) : IO Nat := do
  result.transcript.write colors
  return result.code

/-- Runs a machine to its end and writes what it prints and logs after every step. -/
partial def Launch.drive (launch : Launch) (colors : Bool) (executed : Nat) : IO Nat := do
  match launch.advance executed with
  | .running written launch =>
    written.write colors
    launch.drive colors (executed + 1)
  | .ended result => result.finish colors

end RegisterMachine.CommandLine

open RegisterMachine CommandLine in
/-- Assembles and runs the program that the command line names. -/
def main (words : List String) : IO UInt32 := do
  let file ← match words.head? with
    | some path => findFile path
    | none => pure .missing
  let environment : Environment :=
    { program := (← IO.appPath).toString
      registers := ← IO.getEnv "SML_REGISTERS"
      file := fun _ => file }
  let colors := Log.usesColors (← IO.getEnv "TERM") (← IO.getEnv "NO_COLOR")
  let code ← match prepare environment words with
    | .ended result => result.finish colors
    | .ready launch => launch.drive colors 0
  return UInt32.ofNat code
