import ShortCircuit.CommandLine.Program
import Std.Time.Format

/-!
# The command line

Reads the file of settings that the command line names, runs the program, and writes what it gives.
-/

namespace ShortCircuit.CommandLine

/-- The fault that an error of the operating system stands for, if it is one of those known. -/
def openFault? : IO.Error → Option OpenFault
  | .noFileOrDirectory .. => some .missing
  | .inappropriateType none .. => some .isDirectory
  | .inappropriateType (some _) .. => some .notDirectory
  | .invalidArgument .. => some .nameTooLong
  | .permissionDenied .. => some .denied
  | _ => none

/-- The octets of the file under a path. -/
def readFile (p : Path) : IO (Except Failure (List UInt8)) := do
  if p.hasNull then return .error .embeddedNull
  match ← (IO.FS.readBinFile p.toText.toString).toBaseIO with
  | .ok octets => return .ok octets.toList
  | .error e => match openFault? e with
    | some fault => return .error (.cannotOpen fault p.toText)
    | none => throw e

/-- The time as the log shows it. -/
def timeStamp : IO String :=
  return (← Std.Time.PlainDateTime.now).format "uuuu-MM-dd HH:mm:ss,SSS"

end ShortCircuit.CommandLine

open ShortCircuit ShortCircuit.CommandLine in
/-- Runs the program once and gives its exit status. -/
def main (arguments : List String) : IO UInt32 := do
  let words := arguments.map Text.ofString
  let content ← match opened? words with
    | some p => readFile p
    | none => pure (.ok [])
  let (ending, _) := run .usual (fun _ ↦ content) words none
  IO.print ending.output
  IO.eprint (ending.diagnostics (← timeStamp))
  return ending.status
