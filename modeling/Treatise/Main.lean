import Treatise.CommandLine.Run

/-!
# The program

Reads the files that the command line asks for, and prints the answer.
-/

open Treatise

def readFile (path : String) : IO (Except String String) := do
  try
    return .ok (← IO.FS.readFile path)
  catch
    | .noFileOrDirectory .. => return .error CommandLine.missingReason
    | error => return .error (toString error)

def main (arguments : List String) : IO UInt32 := do
  match CommandLine.read? arguments with
  | none =>
    IO.eprint CommandLine.usage
    return 2
  | some request =>
    let found ← (CommandLine.candidates request).mapM fun path => return (path, ← readFile path)
    let files (path : String) := (found.lookup path).getD (.error CommandLine.missingReason)
    let outcome := CommandLine.respond files request
    IO.print outcome.output
    if let some message := outcome.error then IO.eprintln message
    return outcome.exitCode.toUInt32
