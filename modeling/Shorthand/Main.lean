import Shorthand.CommandLine.Run
/-!
# The program

Reads the files that the arguments name, prints what replaying the script comes to, and tells how it went by the exit
code: zero for success, one for a failure, two for arguments that make no sense.
-/
open Shorthand Shorthand.CommandLine

def readContents (path : String) : IO Contents := do
  try
    let bytes ← IO.FS.readBinFile path
    match String.fromUTF8? bytes with
    | some s => return .ok s.toList
    | none => return .error .notText
  catch
    | .noFileOrDirectory .. => return .error .notFound
    | e => return .error (.other (toString e))

def opensForLog (path : String) : IO Bool := do
  try
    let _ ← IO.FS.Handle.mk path .append
    return true
  catch _ => return false

def replayFiles (i : Invocation) : IO UInt32 := do
  let logOpens ← match i.log with
    | none => pure true
    | some path => opensForLog path
  let settings ← match i.settings with
    | none => pure (.error .notFound)
    | some path => readContents path
  let outcome := replay i logOpens settings (← readContents i.script)
  IO.print outcome.printed
  match outcome.failure with
  | none => return 0
  | some failure =>
    IO.eprintln ("Error: " ++ failure.message)
    return 1

def main (args : List String) : IO UInt32 := do
  match CommandLine.read args with
  | .help => IO.print helpText; return 0
  | .version => IO.print versionText; return 0
  | .usage =>
    IO.eprintln "Usage: the-replay [OPTIONS] <SCRIPT>"
    return 2
  | .replay i => replayFiles i
