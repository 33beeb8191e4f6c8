import Shorthand.CommandLine.Arguments
import Shorthand.Script.Replay
/-!
# Running the program

What the program prints and how it ends, given its arguments and what is in the files that they name.  The first thing
that goes wrong ends it: the log file, the settings file, the script file, the settings in the script, its caret, and
then the first step that cannot be taken.
-/
namespace Shorthand.CommandLine

/-- Why a file cannot be read. -/
inductive FileError where
  | notFound
  | notADirectory
  | isADirectory
  | notText
  | other (reason : String)
  deriving DecidableEq, Repr

def FileError.message : FileError → String
  | .notFound => "No such file or directory (os error 2)"
  | .notADirectory => "Not a directory (os error 20)"
  | .isADirectory => "Is a directory (os error 21)"
  | .notText => "stream did not contain valid UTF-8"
  | .other reason => reason

abbrev Contents := Except FileError Text

/-- Why the program fails. -/
inductive Failure where
  | log (path : String)
  | settingsUnreadable (path : String) (error : FileError)
  | settingsInvalid
  | scriptUnreadable (path : String)
  | scriptInvalid (path : String)
  | overrides (error : Script.OverrideError)
  | caret (error : DocumentError)
  | step (number : Nat) (taken : Step) (error : StepError)
  deriving DecidableEq, Repr

/-- The wording of a failure, in front of the reasons for it. -/
def Failure.message : Failure → String
  | .log path => "failed to open log file " ++ path
  | .settingsUnreadable path error => "failed to read " ++ path ++ ": " ++ error.message
  | .settingsInvalid => "invalid settings:"
  | .scriptUnreadable path => "failed to read script " ++ path
  | .scriptInvalid path => "in " ++ path
  | .overrides error => error.message
  | .caret error => error.message
  | .step number taken _ => "step " ++ toString number ++ " (" ++ taken.describe ++ ") failed"

/-- How the program ends: what it has printed, and the failure that ended it. -/
structure Outcome where
  printed : String
  failure : Option Failure := none
  deriving DecidableEq, Repr

/-- The number of a step, set to the right. -/
def stepNumber (n : Nat) : String := "".pushn ' ' (3 - (toString n).length) ++ toString n

/-- Takes the steps from number `n` on and prints what they lead to, behind what has been printed. -/
def replaySteps (s : Session) (n : Nat) (printed : String) : List Step → Outcome
  | [] =>
    ⟨printed ++ "text: " ++ Text.quoted s.document.text ++ "\n" ++ "caret: " ++ toString s.document.caret ++ "\n", none⟩
  | step :: steps =>
    match s.runStep step with
    | (_, .error error) => ⟨printed, some (.step n step error)⟩
    | (s, .ok told) =>
      let line := stepNumber n ++ " " ++ step.describe ++ ": " ++ s.describe ++ "\n"
      let more := (told.map fun t => "    " ++ t ++ "\n").getD ""
      replaySteps s (n + 1) (printed ++ line ++ more) steps

def userSettings (path : Option String) (contents : Contents) : Except Failure Settings :=
  match path, contents with
  | none, _ => .ok {}
  | some path, .error error => .error (.settingsUnreadable path error)
  | some _, .ok source =>
    match Settings.read? source with
    | none => .error .settingsInvalid
    | some settings => .ok settings

def scriptIn (path : String) (contents : Contents) : Except Failure Script :=
  match contents with
  | .error _ => .error (.scriptUnreadable path)
  | .ok source =>
    match Script.read? source with
    | none => .error (.scriptInvalid path)
    | some script => .ok script

def sessionFor (i : Invocation) (settings script : Contents) : Except Failure (Session × List Step) := do
  let base ← userSettings i.settings settings
  let script ← scriptIn i.script script
  let settings ← (script.settingsOver base).mapError .overrides
  let session ← (script.session? settings).mapError .caret
  return (session, script.steps)

/-- Replays a script: `logOpens` tells whether the log file can be written, `settings` and `script` what is in the files
of these. -/
def replay (i : Invocation) (logOpens : Bool) (settings script : Contents) : Outcome :=
  match i.log, logOpens with
  | some path, false => ⟨"", some (.log path)⟩
  | _, _ =>
    match sessionFor i settings script with
    | .error failure => ⟨"", some failure⟩
    | .ok (s, steps) => replaySteps s 1 ("start: " ++ s.describe ++ "\n") steps

end Shorthand.CommandLine
