/-!
# Arguments

What the program is called with: the script to replay, how much to log and where, and a settings file.  Arguments are
taken from left to right, and the first that asks for help or makes no sense decides.  An option takes its value from
the same argument or from the next one, which must not look like an option; `--` ends the options.
-/
namespace Shorthand.CommandLine

/-- What the program is to do. -/
structure Invocation where
  script : String
  verbosity : Nat := 0
  log : Option String := none
  settings : Option String := none
  deriving DecidableEq, Repr

/-- What the arguments ask for. -/
inductive Request where
  | help
  | version
  | usage
  | replay (i : Invocation)
  deriving DecidableEq, Repr

/-- What has been read of the arguments. -/
structure Given where
  script : Option String := none
  verbosity : Nat := 0
  log : Option String := none
  settings : Option String := none

/-- The options that take a value. -/
inductive Valued where
  | log
  | settings

/-- Notes the value of an option, which must not be empty or given twice. -/
def Given.put? (g : Given) (o : Valued) (value : String) : Option Given :=
  if value = "" then none
  else
    match o with
    | .log => if g.log.isSome then none else some { g with log := some value }
    | .settings => if g.settings.isSome then none else some { g with settings := some value }

/-- Notes the script, which must not be empty or given twice. -/
def Given.putScript? (g : Given) (value : String) : Option Given :=
  if value = "" || g.script.isSome then none else some { g with script := some value }

/-- What a group of short options comes to: it decides, it is done, or its last option takes a value, from the group if
some is left there. -/
inductive Group where
  | decided (r : Request)
  | done (g : Given)
  | awaits (g : Given) (value : Option String)

def readGroup (g : Given) : List Char → Group
  | [] => .done g
  | 'v' :: cs => readGroup { g with verbosity := g.verbosity + 1 } cs
  | 'h' :: _ => .decided .help
  | 'V' :: _ => .decided .version
  | 'c' :: [] => .awaits g none
  | 'c' :: '=' :: cs => .awaits g (some (String.ofList cs))
  | 'c' :: cs => .awaits g (some (String.ofList cs))
  | _ => .decided .usage

/-- What a long option means, given its name and the value behind `=`. -/
def longOption (name : String) (value : Option String) : Except Request Valued :=
  if name = "log" then .ok .log
  else if name = "config" then .ok .settings
  else if name = "help" && value.isNone then .error .help
  else if name = "version" && value.isNone then .error .version
  else .error .usage

/-- `arg` cannot be the value of an option. -/
def looksLikeOption (arg : String) : Bool :=
  match arg.toList with
  | '-' :: _ :: _ => true
  | _ => false

def Given.request (g : Given) : Request :=
  match g.script with
  | none => .usage
  | some script => .replay { script, verbosity := g.verbosity, log := g.log, settings := g.settings }

/-- Reads what comes behind `--`. -/
def readPlain (g : Given) : List String → Request
  | [] => g.request
  | arg :: args =>
    match g.putScript? arg with
    | none => .usage
    | some g => readPlain g args

/-- Reads arguments; `awaited` is an option whose value comes next. -/
def readFrom (g : Given) (awaited : Option Valued) : List String → Request
  | [] => if awaited.isSome then .usage else g.request
  | arg :: args =>
    match awaited with
    | some o =>
      if looksLikeOption arg then .usage
      else
        match g.put? o arg with
        | none => .usage
        | some g => readFrom g none args
    | none =>
      match arg.toList with
      | ['-', '-'] => readPlain g args
      | '-' :: '-' :: cs =>
        let name := String.ofList (cs.takeWhile (· != '='))
        let value :=
          match cs.dropWhile (· != '=') with
          | [] => none
          | _ :: value => some (String.ofList value)
        match longOption name value, value with
        | .error r, _ => r
        | .ok o, none => readFrom g (some o) args
        | .ok o, some value =>
          match g.put? o value with
          | none => .usage
          | some g => readFrom g none args
      | '-' :: c :: cs =>
        match readGroup g (c :: cs) with
        | .decided r => r
        | .done g => readFrom g none args
        | .awaits g none => readFrom g (some .settings) args
        | .awaits g (some value) =>
          match g.put? .settings value with
          | none => .usage
          | some g => readFrom g none args
      | _ =>
        match g.putScript? arg with
        | none => .usage
        | some g => readFrom g none args

def read (args : List String) : Request := readFrom {} none args

def versionText : String := "the-replay 0.1.0\n"

def helpText : String :=
  "Replays an editing session against the abbreviation tracker\n\n" ++
  "Usage: the-replay [OPTIONS] <SCRIPT>\n\n" ++
  "Arguments:\n" ++
  "  <SCRIPT>  Session script to replay\n\n" ++
  "Options:\n" ++
  "  -v...                Increase logging verbosity (repeat for more detail)\n" ++
  "      --log <FILE>     Save logs to a specific file\n" ++
  "  -c, --config <FILE>  Load settings from a specific file\n" ++
  "  -h, --help           Print help\n" ++
  "  -V, --version        Print version\n"

end Shorthand.CommandLine
