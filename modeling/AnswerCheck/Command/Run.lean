import AnswerCheck.Command.Invocation
import AnswerCheck.Command.Report
import AnswerCheck.Command.Workspace
import AnswerCheck.Decimal.Calculator
import AnswerCheck.Settings.Basic

/-! # Running commands

What each command does with its arguments, and how it ends: with a result to print, with a failure,
or before it started. Settings that cannot be read or understood are no failure: standard settings
are used, and a warning says so.
-/

set_option autoImplicit false

namespace AnswerCheck.Command

/-! ## How a command ends -/

inductive Failure where
  | answerFile (path : String)
  | answerInput
  | textInput
  | notNumber (text : String)
  | settingsFile (path : String)
deriving Repr, DecidableEq

def Failure.message : Failure → String
  | answerFile path => "reading answer file " ++ path
  | answerInput => "reading answer from stdin"
  | textInput => "reading text from stdin"
  | notNumber text => "not a number: " ++ text
  | settingsFile path => "writing " ++ path

/-- Why standard settings are used although there is a file. -/
inductive Flaw where
  | unreadable
  | malformed
deriving Repr, DecidableEq

/-- A flaw in the settings file under a path. -/
structure Warning where
  flaw : Flaw
  path : String
deriving Repr, DecidableEq

def Warning.message (w : Warning) : String :=
  let attempt :=
    match w.flaw with
    | .unreadable => "reading"
    | .malformed => "parsing"
  "Error " ++ attempt ++ " config file " ++ w.path ++ ". Using defaults."

inductive Outcome where
  /-- There was no command to run. -/
  | stopped (stop : Stop)
  | failed (failure : Failure)
  | done (output : String) (warning : Option Warning)
deriving Repr, DecidableEq

namespace Outcome

/-- The exit code: zero on success, one after a failure, two after misuse. -/
def exitCode : Outcome → UInt8
  | stopped .misuse => 2
  | stopped _ => 0
  | failed _ => 1
  | done _ _ => 0

def usage : String :=
  String.join
    ["Usage: mathcheck [-v] COMMAND\n\n",
      "  verify     check the answer to an equation and restate it\n",
      "  normalize  spell mathematical notation in ASCII\n",
      "  format     show a number as a calculator would\n",
      "  classify   show the prompt for a text\n",
      "  config     print the settings, or write the standard ones\n"]

def output : Outcome → String
  | stopped .misuse => ""
  | stopped .help => usage
  | stopped .version => "mathcheck 0.1.0\n"
  | failed _ => ""
  | done output _ => output

def failure? : Outcome → Option Failure
  | failed failure => some failure
  | _ => none

def warning? : Outcome → Option Warning
  | done _ warning => warning
  | _ => none

end Outcome

/-! ## The commands -/

section
variable {m : Type → Type} [Monad m] [Host m]

/-- All of standard input, if it is text. -/
def inputText? : m (Option String) :=
  return String.fromUTF8? (← Host.input)

/-- The settings in the file under a path, and what is wrong with it. Without a file they are
standard. -/
def loadSettings (path : String) : m (Settings × Option Warning) := do
  match ← Host.find path with
  | .missing => return (.standard, none)
  | .unreadable => return (.standard, some ⟨.unreadable, path⟩)
  | .content bytes =>
    match String.fromUTF8? bytes with
    | none => return (.standard, some ⟨.unreadable, path⟩)
    | some text =>
      match Settings.ofText? text.toList with
      | none => return (.standard, some ⟨.malformed, path⟩)
      | some settings => return (settings, none)

/-- Where settings are kept unless a path is given. -/
def standardPath : String := "mathcheck.toml"

/-- The answer to verify: the text of a file, or standard input where there is no path or the path
is a hyphen. -/
def readAnswer (path : Option String) : m (Except Failure String) := do
  let fromInput : m (Except Failure String) := do
    match ← inputText? with
    | some text => return .ok text
    | none => return .error .answerInput
  match path with
  | none => fromInput
  | some path =>
    if path = "-" then fromInput
    else
      match ← Host.find path with
      | .content bytes =>
        match String.fromUTF8? bytes with
        | some text => return .ok text
        | none => return .error (.answerFile path)
      | _ => return .error (.answerFile path)

def Invocation.run : Invocation → m Outcome
  | .verify question answerFile form settings => do
    match ← readAnswer answerFile with
    | .error failure => return .failed failure
    | .ok answer =>
      let (settings, warning) ← loadSettings (settings.getD standardPath)
      let result := Answer.verify question answer settings.verify
      return .done (Answer.report answer result (form = .json)) warning
  | .normalize text => do
    let given : m (Option String) :=
      match text with
      | some text => return some text
      | none => inputText?
    match ← given with
    | some text => return .done (Spelling.toAscii text ++ "\n") none
    | none => return .failed .textInput
  | .format value places =>
    match Decimal.ofText? (Text.trim value.toList) with
    | some x => return .done (Decimal.calculatorText x places ++ "\n") none
    | none => return .failed (.notNumber value)
  | .classify text form =>
    let plan := Prompt.Plan.ofText text
    match form with
    | .text => return .done plan.toText none
    | .json => return .done (plan.toJson.toText ++ "\n") none
  | .config path init => do
    let path := path.getD standardPath
    if init then
      if ← Host.write path Settings.standard.toText then
        return .done ("Wrote " ++ path ++ "\n") none
      else return .failed (.settingsFile path)
    else
      let (settings, warning) ← loadSettings path
      return .done settings.toText warning

def run (args : List String) : m Outcome :=
  match Invocation.ofArguments args with
  | .ok invocation => invocation.run
  | .error stop => return .stopped stop

end

end AnswerCheck.Command
