import AnswerCheck.Command.Arguments
import AnswerCheck.Decimal.Numeral

/-! # Commands

The five commands of the program with their arguments, and how they are read from a command line.
-/

set_option autoImplicit false

namespace AnswerCheck.Command

inductive Form where
  | text
  | json
deriving Repr, DecidableEq

inductive Invocation where
  /-- Verifies an answer, from a file or from standard input. -/
  | verify (question answerFile : Option String) (form : Form) (settings : Option String)
  /-- Spells a text in ASCII; without one, standard input. -/
  | normalize (text : Option String)
  /-- Shows a number as a calculator would. -/
  | format (value : String) (places : Option Nat)
  /-- Shows the prompt for a text. -/
  | classify (text : String) (form : Form)
  /-- Prints the settings, or writes the standard ones. -/
  | config (path : Option String) (init : Bool)
deriving Repr, DecidableEq

/-! ## Values of options -/

def Form.ofName? (name : String) : Option Form :=
  if name = "text" then some text else if name = "json" then some json else none

def maxCount : Nat := 0xFFFFFFFFFFFFFFFF

/-- A count in decimal digits, with a plus sign or none. -/
def count? (s : String) : Option Nat :=
  let ds :=
    match s.toList with
    | '+' :: ds => ds
    | ds => ds
  let n := Decimal.valueOf ds
  if !ds.isEmpty && ds.all Char.isDigit && n ≤ maxCount then some n else none

/-- Options that take any text. -/
def anyText : String → Bool := fun _ => true

/-- Options that name a file take any text but the empty one. -/
def filePath (s : String) : Bool := !s.isEmpty

/-! ## Arguments of the commands -/

def shapeOf? (command : String) : Option Shape :=
  match command with
  | "verify" =>
    some ⟨[("question", anyText), ("answer-file", filePath), ("format", (Form.ofName? · |>.isSome)),
      ("config", filePath)], [], 0, false⟩
  | "normalize" => some ⟨[], [], 1, false⟩
  | "format" => some ⟨[("decimals", (count? · |>.isSome))], [], 1, true⟩
  | "classify" => some ⟨[("format", (Form.ofName? · |>.isSome))], [], 1, false⟩
  | "config" => some ⟨[("path", filePath)], ["init"], 0, false⟩
  | _ => none

def Given.form (g : Given) : Form :=
  ((g.value? "format").bind Form.ofName?).getD .text

def Given.invocation (g : Given) (command : String) : Except Stop Invocation :=
  match command, g.operands with
  | "verify", [] =>
    .ok (.verify (g.value? "question") (g.value? "answer-file") g.form (g.value? "config"))
  | "normalize", operands => .ok (.normalize operands.head?)
  | "format", [value] => .ok (.format value ((g.value? "decimals").bind count?))
  | "classify", [text] => .ok (.classify text g.form)
  | "config", [] => .ok (.config (g.value? "path") (g.switches.contains "init"))
  | _, _ => .error .misuse

/-- The arguments that may stand before the command. -/
def topShape : Shape := ⟨[], [], 0, false⟩

/-- Reads a command line. Help for a command can be asked for by the command `help`. -/
def Invocation.read : Given → List String → Except Stop Invocation
  | _, [] => .error .misuse
  | g, arg :: args =>
    if arg = "--" then .error .misuse
    else if isHyphenated arg.toList then do
      let (g, _) ← g.addHyphenated topShape true arg.toList
      read g args
    else if arg = "help" then
      match args with
      | [] => .error .help
      | [command] =>
        .error (if (shapeOf? command).isSome || command = "help" then .help else .misuse)
      | _ => .error .misuse
    else
      match shapeOf? arg with
      | some shape => do (← Given.read shape .empty none args).invocation arg
      | none => .error .misuse

def Invocation.ofArguments (args : List String) : Except Stop Invocation :=
  Invocation.read .empty args

end AnswerCheck.Command
