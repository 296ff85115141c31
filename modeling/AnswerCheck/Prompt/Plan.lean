import AnswerCheck.Prompt.Code
import AnswerCheck.Prompt.Instructions
import AnswerCheck.Prompt.Mathematics
import AnswerCheck.Prompt.Request

/-! # The prompt for a selected text

A text is sorted into one of seven kinds, the first whose test it passes: mathematics, a long text,
a blank to fill in, a question, a statement, a command, code. The kind decides on the instructions,
on the sampling temperature and on whether the reply ends with a final answer.
-/

set_option autoImplicit false

namespace AnswerCheck.Prompt

inductive Kind where
  | math
  | summary
  | fillInBlank
  | question
  | statement
  | command
  | code
deriving Repr, DecidableEq

def Kind.name : Kind → String
  | math => "math"
  | summary => "summary"
  | fillInBlank => "fill-in-blank"
  | question => "question"
  | statement => "statement"
  | command => "command"
  | code => "code"

/-- Mathematics is answered without variation. -/
def Kind.temperature : Kind → Float
  | math => 0.0
  | _ => 0.2

/-- Whether the reply is asked to end with a final answer. -/
def Kind.expectsFinalAnswer : Kind → Bool
  | math | fillInBlank | question | command => true
  | summary | statement | code => false

structure Plan where
  kind : Kind
  instructions : String
  request : String
  /-- The language of code; other kinds have none. -/
  language : Option String
deriving Repr, DecidableEq

/-- Texts of more words are summarized. -/
def maxAnsweredWords : Nat := 75

/-- The kind of a text that is not mathematics. -/
def otherKind (s : List Char) : Kind :=
  if maxAnsweredWords < wordCount s then .summary
  else if hasBlank s then .fillInBlank
  else if isQuestion s then .question
  else if isCommand s then .command
  else if isCode s then .code
  else .statement

def kindOf (s : List Char) : Kind :=
  if isMathematics s then .math else otherKind s

/-- The prompt for a text of a known kind. -/
def Plan.ofKind (kind : Kind) (text : String) : Plan :=
  match kind with
  | .math =>
    ⟨kind, mathInstructions, "Solve this math problem step by step. " ++
      "Start with the required Normalized Equation line.\n\n" ++ text, none⟩
  | .summary =>
    ⟨kind, summaryInstructions,
      "Summarize and advise (" ++ toString (wordCount text.toList) ++ " words):\n\n" ++ text, none⟩
  | .fillInBlank => ⟨kind, blankInstructions, "Fill the blank:\n\n" ++ text, none⟩
  | .question => ⟨kind, questionInstructions, "Answer:\n\n" ++ text, none⟩
  | .statement => ⟨kind, statementInstructions, "Consider:\n\n" ++ text, none⟩
  | .command => ⟨kind, commandInstructions, "Execute:\n\n" ++ text, none⟩
  | .code =>
    let name := languageOf text.toList
    ⟨kind, codeInstructions name, "Analyze code:\n\n" ++ text, some name⟩

def Plan.ofText (text : String) : Plan :=
  .ofKind (kindOf text.toList) text

/-- The prompt for a text that is known not to be mathematics. -/
def Plan.ofOtherText (text : String) : Plan :=
  .ofKind (otherKind text.toList) text

end AnswerCheck.Prompt
