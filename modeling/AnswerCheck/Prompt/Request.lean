import AnswerCheck.Text.Pattern

/-! # Questions, commands and blanks

What kind of request a text makes, judged by how it starts, how it ends, and whether it has a blank
to fill in.
-/

set_option autoImplicit false

namespace AnswerCheck.Prompt

open Text

def wordCount (s : List Char) : Nat :=
  countWords false s

def endsWithQuestionMark (s : List Char) : Bool :=
  (trim s).getLast? = some '?'

def commandVerbs : List String :=
  ["answer", "calculate", "compute", "summarize", "solve", "find", "list", "graph", "plot",
    "chart", "translate", "explain", "draft", "write", "build", "create", "plan", "outline",
    "analyze", "estimate", "evaluate", "select", "choose", "determine"]

/-- Whether a text starts with one of the words, which may continue. -/
def startsWithAny (words : List String) (s : List Char) : Bool :=
  words.any fun w => (after? w.toList s).isSome

/-- Whether a text starts with a command, or with "please" and a command. -/
def isCommand (s : List Char) : Bool :=
  let s := lower (trim s)
  startsWithAny commandVerbs s ||
    match after? "please ".toList s with
    | some rest => startsWithAny commandVerbs rest
    | none => false

def questionWords : List String :=
  ["how", "what", "why", "when", "where", "which", "who", "whom", "whose", "can", "could", "would",
    "should", "is", "are", "am", "will", "may", "might", "do", "does", "did"]

/-- Longest text that counts as a question for its first word alone. -/
def maxQuestionLength : Nat := 200

/-- Whether a text ends with a question mark, or is short and starts with a question word. -/
def isQuestion (s : List Char) : Bool :=
  let s := trim s
  endsWithQuestionMark s ||
    (s.length ≤ maxQuestionLength && startsWithAny (questionWords.map (· ++ " ")) (lower s))

/-- Two or more underscores. -/
def underscores : Pattern :=
  .inOrder [.word "__", .many (· == '_')]

/-- A dash or underscore of a drawn blank. -/
def isRule (c : Char) : Bool :=
  c = '_' || c = '\u2013' || c = '\u2014' || c = '-'

def blankPatterns : List Pattern := [
  underscores,
  .inOrder [.word ":", .blanks, .word "?", .atEnd],
  .inOrder [.edge, .wordCaseless "fill", .blanks, .wordCaseless "in", .blanks, .wordCaseless "the",
    .blanks, .wordCaseless "blank", .edge],
  .inOrder [.one isRule, .one isRule, .oneOrMore isRule, .blanks, .word "?", .atEnd]]

def hasBlank (s : List Char) : Bool :=
  let s := trim s
  blankPatterns.any (·.occursIn s)

end AnswerCheck.Prompt
