import AnswerCheck.Text.Pattern

/-! # Does a text look like mathematics?

Operators, mathematical characters, words of the subject, or numbers next to words for operations.
The test is shallow on purpose: any text with a hyphen passes.
-/

set_option autoImplicit false

namespace AnswerCheck.Prompt

open Text

/-- An operator that can stand between numbers. -/
def isOperator (c : Char) : Bool :=
  "+-*/^".toList.contains c

/-- An operator, or the equals sign, next to a letter. -/
def isLetterOperator (c : Char) : Bool :=
  "+-*/=".toList.contains c

def someDigits : Pattern := .oneOrMore isDecimalDigit

def taskWords : List String :=
  ["solve", "calculate", "find", "compute", "evaluate", "simplify", "factor", "expand",
    "derivative", "integral", "limit", "equation", "formula", "theorem", "proof"]

def operationWords : List String :=
  ["plus", "minus", "times", "divided", "square", "cube", "root", "percent", "fraction", "ratio"]

def geometryWords : List String :=
  ["area", "perimeter", "volume", "circumference", "radius", "diameter", "triangle", "circle",
    "square", "rectangle", "angle", "degrees"]

def analysisWords : List String :=
  ["derivative", "integral", "limit", "function", "graph", "slope", "tangent", "critical point"]

def statisticsWords : List String :=
  ["mean", "median", "mode", "standard deviation", "variance", "probability", "distribution"]

def mathPatterns : List Pattern := [
  .oneOf "=+-*/^",
  .inOrder [someDigits, .blanks, .one isOperator, .blanks, someDigits],
  .whole (.anyWord taskWords),
  .oneOf "√π∑∏∫∂∇∞±≤≥≠≈",
  .inOrder [.whole someDigits, .restOfLine, .whole (.anyWord operationWords)],
  .inOrder [.edge, .one Char.isAlpha, .blanks, .one isLetterOperator, .blanks, someDigits],
  .inOrder [someDigits, .blanks, .one isLetterOperator, .blanks, .one Char.isAlpha],
  .whole (.anyWord geometryWords),
  .whole (.anyWord analysisWords),
  .whole (.anyWord statisticsWords)]

def isMathematics (s : List Char) : Bool :=
  let s := lower (trim s)
  mathPatterns.any (·.occursIn s)

end AnswerCheck.Prompt
