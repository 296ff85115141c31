import AnswerCheck.Text.Pattern
import AnswerCheck.Text.Upper

/-! # Does a text look like code, and in which language?

Fenced blocks, keywords and tags tell code from prose. The language is named by the tag of a fence,
or else by the first feature of a list that the text has.
-/

set_option autoImplicit false

namespace AnswerCheck.Prompt

open Text

def fence : String := "\x60\x60\x60"

/-- An include directive with a name in angle brackets. -/
def includeLine : Pattern :=
  .inOrder [.word "#include", .someBlanks, .word "<", .oneOrMore (· != '>'), .word ">"]

def tag : Pattern :=
  .inOrder [.word "<", .optional '/', .one fun c => 'a' ≤ c && c ≤ 'z', .many (· != '>'), .word ">"]

def publicClass : Pattern :=
  .inOrder [.edge, .word "public", .someBlanks, .word "class", .edge]

def printLine : Pattern :=
  .whole (.word "System.out.println")

def codePatterns : List Pattern := [
  .inOrder [.word fence, .anything, .word fence],
  includeLine,
  .whole (.anyWord
    ["function", "const", "let", "var", "console.log", "=>", "class", "import", "export", "async",
      "await"]),
  .whole (.anyWord ["def", "lambda", "print(", "self", "None"]),
  publicClass,
  printLine,
  .inOrder [.whole (.wordCaseless "begin"), .anything, .whole (.wordCaseless "end")],
  tag]

def isCode (s : List Char) : Bool :=
  codePatterns.any (·.occursIn s)

/-- The tag of a fence: the word after three code marks. -/
def fenceTag? : Recognizer (List Char) := fun s => do
  run? isWord (← after? fence.toList s)

/-- Features of languages, in the order in which they are looked for. -/
def languageFeatures : List (Pattern × String) := [
  (.either (.whole (.word "console.log")) (.whole (.word "export")), "JavaScript"),
  (.either (.whole (.word "def")) (.whole (.word "lambda")), "Python"),
  (includeLine, "C/C++"),
  (.either publicClass printLine, "Java"),
  (tag, "HTML"),
  (.inOrder [.whole (.wordCaseless "select"), .oneOrMore fun _ => true,
    .whole (.wordCaseless "from")], "SQL"),
  (.inOrder [.edge, .word "function", .someBlanks, .oneOrMore isWord, .blanks, .word "("],
    "JavaScript"),
  (.inOrder [.whole (.word "package"), .oneOrMore (· != '\n'), .word ";"], "Java"),
  (.inOrder [.edge, .word "using", .someBlanks, .word "System", .edge], "C#"),
  (.inOrder [.whole (.word "func"), .oneOrMore (· != '\n'), .word "\x7b"], "Go"),
  (.inOrder [.edge, .optional '<', .word "php", .edge], "PHP")]

/-- The name for a language that has none of the features. -/
def unknownLanguage : String := "Unknown Language"

/-- The language that a text is most likely written in. -/
def languageOf (s : List Char) : String :=
  match findFirst? fenceTag? s with
  | some (_, name, _) => String.ofList (upper name)
  | none =>
    match languageFeatures.find? fun feature => feature.1.occursIn s with
    | some feature => feature.2
    | none => unknownLanguage

end AnswerCheck.Prompt
