import AnswerCheck.Answer.Verification
import AnswerCheck.Json.Printer
import AnswerCheck.Prompt.Plan

/-! # Reports

What the commands print about a verification and about a prompt, as text and as JSON. Every report
ends with a line feed.
-/

set_option autoImplicit false

namespace AnswerCheck

open Answer Prompt

def Answer.Root.toJson (r : Root) : Json :=
  .object [("value", .number r.value), ("formatted", .string r.shown)]

/-- A verification as JSON. Places are given only if some were asked for. -/
def Answer.Verification.toJson (v : Verification) : Json :=
  .object
    ([("ok", .boolean true), ("augmented", .string v.restated), ("equation", .string v.equation),
      ("roots", .array (v.roots.map Root.toJson)), ("recovered", .boolean v.recovered)] ++
      match v.places with
      | some n => [("decimals", .count n)]
      | none => [])

def Answer.VerifyError.stage : VerifyError → String
  | noEquation => "no-equation"
  | compile _ => "compile"
  | noRoots => "no-roots"

def Answer.VerifyError.toJson (e : VerifyError) : Json :=
  .object [("ok", .boolean false), ("error", .string e.message), ("stage", .string e.stage)]

def Prompt.Plan.toJson (p : Plan) : Json :=
  .object
    ([("kind", .string p.kind.name), ("system_prompt", .string p.instructions),
      ("user_prompt", .string p.request), ("temperature", .number p.kind.temperature),
      ("expects_final_answer", .boolean p.kind.expectsFinalAnswer)] ++
      match p.language with
      | some name => [("code_language", .string name)]
      | none => [])

def Prompt.Plan.toText (p : Plan) : String :=
  String.join
    ["Kind: ", p.kind.name, "\n",
      "Temperature: ", Decimal.Layout.inline.text p.kind.temperature, "\n",
      "Final Answer expected: ", if p.kind.expectsFinalAnswer then "yes" else "no", "\n",
      match p.language with
      | some name => "Language: " ++ name ++ "\n"
      | none => "",
      "\nSystem prompt:\n", p.instructions, "\n",
      "\nUser prompt:\n", p.request, "\n"]

/-- What is printed about the verification of an answer. As text, that is the restated answer, or
the answer as it was if it could not be verified. -/
def Answer.report (answer : String) : Except VerifyError Verification → (json : Bool) → String
  | .ok v, false => v.restated ++ "\n"
  | .error _, false => answer
  | .ok v, true => v.toJson.toText ++ "\n"
  | .error e, true => e.toJson.toText ++ "\n"

end AnswerCheck
