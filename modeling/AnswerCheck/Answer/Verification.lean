import AnswerCheck.Answer.Candidates
import AnswerCheck.Answer.Places
import AnswerCheck.Answer.Root
import AnswerCheck.Answer.Statement
import AnswerCheck.Equation
import AnswerCheck.Search.Scan
import AnswerCheck.Spelling.Ascii

/-! # Verifying an answer

An answer is spelled in ASCII, its equation is read, and the roots it claims are checked against
that equation. If none holds, the equation is scanned for roots. The answer is then restated with
the roots that were confirmed or found.
-/

set_option autoImplicit false

namespace AnswerCheck.Answer

open Search

/-- When a claimed root counts, and how roots are searched. -/
structure VerifyOptions where
  /-- A claimed root is accepted when the magnitude of its residual is below this. -/
  tolerance : Float
  scan : ScanOptions Float
deriving Repr

def VerifyOptions.standard : VerifyOptions where
  tolerance := 1e-4
  scan :=
    { min := -200
      max := 200
      steps := 400
      narrowSteps := 200
      margin := 50
      bisection := { tolerance := 1e-7, maxIterations := 30 } }

structure Verification where
  /-- The answer in ASCII spelling. -/
  normalized : String
  equation : String
  candidates : List Float
  roots : List Root
  /-- Whether no claimed root was accepted, so that the roots were found by scanning. -/
  recovered : Bool
  places : Option Nat
  /-- The answer with the roots stated on top. -/
  restated : String

inductive VerifyError where
  | noEquation
  | compile (error : CompileError)
  | noRoots

def VerifyError.message : VerifyError → String
  | noEquation => "no equation found in the answer"
  | compile error => "equation could not be compiled: " ++ error.message
  | noRoots => "no candidate verified and the scan found no root"

/-- Checks an answer against its own equation. The question, if there is one, is read for a request
to round. -/
def verify (question : Option String) (answer : String) (options : VerifyOptions) :
    Except VerifyError Verification :=
  let normalized := Spelling.asciiText answer.toList
  -- The question stands first, so that a count in it comes before one in the answer.
  let places := requestedPlaces? ((question.getD "").toList ++ '\n' :: normalized)
  match equation? normalized with
  | none => .error .noEquation
  | some equation =>
    match Equation.ofText equation with
    | .error e => .error (.compile e)
    | .ok compiled =>
      let claimed := candidates normalized
      let confirmed := accepted compiled.residual? claimed options.tolerance
      let recovered := confirmed.isEmpty
      let values := if recovered then scan compiled.residual? claimed options.scan else confirmed
      if values.isEmpty then .error .noRoots
      else
        let roots := rootsOf values places
        let normalized := String.ofList normalized
        .ok
          { normalized
            equation := String.ofList equation
            candidates := claimed
            roots
            recovered
            places
            restated := restate normalized roots }

/-- The answer with its verified roots on top, if it can be verified. -/
def restated? (question : Option String) (answer : String) : Option String :=
  match verify question answer .standard with
  | .ok v => some v.restated
  | .error _ => none

end AnswerCheck.Answer
