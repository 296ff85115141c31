import AnswerCheck.Answer.Verification
import AnswerCheck.Toml.Document

/-! # Settings

Settings are the options for verification, kept in a TOML document. A document may give any part of
them; what it leaves out is standard, and what it holds besides is ignored. Tables may also be given
as arrays of their values, in the order of the fields. Settings are printed in full.
-/

set_option autoImplicit false

namespace AnswerCheck

open Answer Search

structure Settings where
  verify : VerifyOptions

/-- The settings that are used unless a document says otherwise. -/
def Settings.standard : Settings := ⟨.standard⟩

/-! ## Reading -/

namespace Toml

/-- The fields of a value that stands for a record: by name in a table, by position in an array. A
date is a record too, but none of its fields is looked for. -/
def Value.field? : Value → Option (String → Nat → Option Value)
  | .table _ entries => some fun name _ => entries.lookup name.toList
  | .array items => some fun _ position => items[position]?
  | .tables latestFirst =>
    some fun _ position => (latestFirst.reverse[position]?).map (.table .header ·)
  | .dateTime => some fun _ _ => none
  | _ => none

/-- A number; integers count as numbers. -/
def Value.toFloat? : Value → Option Float
  | .float x => some x
  | .integer n => some (Float.ofInt n)
  | _ => none

/-- A count, which is an integer that is not negative. -/
def Value.toCount? : Value → Option Nat
  | .integer n => if 0 ≤ n then some n.toNat else none
  | _ => none

/-- What `read` makes of a value, or `base` where there is no value. -/
def orBase {β : Type} (read : Value → Option β) (base : β) : Option Value → Option β
  | none => some base
  | some v => read v

end Toml

open Toml

/-- Bisection limits from a value, with what is left out taken from `base`. -/
def bisectionOf? (base : BisectionLimits Float) (v : Value) : Option (BisectionLimits Float) := do
  let field ← v.field?
  some
    { tolerance := ← orBase Value.toFloat? base.tolerance (field "tolerance" 0)
      maxIterations := ← orBase Value.toCount? base.maxIterations (field "max_iterations" 1) }

/-- Scan options from a value, with what is left out taken from `base`. -/
def scanOf? (base : ScanOptions Float) (v : Value) : Option (ScanOptions Float) := do
  let field ← v.field?
  some
    { min := ← orBase Value.toFloat? base.min (field "min" 0)
      max := ← orBase Value.toFloat? base.max (field "max" 1)
      steps := ← orBase Value.toCount? base.steps (field "steps" 2)
      narrowSteps := ← orBase Value.toCount? base.narrowSteps (field "narrow_steps" 3)
      margin := ← orBase Value.toFloat? base.margin (field "margin" 4)
      bisection := ← orBase (bisectionOf? base.bisection) base.bisection (field "bisection" 5) }

/-- Verification options from a value, with what is left out taken from `base`. -/
def verifyOf? (base : VerifyOptions) (v : Value) : Option VerifyOptions := do
  let field ← v.field?
  some
    { tolerance := ← orBase Value.toFloat? base.tolerance (field "tolerance" 0)
      scan := ← orBase (scanOf? base.scan) base.scan (field "scan" 1) }

/-- The settings that a text gives, if it is a document with values of the right kinds. -/
def Settings.ofText? (s : List Char) : Option Settings := do
  let entries ← document? s
  let options ← orBase (verifyOf? .standard) .standard (entries.lookup "verify".toList)
  some ⟨options⟩

/-! ## Printing -/

def numberLine (name : String) (x : Float) : String :=
  name ++ " = " ++ Decimal.Layout.toml.text x ++ "\n"

def countLine (name : String) (n : Nat) : String :=
  name ++ " = " ++ toString n ++ "\n"

def Settings.toText (s : Settings) : String :=
  let scan := s.verify.scan
  String.join
    ["[verify]\n", numberLine "tolerance" s.verify.tolerance,
      "\n[verify.scan]\n", numberLine "min" scan.min, numberLine "max" scan.max,
      countLine "steps" scan.steps, countLine "narrow_steps" scan.narrowSteps,
      numberLine "margin" scan.margin,
      "\n[verify.scan.bisection]\n", numberLine "tolerance" scan.bisection.tolerance,
      countLine "max_iterations" scan.bisection.maxIterations]

end AnswerCheck
