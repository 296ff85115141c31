import AnswerCheck.Equation
import AnswerCheck.Proofs.Decimal.ZeroSigns

/-! # Values at the two zeros

Evaluation does not tell the two zeros apart: at points that are equal or both zero an expression has
values that are equal or both zero, or it has none at either.
-/

set_option autoImplicit false

namespace AnswerCheck

open Binary64

/-- If there is a value on the left, then there is one on the right, and they are the same up to the
sign of zero. -/
def SameResult (r r' : Except EvalError Float) : Prop :=
  ∀ v, r = .ok v → ∃ v', r' = .ok v' ∧ SameUpToZero v v'

variable {a a' b b' : Float}

namespace SameResult

theorem ok (h : SameUpToZero a a') : SameResult (.ok a) (.ok a') := by
  rintro _ ⟨⟩
  exact ⟨a', rfl, h⟩

theorem error (e : EvalError) (r : Except EvalError Float) : SameResult (.error e) r := by
  rintro _ ⟨⟩

theorem bind {r r' : Except EvalError Float} {next next' : Float → Except EvalError Float}
    (h : SameResult r r') (hnext : ∀ v v', SameUpToZero v v' → SameResult (next v) (next' v')) :
    SameResult (r >>= next) (r' >>= next') := by
  cases r with
  | error e => exact error e _
  | ok v =>
    obtain ⟨v', rfl, hv⟩ := h v rfl
    exact hnext v v' hv

theorem finiteValue (h : SameUpToZero a a') : SameResult (finiteValue a) (finiteValue a') := by
  have hfinite : a.isFinite = a'.isFinite := h.congr (by rfl)
  unfold AnswerCheck.finiteValue
  rw [hfinite]
  split
  · exact ok h
  · exact error _ _

theorem eq_of_beq_zero (h : SameUpToZero a a') (ha : (a == 0) = false) : a = a' := by
  obtain rfl | ⟨rfl | rfl, -⟩ := h.cases
  · rfl
  · cases ha
  · cases ha

theorem operator (op : Operator) (ha : SameUpToZero a a') (hb : SameUpToZero b b') :
    SameResult (op.apply a b) (op.apply a' b') := by
  cases op with
  | add => exact ok (ha.add hb)
  | sub => exact ok (ha.sub hb)
  | mul => exact ok (ha.mul hb)
  | div =>
    have hzero : (b == 0) = (b' == 0) := hb.congr (f := (· == 0)) (by rfl)
    rw [Operator.apply, Operator.apply, ← hzero]
    split
    · exact error _ _
    · next hne =>
      obtain rfl := eq_of_beq_zero hb (Bool.eq_false_iff.mpr hne)
      exact ok (ha.div b)

theorem neg_iff (ha : SameUpToZero a a') : a < 0 ↔ a' < 0 :=
  decide_eq_decide.mp (ha.congr (f := fun v => decide (v < 0)) (by rfl))

theorem function (f : Function) (ha : SameUpToZero a a') : SameResult (f.apply a) (f.apply a') := by
  cases f with
  | abs => exact ok ha.abs
  | sqrt =>
    simp only [Function.apply, neg_iff ha]
    split
    · exact error _ _
    · exact ok ha.sqrt

theorem cases_of_beq_zero (ha : (a == 0) = true) : a = 0 ∨ a = -0 := by
  obtain ⟨-, -, rfl | ⟨rfl, -⟩ | ⟨rfl, -⟩⟩ := Float.beq_iff_ne_nan_and_eq.mp ha
  · exact Or.inl rfl
  · exact Or.inl rfl
  · exact Or.inr rfl

/-- A power of zero is infinite or a zero. -/
theorem zeroPower (ha : (a == 0) = true) (ha' : (a' == 0) = true) (e : Float) :
    SameResult (AnswerCheck.finiteValue (AnswerCheck.zeroPower a e))
      (AnswerCheck.finiteValue (AnswerCheck.zeroPower a' e)) := by
  have hsame : SameUpToZero a a' := (sameUpToZero_of_beq ha).trans (sameUpToZero_of_beq ha').symm
  have hinfinite {c : Float} (hc : c = 0 ∨ c = -0) : AnswerCheck.finiteValue (1 / c) = .error .nonFinite := by
    obtain rfl | rfl := hc <;> rfl
  simp only [AnswerCheck.zeroPower]
  by_cases he : e < 0
  · rw [if_pos he, hinfinite]
    · exact error _ _
    · split
      · exact cases_of_beq_zero ha
      · exact Or.inl rfl
  · rw [if_neg he, if_neg he]
    refine finiteValue ?_
    split
    · exact hsame
    · exact .refl 0

theorem power (ha : SameUpToZero a a') (hb : SameUpToZero b b') :
    SameResult (powerValue a b >>= AnswerCheck.finiteValue) (powerValue a' b' >>= AnswerCheck.finiteValue) := by
  have hinteger : (Binary.ofFloat b).isInteger = (Binary.ofFloat b').isInteger :=
    hb.congr (f := fun v => (Binary.ofFloat v).isInteger) (by decide +kernel)
  have hexponent : (b == 0) = (b' == 0) := hb.congr (f := (· == 0)) (by rfl)
  have hbase : (a == 0) = (a' == 0) := ha.congr (f := (· == 0)) (by rfl)
  simp only [powerValue, neg_iff ha, hinteger, ← hexponent, ← hbase]
  split
  · exact error _ _
  · split
    · exact finiteValue (.refl 1)
    · next hne =>
      obtain rfl := eq_of_beq_zero hb (Bool.eq_false_iff.mpr hne)
      split
      · next hzero => exact zeroPower hzero (hbase ▸ hzero) b
      · next hne =>
        obtain rfl := eq_of_beq_zero ha (Bool.eq_false_iff.mpr hne)
        exact finiteValue (.refl _)

end SameResult

namespace Expr

theorem evalWithin_same (e : Expr) {p p' : Float} (hp : SameUpToZero p p') (inChain : Bool) (levels : Nat) :
    SameResult (e.evalWithin p inChain levels) (e.evalWithin p' inChain levels) := by
  induction e generalizing inChain levels with
  | number value =>
    cases levels with
    | zero => exact .error _ _
    | succ below => exact .finiteValue (.refl value)
  | var =>
    cases levels with
    | zero => exact .error _ _
    | succ below => exact .finiteValue hp
  | pi =>
    cases levels with
    | zero => exact .error _ _
    | succ below => exact .finiteValue (.refl piValue)
  | arith op left right ihleft ihright =>
    cases inChain with
    | true =>
      simp only [evalWithin, if_true]
      exact (ihleft true levels).bind fun a a' ha =>
        (ihright false levels).bind fun b b' hb => SameResult.operator op ha hb
    | false =>
      cases levels with
      | zero => exact .error _ _
      | succ below =>
        exact (ihleft true below).bind fun a a' ha => (ihright false below).bind fun b b' hb =>
          (SameResult.operator op ha hb).bind fun v v' hv => .finiteValue hv
  | power base exponent ihbase ihexponent =>
    cases levels with
    | zero => exact .error _ _
    | succ below =>
      exact (ihbase false below).bind fun b b' hb =>
        (ihexponent false below).bind fun e e' he => SameResult.power hb he
  | neg operand ih =>
    cases levels with
    | zero => exact .error _ _
    | succ below => exact (ih false below).bind fun v v' hv => .finiteValue hv.neg
  | call f argument ih =>
    cases levels with
    | zero => exact .error _ _
    | succ below =>
      exact (ih false below).bind fun v v' hv => (SameResult.function f hv).bind fun w w' hw => .finiteValue hw

theorem value_same (e : Expr) {p p' : Float} (hp : SameUpToZero p p') :
    SameUpToZero (e.value p) (e.value p') := by
  have hsame := e.evalWithin_same hp false maxEvalNesting
  have hsame' := e.evalWithin_same hp.symm false maxEvalNesting
  unfold value eval
  cases heval : e.evalWithin p false maxEvalNesting with
  | ok v =>
    obtain ⟨v', hv', hv⟩ := hsame v heval
    rw [hv']
    exact hv
  | error cause =>
    cases heval' : e.evalWithin p' false maxEvalNesting with
    | error _ => exact .refl _
    | ok v' =>
      obtain ⟨v, hv, -⟩ := hsame' v' heval'
      rw [heval] at hv
      cases hv

end Expr

/-- The residual does not tell the zeros apart either. -/
theorem Equation.residual_same (e : Equation) {p p' : Float} (hp : SameUpToZero p p') :
    SameUpToZero (e.residual p) (e.residual p') := by
  have hleft := e.left.value_same hp
  have hright := e.right.value_same hp
  have hfinite : (e.left.value p).isFinite = (e.left.value p').isFinite := hleft.congr (by rfl)
  have hfinite' : (e.right.value p).isFinite = (e.right.value p').isFinite := hright.congr (by rfl)
  simp only [residual, hfinite, hfinite']
  split
  · exact hleft.sub hright
  · exact .refl _

end AnswerCheck
