import AnswerCheck.Proofs.Decimal.Binary64
import AnswerCheck.Proofs.Expr.Nesting

/-! # Evaluation and plain recursion

Plain recursion asks for a finite value at every node. Evaluation looks at the end of an arithmetic
chain only, and both have the same values: a running value that is not finite does not become finite
again, whatever the operands that follow.
-/

set_option autoImplicit false

namespace AnswerCheck

open Binary64 (unpacked)
open Grammar (bind_eq_ok)
open Float.Model.UnpackedFloat hiding pack unpack

/-! ## Running values that are not finite -/

section

variable {f : Float.Model.UnpackedFloat}

theorem not_isFinite_of_cases (op : Float.Model.UnpackedFloat → Float.Model.UnpackedFloat)
    (hnan : (op .notANumber).isFinite = false) (hinfinity : ∀ s, (op (.infinity s)).isFinite = false)
    (hf : f.isFinite = false) : (op f).isFinite = false := by
  cases f with
  | notANumber => exact hnan
  | infinity s => exact hinfinity s
  | zero s => cases hf
  | finite s m e hm => cases hf

variable (hf : f.isFinite = false) (g : Float.Model.UnpackedFloat)
include hf

theorem not_isFinite_pack : (unpacked (.ofModel (Float.Model.pack f))).isFinite = false := by
  refine not_isFinite_of_cases (fun f => unpacked (.ofModel (Float.Model.pack f))) rfl (fun s => ?_) hf
  cases s <;> rfl

theorem not_isFinite_add : (Float.Model.UnpackedFloat.add .binary64 f g).isFinite = false := by
  refine not_isFinite_of_cases (Float.Model.UnpackedFloat.add .binary64 · g) rfl (fun s => ?_) hf
  cases g with
  | infinity t => cases s <;> cases t <;> rfl
  | _ => rfl

theorem not_isFinite_sub : (Float.Model.UnpackedFloat.sub .binary64 f g).isFinite = false := by
  refine not_isFinite_of_cases (Float.Model.UnpackedFloat.sub .binary64 · g) rfl (fun s => ?_) hf
  cases g with
  | infinity t => cases s <;> cases t <;> rfl
  | _ => rfl

theorem not_isFinite_mul : (Float.Model.UnpackedFloat.mul .binary64 f g).isFinite = false := by
  refine not_isFinite_of_cases (Float.Model.UnpackedFloat.mul .binary64 · g) rfl (fun s => ?_) hf
  cases g <;> rfl

theorem not_isFinite_div : (Float.Model.UnpackedFloat.div .binary64 f g).isFinite = false := by
  refine not_isFinite_of_cases (Float.Model.UnpackedFloat.div .binary64 · g) rfl (fun s => ?_) hf
  cases g <;> rfl

end

variable {a b v : Float}

/-- No operator takes a number that is not finite back to a finite one. -/
theorem not_isFinite_apply {op : Operator} (ha : a.isFinite = false) (h : op.apply a b = .ok v) :
    v.isFinite = false := by
  cases op with
  | add =>
    cases h
    exact not_isFinite_pack (not_isFinite_add ha (unpacked b))
  | sub =>
    cases h
    exact not_isFinite_pack (not_isFinite_sub ha (unpacked b))
  | mul =>
    cases h
    exact not_isFinite_pack (not_isFinite_mul ha (unpacked b))
  | div =>
    rw [Operator.apply] at h
    split at h
    · cases h
    · cases h
      exact not_isFinite_pack (not_isFinite_div ha (unpacked b))

theorem isFinite_left {op : Operator} (h : op.apply a b = .ok v) (hv : v.isFinite = true) :
    a.isFinite = true := by
  by_contra hne
  rw [not_isFinite_apply (Bool.eq_false_iff.mpr hne) h] at hv
  cases hv

theorem finiteValue_eq_ok : finiteValue a = .ok v ↔ a = v ∧ v.isFinite = true := by
  unfold finiteValue
  split
  · next h =>
    constructor
    · rintro ⟨⟩
      exact ⟨rfl, h⟩
    · rintro ⟨rfl, -⟩
      rfl
  · next h =>
    constructor
    · rintro ⟨⟩
    · rintro ⟨rfl, hv⟩
      exact absurd hv h

namespace Expr

variable {point : Float} {inChain : Bool} {e : Expr}

/-! ## Plain recursion -/

/-- The value by plain recursion: each node needs a finite value, and nothing is too deep. -/
def plainValue (point : Float) : Expr → Except EvalError Float
  | number value => finiteValue value
  | var => finiteValue point
  | pi => finiteValue piValue
  | arith op left right => do
    let a ← left.plainValue point
    let b ← right.plainValue point
    finiteValue (← op.apply a b)
  | power base exponent => do
    let b ← base.plainValue point
    let e ← exponent.plainValue point
    finiteValue (← powerValue b e)
  | neg operand => do
    finiteValue (-(← operand.plainValue point))
  | call function argument => do
    finiteValue (← function.apply (← argument.plainValue point))

/-! ## The same values -/

/-- What stands on its own has finite values only. -/
theorem isFinite_of_unlimited (h : e.unlimited point false = .ok v) : v.isFinite = true := by
  cases e with
  | number value => exact (finiteValue_eq_ok.mp h).2
  | var => exact (finiteValue_eq_ok.mp h).2
  | pi => exact (finiteValue_eq_ok.mp h).2
  | arith op left right =>
    simp only [unlimited, bind_eq_ok, finiteValue_eq_ok, Bool.false_eq_true, if_false] at h
    obtain ⟨_, -, _, -, _, -, -, hfinite⟩ := h
    exact hfinite
  | power base exponent =>
    simp only [unlimited, bind_eq_ok, finiteValue_eq_ok] at h
    obtain ⟨_, -, _, -, _, -, -, hfinite⟩ := h
    exact hfinite
  | neg operand =>
    simp only [unlimited, bind_eq_ok, finiteValue_eq_ok] at h
    obtain ⟨_, -, -, hfinite⟩ := h
    exact hfinite
  | call f argument =>
    simp only [unlimited, bind_eq_ok, finiteValue_eq_ok] at h
    obtain ⟨_, -, _, -, -, hfinite⟩ := h
    exact hfinite

theorem unlimited_eq_ok_iff
    (h : (e.unlimited point false = .ok v ∧ v.isFinite = true) ↔ e.plainValue point = .ok v) :
    e.unlimited point false = .ok v ↔ e.plainValue point = .ok v := by
  rw [← h, and_iff_left_of_imp isFinite_of_unlimited]

/-- In a chain the running value need not be finite; where it is, all values before it are, since the
operators lead back to no finite value. -/
theorem unlimited_finite_iff :
    (e.unlimited point inChain = .ok v ∧ v.isFinite = true) ↔ e.plainValue point = .ok v := by
  induction e generalizing inChain v with
  | number value => exact and_iff_left_of_imp fun h => (finiteValue_eq_ok.mp h).2
  | var => exact and_iff_left_of_imp fun h => (finiteValue_eq_ok.mp h).2
  | pi => exact and_iff_left_of_imp fun h => (finiteValue_eq_ok.mp h).2
  | arith op left right ihleft ihright =>
    have hchain : ((arith op left right).unlimited point inChain = .ok v ∧ v.isFinite = true) ↔
        ∃ a, left.unlimited point true = .ok a ∧ ∃ b, right.unlimited point false = .ok b ∧
          op.apply a b = .ok v ∧ v.isFinite = true := by
      cases inChain with
      | true => simp only [unlimited, if_true, bind_eq_ok, ← exists_and_right, and_assoc]
      | false => simp [unlimited, bind_eq_ok, finiteValue_eq_ok]
    have hplain : (arith op left right).plainValue point = .ok v ↔
        ∃ a, left.plainValue point = .ok a ∧ ∃ b, right.plainValue point = .ok b ∧
          op.apply a b = .ok v ∧ v.isFinite = true := by
      simp [plainValue, bind_eq_ok, finiteValue_eq_ok]
    rw [hchain, hplain]
    constructor
    · rintro ⟨a, ha, b, hb, hop, hv⟩
      exact ⟨a, ihleft.mp ⟨ha, isFinite_left hop hv⟩, b, ihright.mp ⟨hb, isFinite_of_unlimited hb⟩, hop, hv⟩
    · rintro ⟨a, ha, b, hb, hop, hv⟩
      exact ⟨a, (ihleft.mpr ha).1, b, (ihright.mpr hb).1, hop, hv⟩
  | power base exponent ihbase ihexponent =>
    have hbase (b : Float) : base.unlimited point false = .ok b ↔ base.plainValue point = .ok b :=
      unlimited_eq_ok_iff ihbase
    have hexponent (b : Float) : exponent.unlimited point false = .ok b ↔ exponent.plainValue point = .ok b :=
      unlimited_eq_ok_iff ihexponent
    simp [unlimited, plainValue, bind_eq_ok, finiteValue_eq_ok, hbase, hexponent]
  | neg operand ih =>
    have hoperand (a : Float) : operand.unlimited point false = .ok a ↔ operand.plainValue point = .ok a :=
      unlimited_eq_ok_iff ih
    simp [unlimited, plainValue, bind_eq_ok, finiteValue_eq_ok, hoperand]
  | call f argument ih =>
    have hargument (a : Float) : argument.unlimited point false = .ok a ↔ argument.plainValue point = .ok a :=
      unlimited_eq_ok_iff ih
    simp [unlimited, plainValue, bind_eq_ok, finiteValue_eq_ok, hargument]

/-- An expression has a value exactly if it is not nested deeper than evaluation enters and has that
value by plain recursion, which looks at every node and knows no limit; and values are finite. -/
theorem eval_eq_plainValue (e : Expr) (point v : Float) :
    (e.eval point = .ok v ↔ e.nesting ≤ maxEvalNesting ∧ e.plainValue point = .ok v) ∧
    (e.eval point = .ok v → v.isFinite = true) := by
  have hvalues (h : e.nesting ≤ maxEvalNesting) : e.eval point = .ok v ↔ e.plainValue point = .ok v := by
    rw [eval, evalWithin_eq_unlimited h]
    exact unlimited_eq_ok_iff unlimited_finite_iff
  have hnesting (h : e.eval point = .ok v) : e.nesting ≤ maxEvalNesting := by
    by_contra hdeep
    have hfails : Fails (e.eval point) := evalWithin_fails (Nat.lt_of_not_le hdeep)
    obtain ⟨cause, hcause⟩ := hfails
    rw [hcause] at h
    cases h
  refine ⟨⟨fun h => ⟨hnesting h, (hvalues (hnesting h)).mp h⟩, fun h => (hvalues h.1).mpr h.2⟩,
    fun h => ?_⟩
  rw [eval, evalWithin_eq_unlimited (hnesting h)] at h
  exact isFinite_of_unlimited h

/-- The chain `x*x-4` at three. -/
theorem eval_eq_plainValue_chain :
    let e := Expr.arith .sub (.arith .mul .var .var) (.number 4)
    e.eval 3 = .ok 5 ∧ (e.nesting ≤ maxEvalNesting ∧ e.plainValue 3 = .ok 5) ∧
      (5 : Float).isFinite = true := by
  intro e
  have heval : e.eval 3 = .ok 5 := by rfl
  obtain ⟨hiff, hfinite⟩ := eval_eq_plainValue e 3 5
  exact ⟨heval, hiff.mp heval, hfinite heval⟩

/-- A chain that overflows on its way has no value, though its operands would lead back. -/
example : ((Expr.arith .div (.arith .mul .var .var) .var).eval 1e200).isOk = false := by
  decide +kernel

end Expr

end AnswerCheck
