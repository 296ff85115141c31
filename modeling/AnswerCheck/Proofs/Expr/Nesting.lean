import AnswerCheck.Expr.Evaluation
import AnswerCheck.Proofs.Expr.Acceptance

/-! # Nesting and the levels that evaluation enters

Evaluation with a limit on its levels is set against evaluation without one. With as many levels as
the expression is nested both agree, so that more levels change nothing and the limit is never what
fails; with fewer levels evaluation fails. Accepted texts are nested less than evaluation allows.

A chain of arithmetic operators is one loop: over its right operands, the running value starting at
its first operand, and the nesting is the greatest one met on the way.
-/

set_option autoImplicit false

namespace AnswerCheck

namespace Expr

variable {point : Float} {inChain : Bool} {levels : Nat}

/-! ## Chains as loops -/

/-- The first operand of the chain that an expression ends. -/
def chainHead : Expr → Expr
  | arith _ left _ => left.chainHead
  | e => e

/-- The operators of the chain with their right operands, from the first one on. -/
def chainSteps : Expr → List (Operator × Expr)
  | arith op left right => left.chainSteps ++ [(op, right)]
  | _ => []

/-- One turn of the loop along a chain. -/
def chainStep (point : Float) (levels : Nat) (running : Float) (step : Operator × Expr) :
    Except EvalError Float := do
  let b ← step.2.evalWithin point false levels
  step.1.apply running b

/-- Only arithmetic looks at whether it continues a chain. -/
theorem evalWithin_chainHead (e : Expr) :
    e.chainHead.evalWithin point true levels = e.chainHead.evalWithin point false levels := by
  induction e with
  | arith op left right ihleft _ => exact ihleft
  | _ => cases levels <;> rfl

theorem nestingIn_chainHead (e : Expr) : e.chainHead.nestingIn true = e.chainHead.nesting := by
  induction e with
  | arith op left right ihleft _ => exact ihleft
  | _ => rfl

theorem evalWithin_chain (e : Expr) :
    e.evalWithin point true levels =
      e.chainHead.evalWithin point false levels >>= e.chainSteps.foldlM (chainStep point levels) := by
  rw [← evalWithin_chainHead]
  induction e with
  | arith op left right ihleft _ =>
    calc (arith op left right).evalWithin point true levels
        = left.evalWithin point true levels >>= fun a => chainStep point levels a (op, right) := by
          simp only [evalWithin, if_true, chainStep]
      _ = _ := by
          rw [ihleft]
          simp [chainHead, chainSteps, List.foldlM_append]
  | _ => simp [chainHead, chainSteps]

theorem nestingIn_chain (e : Expr) :
    e.nestingIn true = (e.chainSteps.map fun step => step.2.nesting).foldl max e.chainHead.nesting := by
  rw [← nestingIn_chainHead]
  induction e with
  | arith op left right ihleft _ =>
    simp [nestingIn, ihleft, chainHead, chainSteps, nesting]
  | _ => rfl

/-- A chain that stands on its own takes the level that its operators share. -/
theorem nesting_chain (op : Operator) (left right : Expr) :
    let e := arith op left right
    e.nesting = 1 + (e.chainSteps.map fun step => step.2.nesting).foldl max e.chainHead.nesting :=
  congrArg (1 + ·) (nestingIn_chain (arith op left right))

/-- Continuing a chain saves an expression one level at most. -/
theorem nestingIn_le (e : Expr) :
    e.nestingIn true ≤ e.nestingIn false ∧ e.nestingIn false ≤ e.nestingIn true + 1 := by
  cases e with
  | arith op left right =>
    rw [Nat.add_comm]
    exact ⟨Nat.le_add_left _ 1, Nat.le_refl _⟩
  | _ => exact ⟨Nat.le_refl _, Nat.le_succ _⟩

/-! ## Evaluation without a limit -/

/-- The value at a point, however deep the nesting. -/
def unlimited (point : Float) (inChain : Bool) : Expr → Except EvalError Float
  | number value => finiteValue value
  | var => finiteValue point
  | pi => finiteValue piValue
  | arith op left right => do
    let a ← left.unlimited point true
    let b ← right.unlimited point false
    if inChain then op.apply a b else finiteValue (← op.apply a b)
  | power base exponent => do
    let b ← base.unlimited point false
    let e ← exponent.unlimited point false
    finiteValue (← powerValue b e)
  | neg operand => do
    finiteValue (-(← operand.unlimited point false))
  | call function argument => do
    finiteValue (← function.apply (← argument.unlimited point false))

theorem exists_below {n : Nat} (h : 1 + n ≤ levels) : ∃ below, levels = below + 1 ∧ n ≤ below :=
  ⟨levels - 1, by omega, by omega⟩

theorem evalWithin_eq_unlimited {e : Expr} (h : e.nestingIn inChain ≤ levels) :
    e.evalWithin point inChain levels = e.unlimited point inChain := by
  -- Every node takes a level from its operands, but for the operators that continue a chain.
  induction e generalizing inChain levels with
  | number value =>
    obtain ⟨below, rfl⟩ := Nat.exists_eq_add_of_le' h
    rfl
  | var =>
    obtain ⟨below, rfl⟩ := Nat.exists_eq_add_of_le' h
    rfl
  | pi =>
    obtain ⟨below, rfl⟩ := Nat.exists_eq_add_of_le' h
    rfl
  | arith op left right ihleft ihright =>
    cases inChain with
    | true =>
      obtain ⟨hleft, hright⟩ := max_le_iff.mp h
      simp only [evalWithin, unlimited, if_true, ihleft hleft, ihright hright]
    | false =>
      obtain ⟨below, rfl, hbelow⟩ := exists_below h
      obtain ⟨hleft, hright⟩ := max_le_iff.mp hbelow
      simp only [evalWithin, unlimited, Bool.false_eq_true, if_false, ihleft hleft, ihright hright]
  | power base exponent ihbase ihexponent =>
    obtain ⟨below, rfl, hbelow⟩ := exists_below h
    obtain ⟨hbase, hexponent⟩ := max_le_iff.mp hbelow
    simp only [evalWithin, unlimited, ihbase hbase, ihexponent hexponent]
  | neg operand ih =>
    obtain ⟨below, rfl, hbelow⟩ := exists_below h
    simp only [evalWithin, unlimited, ih hbelow]
  | call f argument ih =>
    obtain ⟨below, rfl, hbelow⟩ := exists_below h
    simp only [evalWithin, unlimited, ih hbelow]

/-! ## Without a limit nothing is too deep -/

theorem bind_ne_tooDeep {r : Except EvalError Float} {next : Float → Except EvalError Float}
    (h : r ≠ .error .tooDeep) (hnext : ∀ v, next v ≠ .error .tooDeep) : r >>= next ≠ .error .tooDeep := by
  cases r with
  | error cause => exact h
  | ok v => exact hnext v

theorem finiteValue_ne_tooDeep (v : Float) : finiteValue v ≠ .error .tooDeep := by
  unfold finiteValue
  split <;> simp

theorem apply_ne_tooDeep (op : Operator) (a b : Float) : op.apply a b ≠ .error .tooDeep := by
  cases op with
  | div =>
    rw [Operator.apply]
    split <;> simp
  | _ => simp [Operator.apply]

theorem powerValue_ne_tooDeep (b e : Float) : powerValue b e ≠ .error .tooDeep := by
  unfold powerValue
  split_ifs <;> simp

theorem call_ne_tooDeep (f : Function) (v : Float) : f.apply v ≠ .error .tooDeep := by
  cases f with
  | sqrt =>
    rw [Function.apply]
    split <;> simp
  | abs => simp [Function.apply]

theorem unlimited_ne_tooDeep (e : Expr) : e.unlimited point inChain ≠ .error .tooDeep := by
  induction e generalizing inChain with
  | number value => exact finiteValue_ne_tooDeep value
  | var => exact finiteValue_ne_tooDeep point
  | pi => exact finiteValue_ne_tooDeep piValue
  | arith op left right ihleft ihright =>
    refine bind_ne_tooDeep ihleft fun a => bind_ne_tooDeep ihright fun b => ?_
    cases inChain with
    | true => exact apply_ne_tooDeep op a b
    | false => exact bind_ne_tooDeep (apply_ne_tooDeep op a b) finiteValue_ne_tooDeep
  | power base exponent ihbase ihexponent =>
    exact bind_ne_tooDeep ihbase fun b => bind_ne_tooDeep ihexponent fun e =>
      bind_ne_tooDeep (powerValue_ne_tooDeep b e) finiteValue_ne_tooDeep
  | neg operand ih => exact bind_ne_tooDeep ih fun v => finiteValue_ne_tooDeep (-v)
  | call f argument ih =>
    exact bind_ne_tooDeep ih fun v => bind_ne_tooDeep (call_ne_tooDeep f v) finiteValue_ne_tooDeep

/-! ## Too few levels -/

/-- There is no value, for whatever cause. -/
def Fails (r : Except EvalError Float) : Prop :=
  ∃ cause, r = .error cause

theorem Fails.bind {r : Except EvalError Float} (h : Fails r) (next : Float → Except EvalError Float) :
    Fails (r >>= next) := by
  obtain ⟨cause, rfl⟩ := h
  exact ⟨cause, rfl⟩

theorem Fails.of_next (r : Except EvalError Float) {next : Float → Except EvalError Float}
    (h : ∀ v, Fails (next v)) : Fails (r >>= next) := by
  cases r with
  | error cause => exact ⟨cause, rfl⟩
  | ok v => exact h v

/-- A first operand or a second one that fails: what is done with both fails. -/
theorem Fails.operands {r s : Except EvalError Float} (h : Fails r ∨ Fails s)
    (next : Float → Float → Except EvalError Float) :
    Fails (do next (← r) (← s)) := by
  obtain hr | hs := h
  · exact hr.bind _
  · exact .of_next r fun a => hs.bind (next a)

theorem evalWithin_fails {e : Expr} (h : levels < e.nestingIn inChain) :
    Fails (e.evalWithin point inChain levels) := by
  induction e generalizing inChain levels with
  | number value =>
    obtain rfl := Nat.lt_one_iff.mp h
    exact ⟨.tooDeep, rfl⟩
  | var =>
    obtain rfl := Nat.lt_one_iff.mp h
    exact ⟨.tooDeep, rfl⟩
  | pi =>
    obtain rfl := Nat.lt_one_iff.mp h
    exact ⟨.tooDeep, rfl⟩
  | arith op left right ihleft ihright =>
    cases inChain with
    | true =>
      simp only [evalWithin, if_true]
      exact .operands ((lt_max_iff.mp h).imp ihleft ihright) op.apply
    | false =>
      cases levels with
      | zero => exact ⟨.tooDeep, rfl⟩
      | succ below =>
        have hbelow : below < max (left.nestingIn true) (right.nestingIn false) := by
          simp only [nestingIn, Bool.false_eq_true, if_false] at h
          omega
        exact .operands ((lt_max_iff.mp hbelow).imp ihleft ihright) fun a b => do
          finiteValue (← op.apply a b)
  | power base exponent ihbase ihexponent =>
    cases levels with
    | zero => exact ⟨.tooDeep, rfl⟩
    | succ below =>
      have hbelow : below < max (base.nestingIn false) (exponent.nestingIn false) := by
        simp only [nestingIn] at h
        omega
      exact .operands ((lt_max_iff.mp hbelow).imp ihbase ihexponent) fun b e => do
        finiteValue (← powerValue b e)
  | neg operand ih =>
    cases levels with
    | zero => exact ⟨.tooDeep, rfl⟩
    | succ below =>
      exact (ih (by simp only [nestingIn] at h; omega)).bind _
  | call f argument ih =>
    cases levels with
    | zero => exact ⟨.tooDeep, rfl⟩
    | succ below =>
      exact (ih (by simp only [nestingIn] at h; omega)).bind _

theorem maxNesting_le_maxEvalNesting : maxNesting ≤ maxEvalNesting := by decide

/-- The nesting of an expression is exactly the number of levels that its evaluation needs: with as
many levels or more it is never too deep, and the result does not depend on the number of levels;
with fewer levels it fails. So nothing that a text is accepted as is too deep to be evaluated. -/
theorem nesting_exact_budget (e : Expr) (point : Float) :
    (∀ levels, e.nesting ≤ levels →
      e.evalWithin point false levels ≠ .error .tooDeep ∧
      ∀ more, levels ≤ more → e.evalWithin point false more = e.evalWithin point false levels) ∧
    (∀ levels, levels < e.nesting → ∃ cause, e.evalWithin point false levels = .error cause) ∧
    ∀ s, Expr.ofText s = .ok e → e.eval point ≠ .error .tooDeep := by
  refine ⟨fun levels h => ⟨?_, fun more hmore => ?_⟩, fun levels h => evalWithin_fails h, fun s hs => ?_⟩
  · rw [evalWithin_eq_unlimited h]
    exact e.unlimited_ne_tooDeep
  · rw [evalWithin_eq_unlimited h, evalWithin_eq_unlimited (h.trans hmore)]
  · obtain ⟨-, -, hnesting⟩ := ofText_sound hs
    rw [eval, evalWithin_eq_unlimited (hnesting.trans maxNesting_le_maxEvalNesting)]
    exact e.unlimited_ne_tooDeep

/-- For `-sqrt(x)` three levels are enough and two are not, and the text is accepted. -/
theorem nesting_exact_budget_negated_root :
    let e := Expr.neg (.call .sqrt .var)
    (e.nesting ≤ 3 ∧ e.evalWithin 4 false 3 ≠ .error .tooDeep ∧
      e.evalWithin 4 false 512 = e.evalWithin 4 false 3) ∧
    (2 < e.nesting ∧ ∃ cause, e.evalWithin 4 false 2 = .error cause) ∧
    Expr.ofText ['-', 's', 'q', 'r', 't', '(', 'x', ')'] = .ok e ∧ e.eval 4 ≠ .error .tooDeep := by
  intro e
  obtain ⟨henough, hfew, haccepted⟩ := nesting_exact_budget e 4
  obtain ⟨hnotdeep, hmore⟩ := henough 3 (by decide)
  have htext : Expr.ofText ['-', 's', 'q', 'r', 't', '(', 'x', ')'] = .ok e := rfl
  exact ⟨⟨by decide, hnotdeep, hmore 512 (by decide)⟩, ⟨by decide, hfew 2 (by decide)⟩, htext,
    haccepted _ htext⟩

end Expr

end AnswerCheck
