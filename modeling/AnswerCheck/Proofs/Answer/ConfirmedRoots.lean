import AnswerCheck.Answer.Verification
import AnswerCheck.Proofs.Answer.Listing
import AnswerCheck.Proofs.Decimal.Binary64

/-! # Which roots of a verified answer are confirmed

An answer is verified with the claimed roots that the residual confirms, or else with the roots of a
scan. Listing the roots loses and invents no value. So a root without a small residual can only be
one that the scan gave up on: the midpoint of what is left of a cell after all halvings.
-/

set_option autoImplicit false

namespace AnswerCheck.Answer

open Search

/-! ## What verification does -/

/-- A verified answer states an equation; its roots are the claimed ones that the residual accepts,
or those of a scan if it accepts none. -/
theorem verify_eq_ok {question : Option String} {answer : String} {options : VerifyOptions}
    {v : Verification} (h : verify question answer options = .ok v) :
    ∃ e, Equation.ofText v.equation.toList = .ok e ∧
      v.recovered = (accepted e.residual? v.candidates options.tolerance).isEmpty ∧
      v.roots = rootsOf
        (if v.recovered then scan e.residual? v.candidates options.scan
          else accepted e.residual? v.candidates options.tolerance) v.places := by
  unfold verify at h
  simp only at h
  split at h
  · cases h
  · next equation _ =>
    split at h
    · cases h
    · next e he =>
      -- The choice of values stays folded, so that only the test for an empty list is split.
      generalize hvalues : (if (accepted e.residual? (candidates (Spelling.asciiText answer.toList))
          options.tolerance).isEmpty = true then _ else _) = values at h
      split at h
      · cases h
      · obtain rfl := Except.ok.inj h
        exact ⟨e, by rwa [String.toList_ofList], rfl, by rw [hvalues]⟩

/-- An answer is verified if it states an equation that can be read, and if one of its claimed roots
is accepted or else the scan finds one. -/
theorem exists_verify_eq_ok {question : Option String} {answer : String} {options : VerifyOptions}
    {equation : List Char} {e : Equation}
    (hequation : equation? (Spelling.asciiText answer.toList) = some equation)
    (he : Equation.ofText equation = .ok e)
    (hvalues : scan e.residual? (candidates (Spelling.asciiText answer.toList)) options.scan ≠ []) :
    ∃ v, verify question answer options = .ok v ∧ v.equation = String.ofList equation ∧
      v.roots ≠ [] := by
  unfold verify
  simp only [hequation, he]
  have hne : (if (accepted e.residual? (candidates (Spelling.asciiText answer.toList))
      options.tolerance).isEmpty = true
      then scan e.residual? (candidates (Spelling.asciiText answer.toList)) options.scan
      else accepted e.residual? (candidates (Spelling.asciiText answer.toList))
        options.tolerance) ≠ [] := by
    split
    · exact hvalues
    · next haccepted => exact fun h => haccepted (List.isEmpty_iff.mpr h)
  rw [if_neg (by rwa [List.isEmpty_iff])]
  exact ⟨_, rfl, rfl, rootsOf_ne_nil _ hne⟩

/-! ## Confirmed roots -/

/-- A residual within a tolerance is within any larger one. -/
theorem confirms_of_lt {f : Float → Option Float} {s t x : Float} (hst : s < t)
    (h : Confirms f s x) : Confirms f t x := by
  obtain ⟨y, hy, hlt⟩ := h
  have hlt : y.abs < s := of_decide_eq_true hlt
  exact ⟨y, hy, decide_eq_true (Binary64.lt_trans hlt hst)⟩

/-- An exactly vanishing residual is within every positive tolerance. -/
theorem confirms_of_isZero {f : Float → Option Float} {t x y : Float} (ht : 0 < t)
    (hy : f x = some y) (hzero : isZero y = true) : Confirms f t x :=
  ⟨y, hy, decide_eq_true (Binary64.abs_lt_of_beq_zero hzero ht)⟩

/-- A root of a verified answer is confirmed, unless the scan gave up on it. -/
theorem confirms_or_givenUp {question : Option String} {answer : String} {v : Verification}
    {e : Equation} (h : verify question answer .standard = .ok v)
    (he : Equation.ofText v.equation.toList = .ok e) {r : Root} (hr : r ∈ v.roots) :
    Confirms e.residual? 1e-4 r.value ∨ v.recovered = true ∧
      GivenUp e.residual? VerifyOptions.standard.scan.bisection
        (scanGrid v.candidates VerifyOptions.standard.scan) r.value := by
  obtain ⟨e', he', -, hroots⟩ := verify_eq_ok h
  obtain rfl : e' = e := Except.ok.inj (he'.symm.trans he)
  rw [hroots] at hr
  have hvalue := value_mem_of_mem_rootsOf hr
  cases hrec : v.recovered with
  | false =>
    rw [hrec] at hvalue
    exact Or.inl (confirms_of_mem_accepted hvalue)
  | true =>
    rw [hrec] at hvalue
    obtain ⟨y, hy, hzero⟩ | hsmall | hup := found_of_mem_scan hvalue
    · exact Or.inl (confirms_of_isZero (by decide +kernel) hy hzero)
    · exact Or.inl (confirms_of_lt (by decide +kernel) hsmall)
    · exact Or.inr ⟨rfl, hup⟩

/-- All roots of a verified answer have a residual below the tolerance, claimed and recovered ones
alike, exactly if none is a midpoint that the scan gave up on where the residual is not below it. -/
theorem roots_confirmed_iff (question : Option String) (answer : String) (v : Verification)
    (h : verify question answer .standard = .ok v) :
    ∃ e, Equation.ofText v.equation.toList = .ok e ∧
      ((∀ r ∈ v.roots, Confirms e.residual? VerifyOptions.standard.tolerance r.value) ↔
        ¬ ∃ r ∈ v.roots, v.recovered = true ∧
          GivenUp e.residual? VerifyOptions.standard.scan.bisection
            (scanGrid v.candidates VerifyOptions.standard.scan) r.value ∧
          ¬ Confirms e.residual? VerifyOptions.standard.tolerance r.value) := by
  obtain ⟨e, he, -⟩ := verify_eq_ok h
  refine ⟨e, he, ?_, ?_⟩
  · rintro hall ⟨r, hr, -, -, hnot⟩
    exact hnot (hall r hr)
  · intro hnone r hr
    obtain hsmall | ⟨hrec, hup⟩ := confirms_or_givenUp h he hr
    · exact hsmall
    · exact Classical.byContradiction fun hnot => hnone ⟨r, hr, hrec, hup, hnot⟩

theorem roots_confirmed_iff_claimed :
    ∃ v, verify none "x1 = 2, x2 = -2. Normalized Equation: x*x = 4" .standard = .ok v ∧
      ∃ e, Equation.ofText v.equation.toList = .ok e ∧
        ((∀ r ∈ v.roots, Confirms e.residual? VerifyOptions.standard.tolerance r.value) ↔
          ¬ ∃ r ∈ v.roots, v.recovered = true ∧
            GivenUp e.residual? VerifyOptions.standard.scan.bisection
              (scanGrid v.candidates VerifyOptions.standard.scan) r.value ∧
            ¬ Confirms e.residual? VerifyOptions.standard.tolerance r.value) := by
  have hok : (verify none "x1 = 2, x2 = -2. Normalized Equation: x*x = 4" .standard).isOk = true := by
    decide +kernel
  cases h : verify none "x1 = 2, x2 = -2. Normalized Equation: x*x = 4" .standard with
  | error e =>
    rw [h] at hok
    cases hok
  | ok v => exact ⟨v, rfl, roots_confirmed_iff none _ v h⟩

/-! ## A root of an equation that has none -/

/-- The difference to a number, divided by its magnitude. It is one or minus one wherever it is
defined, and its sign changes at the number, where it is not. -/
def signOfDifference (c : Float) : Expr :=
  let difference : Expr := .arith .sub .var (.number c)
  .arith .div difference (.call .abs difference)

theorem eval_signOfDifference {c x v : Float} (h : (signOfDifference c).eval x = .ok v) :
    v = 1 ∨ v = -1 := by
  simp only [signOfDifference, Expr.eval, maxEvalNesting, Expr.evalWithin, finiteValue,
    Operator.apply, Function.apply, bind, Except.bind, if_true, if_false, Bool.false_eq_true] at h
  by_cases hx : x.isFinite = true
  · by_cases hc : c.isFinite = true
    · by_cases hd : (x - c).isFinite = true
      · by_cases habs : (x - c).abs.isFinite = true
        · by_cases hzero : ((x - c).abs == 0) = true
          · simp [hx, hc, hd, habs, hzero] at h
          · have hone := Binary64.div_abs habs (Bool.eq_false_iff.mpr hzero)
            by_cases hv : ((x - c) / (x - c).abs).isFinite = true
            · simp only [hx, hc, hd, habs, hzero, hv, if_true, if_false, Bool.false_eq_true] at h
              rwa [Except.ok.inj h] at hone
            · simp [hx, hc, hd, habs, hzero, hv] at h
        · simp [hx, hc, hd, habs] at h
      · simp [hx, hc, hd] at h
    · simp [hx, hc] at h
  · simp [hx] at h

/-- An equation without a root. -/
def rootlessEquation : Equation :=
  ⟨signOfDifference 0.3, .number 0⟩

theorem not_confirms_rootlessEquation (x : Float) : ¬ Confirms rootlessEquation.residual? 1e-4 x := by
  rintro ⟨y, hy, hless⟩
  have hright : rootlessEquation.right.value x = 0 := rfl
  cases hleft : rootlessEquation.left.eval x with
  | error e =>
    have hvalue : rootlessEquation.left.value x = 0.0 / 0.0 := by rw [Expr.value, hleft]
    rw [Equation.residual?, Equation.residual, hvalue, hright, if_neg (by decide +kernel)] at hy
    cases hy
  | ok v =>
    have hvalue : rootlessEquation.left.value x = v := by rw [Expr.value, hleft]
    rw [Equation.residual?, Equation.residual, hvalue, hright] at hy
    obtain rfl | rfl := eval_signOfDifference hleft
    · rw [if_pos (by decide +kernel), Option.some.injEq] at hy
      rw [← hy] at hless
      exact absurd hless (by decide +kernel)
    · rw [if_pos (by decide +kernel), Option.some.injEq] at hy
      rw [← hy] at hless
      exact absurd hless (by decide +kernel)

/-- The answer is verified nevertheless, with a root that its equation does not confirm. -/
theorem unconfirmed_root :
    ∃ v, verify none "Normalized Equation: (x-0.3)/abs(x-0.3) = 0" .standard = .ok v ∧
      ∃ e, Equation.ofText v.equation.toList = .ok e ∧
        ∃ r ∈ v.roots, ¬ Confirms e.residual? VerifyOptions.standard.tolerance r.value := by
  let answer := "Normalized Equation: (x-0.3)/abs(x-0.3) = 0"
  have hequation : equation? (Spelling.asciiText answer.toList) =
      some "(x-0.3)/abs(x-0.3) = 0".toList := by decide +kernel
  have he : Equation.ofText "(x-0.3)/abs(x-0.3) = 0".toList = .ok rootlessEquation := by rfl
  have hclaimed : candidates (Spelling.asciiText answer.toList) = [] := by decide +kernel
  have hcell : (cellRoot? rootlessEquation.residual? VerifyOptions.standard.scan.bisection
      ((scanGrid [] VerifyOptions.standard.scan).sample 200)
      ((scanGrid [] VerifyOptions.standard.scan).sample 201)).isSome = true := by
    decide +kernel
  obtain ⟨x, hx⟩ := Option.isSome_iff_exists.mp hcell
  have hscan : scan rootlessEquation.residual? [] VerifyOptions.standard.scan ≠ [] :=
    scan_ne_nil (by decide +kernel) (by decide +kernel) hx
  have hverified : ∃ v, verify none answer .standard = .ok v ∧ _ ∧ v.roots ≠ [] :=
    exists_verify_eq_ok hequation he (by rwa [hclaimed])
  obtain ⟨v, hv, htext, hroots⟩ := hverified
  obtain ⟨r, hr⟩ := List.exists_mem_of_ne_nil v.roots hroots
  have htext : v.equation.toList = "(x-0.3)/abs(x-0.3) = 0".toList :=
    (congrArg String.toList htext).trans String.toList_ofList
  exact ⟨v, hv, rootlessEquation, (congrArg Equation.ofText htext).trans he, r, hr,
    not_confirms_rootlessEquation r.value⟩

end AnswerCheck.Answer
