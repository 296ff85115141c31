import AnswerCheck.Answer.Verification
import AnswerCheck.Proofs.Answer.ReadBack
import AnswerCheck.Proofs.Answer.StatedEquation
import AnswerCheck.Proofs.Expr.ZeroPoints

/-! # A root that is stated is confirmed

An answer that labels an equation and states a root of it is verified: the equation is read as it is
stated, the number is among the claimed roots, and its residual is small. Of numbers that differ in
the sign of zero only the first is kept, which changes neither the residual's magnitude nor the text
that shows the root.
-/

set_option autoImplicit false

namespace AnswerCheck.Answer

open Text Decimal Spelling Grammar Search Binary64

variable {left right numeral s t : List Char} {e : Equation} {value : Float}

/-! ## The claimed root -/

/-- A character that the words of a final answer may start with. -/
def startsFinalAnswer (c : Char) : Bool :=
  foldCase c == 'f'

theorem startsIn_finalAnswer : StartsIn startsFinalAnswer finalAnswer? := by
  intro c s hc
  have hne : foldCase c ≠ 'f' := by simpa [startsFinalAnswer] using hc
  have hword : "final answer".toList = 'f' :: "inal answer".toList := rfl
  rw [finalAnswer?, hword, afterCaseless?, if_neg hne]
  rfl

theorem finalNumbers_append (ht : ∀ c ∈ t, startsFinalAnswer c = false) (s : List Char) :
    finalNumbers (t ++ s) = finalNumbers s := by
  rw [finalNumbers, startsIn_finalAnswer.findFirst?_append ht, finalNumbers]
  cases findFirst? finalAnswer? s <;> rfl

theorem side_not_startsFinalAnswer {keeps : List Char → Prop} {a : Expr} (h : Means keeps s a) :
    ∀ c ∈ s, startsFinalAnswer c = false := by
  have hall := h.all (p := fun c => !startsFinalAnswer c) (fun c hc => ?_) (fun c hc => ?_)
    (by decide +kernel)
  · simpa using hall
  · simp [startsFinalAnswer, foldCase_of_isBlank hc, ne_of_kind hc (d := 'f') rfl]
  · have hne : c ≠ 'f' := ne_of_kind hc rfl
    simp [startsFinalAnswer, foldCase_of_isDigit hc, hne]

/-- The number that is stated is among the claimed roots, up to the sign of zero. -/
theorem States.exists_candidate (h : States s e value) :
    ∃ x ∈ candidates s, (x == value) = true := by
  obtain ⟨hleft, hright, -, -, hnumeral⟩ := h
  rename_i left right numeral
  have hlabel : ∀ c ∈ equationLabel, startsFinalAnswer c = false :=
    of_any_eq_false (by decide +kernel)
  have hfirst : ∀ c ∈ equationLabel ++ (left ++ '=' :: (right ++ ['\n'])), startsFinalAnswer c = false := by
    intro c hc
    simp only [List.mem_append, List.mem_cons, List.not_mem_nil, or_false] at hc
    obtain hc | hc | rfl | hc | rfl := hc
    · exact hlabel c hc
    · exact side_not_startsFinalAnswer hleft c hc
    · rfl
    · exact side_not_startsFinalAnswer hright c hc
    · rfl
  have htext : statement left right numeral =
      equationLabel ++ (left ++ '=' :: (right ++ ['\n'])) ++
        ("Final Answer: ".toList ++ listed [⟨[], numeral, value, by simp [IsDigits], hnumeral⟩]) := by
    have hroot : rootLabel = '\n' :: "Final Answer: ".toList ++ ['x', '='] := rfl
    simp only [statement, hroot, listed, Assignment.text, List.map_cons, List.map_nil,
      List.intercalate_singleton, List.append_assoc, List.cons_append, List.nil_append]
  have hnumbers : value ∈ finalNumbers (statement left right numeral) := by
    rw [htext, finalNumbers_append hfirst, finalNumbers_listed, findAll_signed_listed]
    simp [Assignment.numbers]
  exact exists_collected (List.mem_append_right _ hnumbers) (ne_nan_of_proseNumeral hnumeral)

/-! ## Verification -/

/-- An answer is verified without a scan if one of its claimed roots is accepted. -/
theorem verify_of_accepted (question : Option String) {answer : String} {options : VerifyOptions}
    {text : List Char} (hequation : equation? (asciiText answer.toList) = some text)
    (he : Equation.ofText text = .ok e)
    (haccepted : accepted e.residual? (candidates (asciiText answer.toList)) options.tolerance ≠ []) :
    ∃ v, verify question answer options = .ok v ∧ v.recovered = false ∧
      v.roots = rootsOf
        (accepted e.residual? (candidates (asciiText answer.toList)) options.tolerance) v.places := by
  have hempty : (accepted e.residual? (candidates (asciiText answer.toList))
      options.tolerance).isEmpty = false := by
    simpa using haccepted
  unfold verify
  simp only [hequation, he, hempty, Bool.false_eq_true, if_false]
  exact ⟨_, rfl, rfl, rfl⟩

/-- A claimed number is accepted if it equals one whose residual is small. -/
theorem mem_accepted {claimed : List Float} {tolerance x : Float} (hx : x ∈ claimed)
    (hbeq : (x == value) = true) (hsmall : (e.residual value).abs < tolerance) :
    x ∈ accepted e.residual? claimed tolerance := by
  have hsame := e.residual_same (sameUpToZero_of_beq hbeq)
  have habs : (e.residual x).abs = (e.residual value).abs := hsame.congr (by rfl)
  rw [← habs] at hsmall
  have hresidual : e.residual? x = some (e.residual x) := if_pos (isFinite_of_abs_lt hsmall)
  refine List.mem_filter.mpr ⟨hx, ?_⟩
  rw [hresidual]
  exact decide_eq_true hsmall

/-- An answer whose ASCII spelling states a root of its equation is verified by this root. -/
theorem States.verify {question : Option String} {answer : String} {options : VerifyOptions}
    (h : States (asciiText answer.toList) e value) (hleft : e.left.nesting ≤ maxNesting)
    (hright : e.right.nesting ≤ maxNesting) (hroot : (e.residual value).abs < options.tolerance) :
    ∃ v, verify question answer options = .ok v ∧ v.recovered = false ∧
      ∃ r ∈ v.roots, r.shown = calculatorText value v.places := by
  obtain ⟨text, hequation, hread⟩ := h.exists_equation hleft hright
  obtain ⟨x, hx, hbeq⟩ := h.exists_candidate
  have haccepted := mem_accepted hx hbeq hroot
  obtain ⟨v, hv, hrecovered, hroots⟩ :=
    verify_of_accepted question hequation hread (List.ne_nil_of_mem haccepted)
  have hnan : x ≠ .nan := (Float.beq_iff_ne_nan_and_eq.mp hbeq).1
  obtain ⟨r, hr, hshown⟩ := exists_root_shown haccepted hnan v.places
  refine ⟨v, hv, hrecovered, r, by rwa [hroots], ?_⟩
  rw [hshown, (sameUpToZero_of_beq hbeq).calculatorText_eq]

theorem ofText_eq_ok {text : List Char} (h : Equation.ofText text = .ok e) :
    ∃ left right, text = left ++ '=' :: right ∧ Expr.ofText left = .ok e.left ∧
      Expr.ofText right = .ok e.right := by
  unfold Equation.ofText at h
  split at h
  · next left right hsplit =>
    obtain ⟨rfl, -, -⟩ := splitOn_eq_pair.mp hsplit
    cases hleft : Expr.ofText left with
    | error error =>
      rw [hleft] at h
      cases h
    | ok a =>
      cases hright : Expr.ofText right with
      | error error =>
        rw [hleft, hright] at h
        cases h
      | ok b =>
        rw [hleft, hright] at h
        cases h
        exact ⟨left, right, rfl, hleft, hright⟩
  · cases h

theorem toList_statement {equation : String} (h : equation.toList = left ++ '=' :: right)
    (numeral : String) :
    ("Normalized Equation: " ++ equation ++ "\nFinal Answer: x=" ++ numeral).toList =
      statement (' ' :: left) right numeral.toList := by
  have hlabel : "Normalized Equation: ".toList = equationLabel ++ [' '] := rfl
  have hroot : "\nFinal Answer: x=".toList = rootLabel := rfl
  simp only [String.toList_append, h, hlabel, hroot, statement, List.append_assoc, List.cons_append,
    List.nil_append]

/-- A root that is stated with its equation is confirmed: the answer is verified without a scan, and
the text that shows the number is that of one of the roots. -/
theorem verify_stated_root (question : Option String) (equation numeral : String) (e : Equation)
    (value : Float) (options : VerifyOptions) (hline : '\n' ∉ equation.toList)
    (he : Equation.ofText equation.toList = .ok e) (hnumeral : ProseNumeral numeral.toList value)
    (hroot : (e.residual value).abs < options.tolerance) :
    ∃ v, verify question ("Normalized Equation: " ++ equation ++ "\nFinal Answer: x=" ++ numeral)
        options = .ok v ∧ v.recovered = false ∧
      ∃ r ∈ v.roots, r.shown = calculatorText value v.places := by
  obtain ⟨left, right, htext, hleft, hright⟩ := ofText_eq_ok he
  obtain ⟨hmeans, hnesting⟩ := means_of_ofText hleft
  obtain ⟨hmeans', hnesting'⟩ := means_of_ofText hright
  rw [htext] at hline
  simp only [List.mem_append, List.mem_cons, not_or] at hline
  have hline' : '\n' ∉ ' ' :: left := by simpa using hline.1
  have hblank : Means WithinLimits ((' ' :: left).map plainMinus) e.left := hmeans.blank
  have hstates := asciiText_states hblank hmeans' hline' hline.2.2 hnumeral
  rw [← toList_statement htext numeral] at hstates
  exact hstates.verify hnesting hnesting' hroot

/-- The equation `x + 15 = 0`. -/
def shiftedEquation : Equation :=
  ⟨.arith .add .var (.number (toFloat ⟨15, 0⟩)), .number (toFloat ⟨0, 0⟩)⟩

/-- An answer of which spelling in ASCII rewrites both the equation and the number. -/
theorem verify_stated_root_scientific :
    '\n' ∉ "x  + 15 = 0".toList ∧ Equation.ofText "x  + 15 = 0".toList = .ok shiftedEquation ∧
      ProseNumeral "-1.50e+1".toList (-toFloat ⟨150, -1⟩) ∧
      (shiftedEquation.residual (-toFloat ⟨150, -1⟩)).abs < VerifyOptions.standard.tolerance ∧
      ∃ v, verify none ("Normalized Equation: " ++ "x  + 15 = 0" ++ "\nFinal Answer: x=" ++ "-1.50e+1")
          .standard = .ok v ∧ v.recovered = false ∧
        ∃ r ∈ v.roots, r.shown = calculatorText (-toFloat ⟨150, -1⟩) v.places := by
  have hline : '\n' ∉ "x  + 15 = 0".toList := by decide
  have he : Equation.ofText "x  + 15 = 0".toList = .ok shiftedEquation := rfl
  have hone : IsDigits ['1'] := by simp [IsDigits]
  have hfraction : Fraction ['.', '5', '0'] ['5', '0'] := .point (by simp [IsDigits])
  have hpower : Power ['e', '+', '1'] 1 := .plus (Or.inl rfl) hone (by simp)
  have hnumeral : ProseNumeral "-1.50e+1".toList (-toFloat ⟨150, -1⟩) :=
    .minus (.mk hone (by simp) hfraction (by simp) hpower)
  have hroot : (shiftedEquation.residual (-toFloat ⟨150, -1⟩)).abs <
      VerifyOptions.standard.tolerance := by
    decide +kernel
  exact ⟨hline, he, hnumeral, hroot, verify_stated_root none _ _ _ _ _ hline he hnumeral hroot⟩

end AnswerCheck.Answer
