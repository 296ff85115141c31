import AnswerCheck.Proofs.Expr.ExactValue
import AnswerCheck.Proofs.Spelling.Respelling
import AnswerCheck.Proofs.Typesetting.Tree

/-! # Typeset formulas keep their values

A fraction is written out as a quotient without parentheses around it. After `*` that is the same
number, but a fraction after `/` comes apart: its numerator divides, and so does its denominator.
-/

set_option autoImplicit false

namespace AnswerCheck.Spelling.Formula

open Text Grammar

/-! ## Values -/

/-- The value of a formula at a point, with a fraction as one operand. -/
noncomputable def value? (literal : Float → ℝ) (x : ℝ) {category : Category} :
    Formula category → Option ℝ
  | number _ d _ => some (literal d.toFloat)
  | var => some x
  | group inside => inside.value? literal x
  | fraction numerator denominator => do
    Operator.div.onReals? (← numerator.value? literal x) (← denominator.value? literal x)
  | root radicand => do
    Function.sqrt.onReal? (← radicand.value? literal x)
  | factor first => first.value? literal x
  | times left dot right => do
    dot.operator.onReals? (← left.value? literal x) (← right.value? literal x)
  | product first => first.value? literal x
  | plus left sign right => do
    sign.operator.onReals? (← left.value? literal x) (← right.value? literal x)

/-- No fraction stands after a division. -/
def DividesByNoFraction {category : Category} : Formula category → Prop
  | number _ _ _ => True
  | var => True
  | group inside => inside.DividesByNoFraction
  | fraction numerator denominator => numerator.DividesByNoFraction ∧ denominator.DividesByNoFraction
  | root radicand => radicand.DividesByNoFraction
  | factor first => first.DividesByNoFraction
  | times left dot right => left.DividesByNoFraction ∧ right.DividesByNoFraction ∧
      (dot = .div → right.isFraction = false)
  | product first => first.DividesByNoFraction
  | plus left _ right => left.DividesByNoFraction ∧ right.DividesByNoFraction

/-! ## Values of trees -/

theorem exactValue?_tree {literal : Float → ℝ} {x : ℝ} {category : Category} (f : Formula category)
    (h : f.DividesByNoFraction) : f.tree.exactValue? literal x = f.value? literal x := by
  match f with
  | number _ _ _ => rfl
  | var => rfl
  | group inside => exact inside.exactValue?_tree h
  | fraction numerator denominator =>
    rw [tree, value?, Expr.exactValue?, numerator.exactValue?_tree h.1, denominator.exactValue?_tree h.2]
  | root radicand =>
    rw [tree, value?, Expr.exactValue?, exactValue?_tree radicand h]
  | factor first => exact first.exactValue?_tree h
  | times left dot right =>
    obtain ⟨hleft, hright, hdot⟩ := h
    have hvalue : left.tree.exactValue? literal x = left.value? literal x := left.exactValue?_tree hleft
    have hvalue' : right.tree.exactValue? literal x = right.value? literal x :=
      right.exactValue?_tree hright
    cases right with
    | fraction numerator denominator =>
      have hmul : dot.operator = .mul := by
        cases dot with
        | div => exact absurd (hdot rfl) (by simp [isFraction])
        | _ => rfl
      have hassoc := Operator.onReals?_mul_div (left.tree.exactValue? literal x)
        (numerator.tree.exactValue? literal x) (denominator.tree.exactValue? literal x)
      rw [tree, Expr.exactValue?] at hvalue'
      rw [tree, value?, Expr.exactValue?, Expr.exactValue?, ← hvalue, ← hvalue', hmul]
      exact hassoc
    | _ => rw [tree_times rfl, value?, Expr.exactValue?, hvalue, hvalue']
  | product first => exact first.exactValue?_tree h
  | plus left sign right =>
    rw [tree, value?, Expr.exactValue?, left.exactValue?_tree h.1, right.exactValue?_tree h.2]

/-! ## Reading typeset formulas -/

/-- Apart from blanks and shorter numbers, the ASCII spelling of a formula is its written form. -/
theorem denotes_asciiText (f : Formula .sum) :
    parentheses (sideText (asciiText f.latex)) = parentheses f.ascii ∧
      Denotes isSpace (sideText (asciiText f.latex)) f.tree := by
  obtain ⟨ts, ending, hspelled, hderives⟩ := f.writes
  have hmeans : Means (fun s => parentheses s = parentheses f.ascii) ([] ++ f.ascii ++ []) f.tree :=
    .mk (by simp) (by simp) rfl ⟨ts, ending, hspelled, hderives⟩
  rw [List.nil_append, List.append_nil] at hmeans
  rw [f.asciiText_latex, asciiText_eq_iterate]
  exact (hmeans.iterate_pass maxPasses).denotes_sideText

theorem nesting_le {f : Formula .sum} (h : mostOpen 0 f.ascii ≤ maxOpen) : f.tree.nesting ≤ maxNesting := by
  have hopens := f.opens_ascii 0 []
  have hnesting := f.nestingIn_tree false
  have hlevels : 3 * maxOpen + levels .sum false ≤ maxNesting := by decide
  rw [List.append_nil, mostOpen] at hopens
  rw [Expr.nesting]
  omega

/-- A typeset formula whose ASCII spelling keeps the limits is read as its tree. If no fraction stands
after a division, then the tree has the value of the formula, and where the one has none the other
has none. -/
theorem ofText_latex (f : Formula .sum) (hlimits : brokenLimit? (sideText (asciiText f.latex)) = none) :
    Expr.ofText (asciiText f.latex) = .ok f.tree ∧
      (f.DividesByNoFraction → ∀ literal x, f.tree.exactValue? literal x = f.value? literal x) := by
  obtain ⟨hparentheses, hdenotes⟩ := f.denotes_asciiText
  obtain ⟨ts, ending, hspelled, hderives⟩ := hdenotes
  have hne := hspelled.ne_nil hderives.valid hderives.ne_nil
  have hwithin := brokenLimit?_eq_none_iff.mp ⟨hne, hlimits⟩
  have hopen : mostOpen 0 f.ascii ≤ maxOpen := by
    rw [← mostOpen_parentheses, ← hparentheses, mostOpen_parentheses]
    exact mostOpen_le_iff.mpr hwithin.opened
  refine ⟨ofText_complete hwithin ⟨ts, ending, hspelled, hderives⟩ (nesting_le hopen), ?_⟩
  exact fun hdivides _ _ => f.exactValue?_tree hdivides

/-- A product with a fraction, in which a root is nested. -/
theorem ofText_latex_product : ∃ f : Formula .sum,
    f.latex = "2 \\cdot \\frac\x7bx\x7d\x7b\\sqrt\x7bx\x7d\x7d".toList ∧ f.DividesByNoFraction ∧
      brokenLimit? (sideText (asciiText f.latex)) = none ∧ Expr.ofText (asciiText f.latex) = .ok f.tree ∧
      ∀ literal x, f.tree.exactValue? literal x = f.value? literal x := by
  have htwo : Decimal.Numeral ['2'] ⟨2, 0⟩ := Decimal.numeral_digit rfl
  let f : Formula .sum := .product (.times (.factor (.number ['2'] ⟨2, 0⟩ htwo)) .cdot
    (.fraction (.product (.factor .var)) (.product (.factor (.root (.product (.factor .var)))))))
  have hlatex : f.latex = "2 \\cdot \\frac\x7bx\x7d\x7b\\sqrt\x7bx\x7d\x7d".toList := rfl
  have hdivides : f.DividesByNoFraction := by simp [f, DividesByNoFraction]
  have hlimits : brokenLimit? (sideText (asciiText f.latex)) = none := by
    rw [hlatex]
    decide +kernel
  obtain ⟨hread, hvalue⟩ := ofText_latex f hlimits
  exact ⟨f, hlatex, hdivides, hlimits, hread, hvalue hdivides⟩

theorem exactLiteral_one : exactLiteral (Decimal.toFloat ⟨1, 0⟩) = 1 := by
  have hdecimal : Decimal.ofFloat (Decimal.toFloat ⟨1, 0⟩) = ⟨2 ^ 52 * 5 ^ 52, -52⟩ := by decide +kernel
  rw [exactLiteral, hdecimal]
  norm_num [Decimal.value]

theorem exactLiteral_two : exactLiteral (Decimal.toFloat ⟨2, 0⟩) = 2 := by
  have hdecimal : Decimal.ofFloat (Decimal.toFloat ⟨2, 0⟩) = ⟨2 ^ 52 * 5 ^ 51, -51⟩ := by decide +kernel
  rw [exactLiteral, hdecimal]
  norm_num [Decimal.value]

/-- One divided by a half is two, but it is read as one divided by one and by two. -/
theorem fraction_after_division : ∃ f : Formula .sum,
    f.latex = "1 \\div \\frac\x7b1\x7d\x7b2\x7d".toList ∧ Expr.ofText (asciiText f.latex) = .ok f.tree ∧
      ∀ x, f.value? exactLiteral x = some 2 ∧ f.tree.exactValue? exactLiteral x = some (1 / 2) := by
  have hone : Decimal.Numeral ['1'] ⟨1, 0⟩ := Decimal.numeral_digit rfl
  have htwo : Decimal.Numeral ['2'] ⟨2, 0⟩ := Decimal.numeral_digit rfl
  let one : Formula .sum := .product (.factor (.number ['1'] ⟨1, 0⟩ hone))
  let two : Formula .sum := .product (.factor (.number ['2'] ⟨2, 0⟩ htwo))
  let f : Formula .sum := .product (.times (.factor (.number ['1'] ⟨1, 0⟩ hone)) .div (.fraction one two))
  have hlatex : f.latex = "1 \\div \\frac\x7b1\x7d\x7b2\x7d".toList := rfl
  have hascii : asciiText f.latex = "1 / (1)/(2)".toList := by
    rw [hlatex]
    decide +kernel
  have hread : Expr.ofText "1 / (1)/(2)".toList = .ok f.tree := rfl
  refine ⟨f, hlatex, hascii ▸ hread, fun x => ⟨?_, ?_⟩⟩
  · simp [f, one, two, value?, Dot.operator, Operator.onReals?, exactLiteral_one, exactLiteral_two]
  · simp [f, one, two, tree, Expr.exactValue?, Dot.operator, Operator.onReals?, exactLiteral_one,
      exactLiteral_two]

end AnswerCheck.Spelling.Formula
