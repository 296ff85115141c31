import AnswerCheck.Proofs.Expr.Derivation

/-! # Texts of the categories of the grammar

A text is put together from texts of its operands: with an operator between them, in parentheses or
behind the name of a function.
-/

set_option autoImplicit false

namespace AnswerCheck.Expr

open Text Grammar

/-- The text is derived as an expression by a category. -/
def Writes (category : Category) (s : List Char) (e : Expr) : Prop :=
  ∃ ts ending, Spelled isSpace ts s ∧ Derives category ts e ending

/-- The category whose outermost operator binds at least this tightly. -/
def tier : Nat → Category
  | 0 | 1 => .sum
  | 2 => .product
  | 3 => .signed
  | 4 => .power
  | _ => .factor

variable {s t : List Char} {a b e : Expr}

theorem Writes.number {text : List Char} {d : Decimal} (h : Decimal.Numeral text d) :
    Writes .factor text (number d.toFloat) :=
  ⟨_, _, .only (.number text), .number h⟩

theorem Writes.var : Writes .factor ['x'] var :=
  ⟨_, _, .only .var, .var⟩

theorem Writes.loosen {n m : Nat} (hnm : n ≤ m) (h : Writes (tier m) s e) : Writes (tier n) s e := by
  induction m, hnm using Nat.le_induction with
  | base => exact h
  | succ m _ ih =>
    obtain ⟨ts, ending, hspelled, hderives⟩ := h
    refine ih ⟨ts, ending, hspelled, ?_⟩
    match m with
    | 0 => exact hderives
    | 1 => exact .term hderives
    | 2 => exact .operand hderives
    | 3 => exact .unsigned rfl hderives
    | 4 => exact .base hderives
    | _ + 5 => exact hderives

theorem Writes.parenthesized (h : Writes .sum s e) : Writes .factor ('(' :: s ++ [')']) e := by
  obtain ⟨ts, ending, hspelled, hderives⟩ := h
  exact ⟨_, _, .token .opening (hspelled.append (.only .closing)), .group hderives⟩

theorem Writes.call (f : Function) (h : Writes .sum s e) :
    Writes .factor (f.name.toList ++ '(' :: s ++ [')']) (call f e) := by
  obtain ⟨ts, ending, hspelled, hderives⟩ := h
  have hcall := Spelled.token (.function f) (.token .opening (hspelled.append (.only .closing)))
  refine ⟨_, _, ?_, .call f hderives⟩
  rw [List.append_assoc]
  exact hcall

/-- An operator, with blanks around it or without. -/
theorem Writes.join (op : Operator) {gap gap' : List Char} (hgap : ∀ c ∈ gap, isSpace c = true)
    (hgap' : ∀ c ∈ gap', isSpace c = true) (hleft : Writes (tier op.binding) s a)
    (hright : Writes (tier (op.binding + 1)) t b) :
    Writes (tier op.binding) (s ++ (gap ++ op.symbol :: (gap' ++ t))) (.arith op a b) := by
  obtain ⟨ts, ending, hspelled, hderives⟩ := hleft
  obtain ⟨us, ending', hspelled', hderives'⟩ := hright
  have htail : Spelled isSpace (.operator op :: us) (gap ++ [op.symbol] ++ (gap' ++ t)) :=
    .cons (.operator op) hgap (hspelled'.gap_append hderives'.ne_nil hgap')
  rw [List.append_assoc] at htail
  refine ⟨_, ending', hspelled.append htail, ?_⟩
  cases op with
  | add => exact .plus rfl hderives hderives'
  | sub => exact .plus rfl hderives hderives'
  | mul => exact .times rfl hderives hderives'
  | div => exact .times rfl hderives hderives'

/-- An operator with a blank on both sides. -/
theorem Writes.operator (op : Operator) (hleft : Writes (tier op.binding) s a)
    (hright : Writes (tier (op.binding + 1)) t b) :
    Writes (tier op.binding) (s ++ [' ', op.symbol, ' '] ++ t) (.arith op a b) := by
  have hblank : ∀ c ∈ [' '], isSpace c = true := by simp [isSpace]
  rw [List.append_assoc]
  exact hleft.join op hblank hblank hright

end AnswerCheck.Expr
