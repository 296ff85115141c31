import AnswerCheck.Proofs.Expr.Loops

/-! # More levels

A lack of levels is passed on by every reader. So readers one of which approximates the other, in that
they agree wherever the one has levels enough, give readers of the level above that approximate each
other in the same way, and more levels change nothing but the lack of levels.
-/

set_option autoImplicit false

namespace AnswerCheck.Grammar

variable {α β : Type}

/-! ## Results -/

/-- The one result is the other, unless levels were lacking. -/
def Approximates (r r' : Except Failure α) : Prop :=
  r = .error .tooDeep ∨ r = r'

namespace Approximates

variable {r r' : Except Failure α}

theorem refl (r : Except Failure α) : Approximates r r :=
  Or.inr rfl

theorem eq (h : Approximates r r') (hr : r ≠ .error .tooDeep) : r = r' :=
  h.resolve_left hr

theorem bind {f f' : α → Except Failure β} (h : Approximates r r') (hf : ∀ a, Approximates (f a) (f' a)) :
    Approximates (r >>= f) (r' >>= f') := by
  obtain rfl | rfl := h
  · exact Or.inl rfl
  · cases r with
    | error e => exact refl _
    | ok a => exact hf a

theorem map (h : Approximates r r') (f : α → β) : Approximates (r.map f) (r'.map f) := by
  obtain rfl | rfl := h
  · exact Or.inl rfl
  · exact refl _

theorem failAt {r r' : Except Failure Parsed} (h : Approximates r r') (place : List Char) :
    Approximates (Grammar.failAt place r) (Grammar.failAt place r') := by
  obtain rfl | rfl := h
  · exact Or.inl rfl
  · exact refl _

theorem attempt {r r' : Except Failure Parsed} (h : Approximates r r') (p : Parsed) (op : Operator) :
    Approximates (p.attempt op r) (p.attempt op r') := by
  obtain rfl | rfl := h
  · exact Or.inl rfl
  · exact refl _

theorem loop {step step' : Parsed → Except Failure (Option Parsed)}
    (h : ∀ p, Approximates (step p) (step' p)) (n : Nat) (p : Parsed) :
    Approximates (Grammar.loop step n p) (Grammar.loop step' n p) := by
  induction n generalizing p with
  | zero => exact refl _
  | succ n ih =>
    rw [Grammar.loop, Grammar.loop]
    obtain hstep | hstep := h p
    · rw [hstep]
      exact Or.inl rfl
    · rw [hstep]
      cases step' p with
      | error e => exact refl _
      | ok found =>
        cases found with
        | none => exact refl _
        | some q => exact ih q

end Approximates

/-! ## Readers -/

/-- Readers that agree with the other ones wherever they have levels enough. -/
structure Level.Approximates (below below' : Level) : Prop where
  sum (s : List Char) : Grammar.Approximates (below.sum s) (below'.sum s)
  exponent (s : List Char) : Grammar.Approximates (below.exponent s) (below'.exponent s)
  signed (s : List Char) : Grammar.Approximates (below.signed s) (below'.signed s)

namespace Level.Approximates

variable {below below' : Level}

theorem group (h : below.Approximates below') (s : List Char) :
    Grammar.Approximates (Grammar.group below s) (Grammar.group below' s) :=
  (h.sum s).bind fun _ => .refl _

theorem named (h : below.Approximates below') (s : List Char) :
    Grammar.Approximates (Grammar.named below s) (Grammar.named below' s) := by
  unfold Grammar.named
  obtain ⟨name, rest⟩ := readName s
  dsimp only
  split_ifs
  · exact .refl _
  · exact .refl _
  · split
    · exact (h.group _).bind fun _ => .refl _
    · exact .refl _

theorem factor (h : below.Approximates below') (s : List Char) :
    Grammar.Approximates (Grammar.factor below s) (Grammar.factor below' s) := by
  unfold Grammar.factor
  dsimp only
  split
  · exact h.group _
  · split
    · exact .refl _
    · exact (h.named _).failAt _

theorem power (h : below.Approximates below') (s : List Char) :
    Grammar.Approximates (Grammar.power below s) (Grammar.power below' s) := by
  refine (h.factor s).bind fun base => ?_
  split
  · exact (h.exponent _).bind fun _ => .refl _
  · exact .refl _

theorem withSigns (h : below.Approximates below') {operand operand' : Reader}
    (hoperand : ∀ s, Grammar.Approximates (operand s) (operand' s)) (s : List Char) :
    Grammar.Approximates (Grammar.withSigns below operand s) (Grammar.withSigns below' operand' s) := by
  unfold Grammar.withSigns
  dsimp only
  split
  · exact ((hoperand _).failAt _).bind fun _ => .refl _
  · exact (hoperand _).failAt _
  · exact h.power _

theorem productStep (h : below.Approximates below') (p : Parsed) :
    Grammar.Approximates (Grammar.productStep below p) (Grammar.productStep below' p) := by
  unfold Grammar.productStep
  split
  · exact (h.withSigns h.signed _).map _
  · exact (h.withSigns h.signed _).map _
  · split
    · exact (h.power _).attempt p .mul
    · exact .refl _

theorem product (h : below.Approximates below') (s : List Char) :
    Grammar.Approximates (Grammar.product below s) (Grammar.product below' s) := by
  refine (h.withSigns h.signed s).bind fun first => ?_
  rw [productTail_eq_loop, productTail_eq_loop]
  exact .loop h.productStep _ first

theorem sumStep (h : below.Approximates below') (p : Parsed) :
    Grammar.Approximates (Grammar.sumStep below p) (Grammar.sumStep below' p) := by
  unfold Grammar.sumStep
  split
  · exact (h.product _).attempt p .add
  · exact (h.product _).attempt p .sub
  · exact .refl _

/-- The levels above approximate each other, too. -/
theorem above (h : below.Approximates below') : below.above.Approximates below'.above where
  sum s := by
    refine (h.product s).bind fun first => ?_
    rw [sumTail_eq_loop, sumTail_eq_loop]
    exact .loop h.sumStep _ first
  exponent s := h.withSigns h.exponent s
  signed s := h.withSigns h.signed s

end Level.Approximates

theorem none_approximates (below : Level) : Level.none.Approximates below where
  sum _ := Or.inl rfl
  exponent _ := Or.inl rfl
  signed _ := Or.inl rfl

/-- More levels change nothing but the lack of levels. -/
theorem readers_approximates {n m : Nat} (h : n ≤ m) : (readers n).Approximates (readers m) := by
  induction n generalizing m with
  | zero => exact none_approximates _
  | succ n ih =>
    cases m with
    | zero => exact absurd h (Nat.not_succ_le_zero n)
    | succ m => exact (ih (Nat.le_of_succ_le_succ h)).above

end AnswerCheck.Grammar
