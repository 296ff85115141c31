import AnswerCheck.Proofs.Expr.Nesting

/-! # Sizes of expressions

An expression is nested at least once and no deeper than it is high, and it has no fewer nodes than
its height. A node has at most two operands, so the nodes are fewer than two to the power of the
height. Negations of negations and full trees of powers show that no bound can be better.
-/

set_option autoImplicit false

namespace AnswerCheck.Expr

/-! ## Bounds -/

theorem one_le_nesting (e : Expr) : 1 ≤ e.nesting := by
  cases e with
  | number _ | var | pi => exact Nat.le_refl 1
  | _ => exact Nat.le_add_right 1 _

theorem nesting_le_depth (e : Expr) : e.nesting ≤ e.depth := by
  induction e with
  | number _ | var | pi => exact Nat.le_refl 1
  | arith op left right ihleft ihright =>
    -- The left operand continues the chain: its own nesting is not what counts, but it is no less.
    have hchain : left.nestingIn true ≤ left.depth := Nat.le_trans left.nestingIn_le.1 ihleft
    show 1 + max (left.nestingIn true) right.nesting ≤ 1 + max left.depth right.depth
    omega
  | power base exponent ihbase ihexponent =>
    show 1 + max base.nesting exponent.nesting ≤ 1 + max base.depth exponent.depth
    omega
  | neg _ ih | call _ _ ih => exact Nat.add_le_add_left ih 1

theorem depth_le_nodeCount (e : Expr) : e.depth ≤ e.nodeCount := by
  induction e with
  | number _ | var | pi => exact Nat.le_refl 1
  | arith _ _ _ ih ih' | power _ _ ih ih' =>
    simp only [depth, nodeCount]
    omega
  | neg _ ih | call _ _ ih => exact Nat.add_le_add_left ih 1

theorem node_lt_two_pow {m n a b : Nat} (ha : a < 2 ^ m) (hb : b < 2 ^ n) :
    1 + a + b < 2 ^ (1 + max m n) := by
  have hm : 2 ^ m ≤ 2 ^ max m n := Nat.pow_le_pow_right (by decide) (Nat.le_max_left m n)
  have hn : 2 ^ n ≤ 2 ^ max m n := Nat.pow_le_pow_right (by decide) (Nat.le_max_right m n)
  rw [Nat.pow_add]
  omega

theorem nodeCount_lt_two_pow (e : Expr) : e.nodeCount < 2 ^ e.depth := by
  induction e with
  | number _ | var | pi => exact Nat.one_lt_two
  | arith _ _ _ ih ih' | power _ _ ih ih' => exact node_lt_two_pow ih ih'
  | neg _ ih | call _ _ ih =>
    rw [nodeCount, depth, Nat.pow_add]
    omega

/-! ## Expressions that reach the bounds -/

/-- Negations of negations. -/
def negations : Nat → Expr
  | 0 => var
  | n + 1 => neg (negations n)

/-- A full tree of powers. -/
def fullPowers : Nat → Expr
  | 0 => var
  | n + 1 => power (fullPowers n) (fullPowers n)

theorem sizes_negations (n : Nat) :
    (negations n).nesting = n + 1 ∧ (negations n).depth = n + 1 ∧ (negations n).nodeCount = n + 1 := by
  induction n with
  | zero => exact ⟨rfl, rfl, rfl⟩
  | succ n ih =>
    obtain ⟨hnesting, hdepth, hnodes⟩ := ih
    have hlevel : (negations (n + 1)).nesting = 1 + (negations n).nesting := rfl
    rw [hlevel, hnesting, negations, depth, hdepth, nodeCount, hnodes]
    omega

theorem sizes_fullPowers (n : Nat) :
    (fullPowers n).nesting = n + 1 ∧ (fullPowers n).depth = n + 1 ∧
      (fullPowers n).nodeCount + 1 = 2 ^ (n + 1) := by
  induction n with
  | zero => exact ⟨rfl, rfl, rfl⟩
  | succ n ih =>
    obtain ⟨hnesting, hdepth, hnodes⟩ := ih
    have hlevel : (fullPowers (n + 1)).nesting =
        1 + max (fullPowers n).nesting (fullPowers n).nesting := rfl
    rw [hlevel, hnesting, fullPowers, depth, hdepth, nodeCount, Nat.pow_succ]
    omega

/-! ## The order of the sizes -/

/-- At least one level of nesting, no more levels than the tree is high, no fewer nodes than that, and
fewer nodes than two to the power of the height; where the nesting of a chain is one level more than
the greatest that a loop over its operands meets. For every height some expression has all three
sizes equal to it, and another one is nested as deeply and has as many nodes as the height allows. -/
theorem sizes_ordered :
    (∀ e : Expr, 1 ≤ e.nesting ∧ e.nesting ≤ e.depth ∧ e.depth ≤ e.nodeCount ∧
      e.nodeCount < 2 ^ e.depth) ∧
    (∀ op left right, let e := arith op left right
      e.nesting = 1 + (e.chainSteps.map fun step => step.2.nesting).foldl max e.chainHead.nesting) ∧
    ∀ n,
      ((negations n).nesting = n + 1 ∧ (negations n).depth = n + 1 ∧ (negations n).nodeCount = n + 1) ∧
      (fullPowers n).nesting = n + 1 ∧ (fullPowers n).depth = n + 1 ∧
        (fullPowers n).nodeCount + 1 = 2 ^ (n + 1) :=
  ⟨fun e => ⟨e.one_le_nesting, e.nesting_le_depth, e.depth_le_nodeCount, e.nodeCount_lt_two_pow⟩,
    nesting_chain,
    fun n => ⟨sizes_negations n, sizes_fullPowers n⟩⟩

/-- The bounds are all strict for `x+x+x`: two levels, height three, five nodes. -/
example : let e := Expr.arith .add (.arith .add .var .var) .var
    (e.nesting, e.depth, e.nodeCount, 2 ^ e.depth) = (2, 3, 5, 8) := rfl

end AnswerCheck.Expr
