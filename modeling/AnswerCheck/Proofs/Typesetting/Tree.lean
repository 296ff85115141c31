import AnswerCheck.Proofs.Expr.Nesting
import AnswerCheck.Proofs.Expr.Writing
import AnswerCheck.Proofs.Spelling.Sizes
import AnswerCheck.Proofs.Typesetting.Formula

/-! # The trees of typeset formulas

The written form of a formula denotes a tree, in which a fraction is a quotient without parentheses
around it. The tree is nested at most three times as deeply as the parentheses of the written form.
-/

set_option autoImplicit false

namespace AnswerCheck.Spelling.Formula

open Text Grammar

variable {category : Category}

/-! ## Trees -/

/-- The expression that the written form of a formula denotes. -/
def tree {category : Category} : Formula category → Expr
  | number _ d _ => .number d.toFloat
  | var => .var
  | group inside => inside.tree
  | fraction numerator denominator => .arith .div numerator.tree denominator.tree
  | root radicand => .call .sqrt radicand.tree
  | factor first => first.tree
  | times left dot right =>
    match right with
    | fraction numerator denominator =>
      .arith .div (.arith dot.operator left.tree numerator.tree) denominator.tree
    | right => .arith dot.operator left.tree right.tree
  | product first => first.tree
  | plus left sign right => .arith sign.operator left.tree right.tree

def isFraction {category : Category} : Formula category → Bool
  | fraction _ _ => true
  | _ => false

theorem tree_times {left : Formula .product} {dot : Dot} {right : Formula .factor}
    (h : right.isFraction = false) :
    (times left dot right).tree = .arith dot.operator left.tree right.tree := by
  cases right with
  | fraction numerator denominator => cases h
  | _ => rfl

/-! ## Written forms denote trees -/

theorem writes_over {s t : List Char} {a b : Expr} (hs : Expr.Writes .product s a)
    (ht : Expr.Writes .sum t b) :
    Expr.Writes .product (s ++ '/' :: ('(' :: t ++ [')'])) (.arith .div a b) := by
  have hnone : ∀ c ∈ ([] : List Char), isSpace c = true := by simp
  have hoperand : Expr.Writes .signed ('(' :: t ++ [')']) b :=
    ht.parenthesized.loosen (n := 3) (m := 5) (by decide)
  have hquotient : Expr.Writes .product (s ++ ([] ++ '/' :: ([] ++ ('(' :: t ++ [')'])))) (.arith .div a b) :=
    .join .div hnone hnone hs hoperand
  exact hquotient

theorem writes_dot {s t : List Char} {a b : Expr} (dot : Dot) (hs : Expr.Writes .product s a)
    (ht : Expr.Writes .factor t b) :
    Expr.Writes .product (s ++ ' ' :: ([dot.operator.symbol] ++ ' ' :: t)) (.arith dot.operator a b) := by
  have hblank : ∀ c ∈ [' '], isSpace c = true := by simp [isSpace]
  have hoperand := ht.loosen (n := 3) (m := 5) (by decide)
  have hjoin (op : Operator) (hop : op.binding = 2) :
      Expr.Writes .product (s ++ ' ' :: ([op.symbol] ++ ' ' :: t)) (.arith op a b) := by
    have h : Expr.Writes (Expr.tier op.binding) (s ++ ([' '] ++ op.symbol :: ([' '] ++ t))) (.arith op a b) :=
      .join op hblank hblank (by rw [hop]; exact hs) (by rw [hop]; exact hoperand)
    rw [hop] at h
    exact h
  cases dot with
  | div => exact hjoin .div rfl
  | _ => exact hjoin .mul rfl

theorem writes_sign {s t : List Char} {a b : Expr} (sign : Sign) (hs : Expr.Writes .sum s a)
    (ht : Expr.Writes .product t b) :
    Expr.Writes .sum (s ++ [' ', sign.operator.symbol, ' '] ++ t) (.arith sign.operator a b) := by
  cases sign with
  | plus => exact Expr.Writes.operator .add hs ht
  | minus => exact Expr.Writes.operator .sub hs ht

/-- Only the written form of a fraction is not a factor. -/
def categoryOf (category : Category) (isFraction : Bool) : Category :=
  match category, isFraction with
  | .factor, true => .product
  | category, _ => category

/-- The written form of a formula denotes its tree. -/
theorem writes {category : Category} (f : Formula category) :
    Expr.Writes (categoryOf category f.isFraction) f.ascii f.tree := by
  match f with
  | number _ _ h => exact .number h
  | var => exact .var
  | group inside => exact inside.writes.parenthesized
  | fraction numerator denominator =>
    have hnumerator := numerator.writes.parenthesized.loosen (n := 2) (m := 5) (by decide)
    have hquotient := writes_over hnumerator denominator.writes
    have htext : quotient numerator.ascii denominator.ascii =
        '(' :: numerator.ascii ++ [')'] ++ '/' :: ('(' :: denominator.ascii ++ [')']) := by
      simp [quotient]
    rw [← htext] at hquotient
    exact hquotient
  | root radicand => exact radicand.writes.call .sqrt
  | factor first =>
    have hfirst := first.writes
    cases hfraction : first.isFraction with
    | true => rwa [hfraction] at hfirst
    | false =>
      rw [hfraction] at hfirst
      exact hfirst.loosen (n := 2) (m := 5) (by decide)
  | times left dot right =>
    have hleft := left.writes
    have hright := right.writes
    cases right with
    | fraction numerator denominator =>
      have hproduct := writes_over (writes_dot dot hleft numerator.writes.parenthesized) denominator.writes
      have htext : left.ascii ++ ' ' :: ([dot.operator.symbol] ++ ' ' :: quotient numerator.ascii denominator.ascii) =
          left.ascii ++ ' ' :: ([dot.operator.symbol] ++ ' ' :: ('(' :: numerator.ascii ++ [')'])) ++
            '/' :: ('(' :: denominator.ascii ++ [')']) := by
        simp [quotient]
      rw [← htext] at hproduct
      exact hproduct
    | _ => exact writes_dot dot hleft hright
  | product first => exact first.writes.loosen (n := 1) (m := 2) (by decide)
  | plus left sign right => exact writes_sign sign left.writes right.writes

/-! ## Open parentheses -/

/-- In the piece of text that many parentheses are open at once, and all of them are closed. -/
def Opens (depth : Nat) (s : List Char) : Prop :=
  ∀ opened rest, mostOpen opened (s ++ rest) = max (opened + depth) (mostOpen opened rest)

theorem le_mostOpen (opened : Nat) (s : List Char) : opened ≤ mostOpen opened s := by
  fun_induction mostOpen opened s with
  | case1 => exact Nat.le_refl _
  | case2 opened s ih => omega
  | case3 opened s ih => omega
  | case4 opened c s _ _ ih => exact ih

theorem opens_plain {s : List Char} (h : '(' ∉ s) (h' : ')' ∉ s) : Opens 0 s := by
  intro opened rest
  induction s with
  | nil => exact (Nat.max_eq_right (le_mostOpen opened rest)).symm
  | cons c s ih =>
    obtain ⟨hopening, hs⟩ := not_or.mp (List.mem_cons.not.mp h)
    obtain ⟨hclosing, hs'⟩ := not_or.mp (List.mem_cons.not.mp h')
    rw [List.cons_append, mostOpen, ih hs hs']
    · exact Ne.symm hopening
    · exact Ne.symm hclosing

theorem Opens.append {d d' : Nat} {s t : List Char} (h : Opens d s) (h' : Opens d' t) :
    Opens (max d d') (s ++ t) := by
  intro opened rest
  rw [List.append_assoc, h, h']
  omega

theorem Opens.between {d d' : Nat} {s middle t : List Char} (h : Opens d s) (hopen : '(' ∉ middle)
    (hclose : ')' ∉ middle) (h' : Opens d' t) : Opens (max d d') (s ++ middle ++ t) := by
  have hjoined := (h.append (opens_plain hopen hclose)).append h'
  rwa [Nat.max_zero] at hjoined

theorem Opens.parenthesized {d : Nat} {s : List Char} (h : Opens d s) :
    Opens (d + 1) ('(' :: s ++ [')']) := by
  intro opened rest
  have htext : '(' :: s ++ [')'] ++ rest = '(' :: (s ++ ')' :: rest) := by simp
  rw [htext, mostOpen, h, mostOpen, Nat.add_sub_cancel]
  omega

/-- Most parentheses around a place in the written form. -/
def parenthesisDepth {category : Category} : Formula category → Nat
  | number _ _ _ => 0
  | var => 0
  | group inside => inside.parenthesisDepth + 1
  | fraction numerator denominator =>
    max (numerator.parenthesisDepth + 1) (denominator.parenthesisDepth + 1)
  | root radicand => radicand.parenthesisDepth + 1
  | factor first => first.parenthesisDepth
  | times left _ right => max left.parenthesisDepth right.parenthesisDepth
  | product first => first.parenthesisDepth
  | plus left _ right => max left.parenthesisDepth right.parenthesisDepth

theorem opens_ascii (f : Formula category) : Opens f.parenthesisDepth f.ascii := by
  induction f with
  | number text d h =>
    refine opens_plain ?_ ?_
    all_goals
      intro hc
      have hmem := h.mem hc
      simp at hmem
  | var => exact opens_plain (s := ['x']) (by decide) (by decide)
  | group inside ih => exact ih.parenthesized
  | fraction numerator denominator ih ih' =>
    have htext : (fraction numerator denominator).ascii =
        '(' :: numerator.ascii ++ [')'] ++ ['/'] ++ ('(' :: denominator.ascii ++ [')']) := by
      simp [ascii, write, quotient]
    rw [htext]
    exact ih.parenthesized.between (by decide) (by decide) ih'.parenthesized
  | root radicand ih =>
    have hname : Opens 0 "sqrt".toList := opens_plain (by decide) (by decide)
    have hcall := hname.append ih.parenthesized
    rw [Nat.zero_max] at hcall
    have htext : (root radicand).ascii = "sqrt".toList ++ ('(' :: radicand.ascii ++ [')']) := by
      simp [ascii, write, rootCall]
    rwa [htext]
  | factor first ih => exact ih
  | times left dot right ih ih' =>
    have htext : (times left dot right).ascii =
        left.ascii ++ [' ', dot.operator.symbol, ' '] ++ right.ascii := by
      simp [ascii, write]
    rw [htext]
    exact ih.between (by cases dot <;> decide) (by cases dot <;> decide) ih'
  | product first ih => exact ih
  | plus left sign right ih ih' =>
    exact ih.between (by cases sign <;> decide) (by cases sign <;> decide) ih'

/-! ## Nesting -/

/-- Levels of nesting that a formula adds on its own, as the left operand of a chain and elsewhere. -/
def levels (category : Category) (inChain : Bool) : Nat :=
  match category with
  | .factor => 1
  | .product => if inChain then 1 else 2
  | _ => if inChain then 2 else 3

theorem levels_product (inChain : Bool) : levels .product inChain = 1 + if inChain then 0 else 1 := by
  cases inChain <;> rfl

theorem levels_sum (inChain : Bool) : levels .sum inChain = 2 + if inChain then 0 else 1 := by
  cases inChain <;> rfl

theorem nestingIn_arith_le (op : Operator) {left right : Expr} {n : Nat} (hleft : left.nestingIn true ≤ n)
    (hright : right.nestingIn false ≤ n) (inChain : Bool) :
    (Expr.arith op left right).nestingIn inChain ≤ n + if inChain then 0 else 1 := by
  have hoperands := max_le hleft hright
  cases inChain with
  | true => exact hoperands
  | false =>
    rw [Nat.add_comm]
    exact Nat.add_le_add_left hoperands 1

theorem nestingIn_tree {category : Category} (f : Formula category) (inChain : Bool) :
    f.tree.nestingIn inChain ≤ 3 * f.parenthesisDepth + levels category inChain := by
  match f with
  | number _ _ _ => exact Nat.le_refl _
  | var => exact Nat.le_refl _
  | group inside =>
    have h : _ ≤ 3 * inside.parenthesisDepth + 3 := inside.nestingIn_tree false
    have hchain := inside.tree.nestingIn_le
    change inside.tree.nestingIn inChain ≤ 3 * (inside.parenthesisDepth + 1) + 1
    cases inChain <;> omega
  | fraction numerator denominator =>
    have h : _ ≤ 3 * numerator.parenthesisDepth + 2 := numerator.nestingIn_tree true
    have h' : _ ≤ 3 * denominator.parenthesisDepth + 3 := denominator.nestingIn_tree false
    refine (nestingIn_arith_le (n := 3 * (fraction numerator denominator).parenthesisDepth) .div ?_ ?_
      inChain).trans ?_
    · rw [parenthesisDepth]
      omega
    · rw [parenthesisDepth]
      omega
    · change _ ≤ _ + 1
      split <;> omega
  | root radicand =>
    have h : _ ≤ 3 * radicand.parenthesisDepth + 3 := radicand.nestingIn_tree false
    change 1 + radicand.tree.nestingIn false ≤ 3 * (radicand.parenthesisDepth + 1) + 1
    omega
  | factor first =>
    have h : _ ≤ 3 * first.parenthesisDepth + 1 := first.nestingIn_tree inChain
    rw [levels_product]
    exact h.trans (by rw [parenthesisDepth]; omega)
  | times left dot right =>
    have hleft : _ ≤ 3 * left.parenthesisDepth + 1 := left.nestingIn_tree true
    have hright : _ ≤ 3 * right.parenthesisDepth + 1 := right.nestingIn_tree false
    rw [levels_product, ← Nat.add_assoc, parenthesisDepth]
    cases right with
    | fraction numerator denominator =>
      have hnumerator : _ ≤ 3 * numerator.parenthesisDepth + 3 := numerator.nestingIn_tree false
      have hdenominator : _ ≤ 3 * denominator.parenthesisDepth + 3 := denominator.nestingIn_tree false
      rw [parenthesisDepth]
      have hproduct : max (left.tree.nestingIn true) (numerator.tree.nestingIn false) ≤ 3 *
          max left.parenthesisDepth (max (numerator.parenthesisDepth + 1) (denominator.parenthesisDepth + 1)) +
            1 := by
        omega
      exact nestingIn_arith_le .div hproduct (by omega) inChain
    | _ =>
      rw [tree_times rfl]
      exact nestingIn_arith_le dot.operator (by omega) (by omega) inChain
  | product first =>
    have h := first.nestingIn_tree inChain
    rw [levels_product] at h
    rw [levels_sum]
    exact h.trans (by rw [parenthesisDepth]; omega)
  | plus left sign right =>
    have hleft : _ ≤ 3 * left.parenthesisDepth + 2 := left.nestingIn_tree true
    have hright : _ ≤ 3 * right.parenthesisDepth + 2 := right.nestingIn_tree false
    rw [levels_sum, ← Nat.add_assoc, parenthesisDepth]
    exact nestingIn_arith_le sign.operator (by omega) (by omega) inChain

end AnswerCheck.Spelling.Formula
