import AnswerCheck.Proofs.Search.ExactNumbers
import AnswerCheck.Proofs.Search.Halving

/-! # Bisection without rounding

With exact midpoints every halving leaves half of the bracket, inside the one before. So a root that
bisection finds lies strictly between the two points it starts from, in either order of the points.
-/

set_option autoImplicit false

namespace AnswerCheck.Search

variable {f : Exact → Exact} {a b c d : ℚ} {low high low' high' m : Exact} {n : Nat} {tolerance : Exact}
  {limits : BisectionLimits Exact}

/-! ## Signs -/

/-- The residual at both points is a rational number, other than zero and of opposite signs. -/
def OppositeSigns (f : Exact → Exact) (low high : Exact) : Prop :=
  ∃ y z : ℚ, f low = y ∧ f high = z ∧ y * z < 0

theorem finitePart_eq_some_iff_exact {x y : Exact} :
    finitePart f x = some y ↔ ∃ q : ℚ, f x = q ∧ y = q := by
  rw [finitePart_eq_some, Exact.isFinite_iff]
  constructor
  · rintro ⟨hx, q, rfl⟩
    exact ⟨q, hx, rfl⟩
  · rintro ⟨q, hx, rfl⟩
    exact ⟨hx, q, rfl⟩

theorem isNegative_ne_iff {y z : ℚ} :
    isNegative (y : Exact) ≠ isNegative (z : Exact) ↔ (y < 0 ↔ ¬ z < 0) := by
  rw [ne_eq, Bool.eq_iff_iff, Exact.isNegative_finite, Exact.isNegative_finite]
  tauto

theorem brackets_iff_exact :
    Brackets (finitePart f) low high ↔ ∃ y z : ℚ, f low = y ∧ f high = z ∧ (y < 0 ↔ ¬ z < 0) := by
  simp only [Brackets, finitePart_eq_some_iff_exact]
  constructor
  · rintro ⟨-, -, ⟨y, hy, rfl⟩, ⟨z, hz, rfl⟩, hne⟩
    exact ⟨y, z, hy, hz, isNegative_ne_iff.mp hne⟩
  · rintro ⟨y, z, hy, hz, hne⟩
    exact ⟨y, z, ⟨y, hy, rfl⟩, ⟨z, hz, rfl⟩, isNegative_ne_iff.mpr hne⟩

theorem separates_iff_exact : Separates (finitePart f) low high ↔ OppositeSigns f low high := by
  have hzero (q : ℚ) : isZero (q : Exact) = false ↔ q ≠ 0 := by
    rw [← Bool.not_eq_true, Exact.isZero_finite]
  have hsigns (y z : ℚ) : y ≠ 0 ∧ z ≠ 0 ∧ (y < 0 ↔ ¬ z < 0) ↔ y * z < 0 := by
    rw [mul_neg_iff]
    grind
  simp only [Separates, OppositeSigns, finitePart_eq_some_iff_exact, ← hsigns]
  constructor
  · rintro ⟨-, -, ⟨y, hy, rfl⟩, ⟨z, hz, rfl⟩, hy', hz', hne⟩
    exact ⟨y, z, hy, hz, (hzero y).mp hy', (hzero z).mp hz', isNegative_ne_iff.mp hne⟩
  · rintro ⟨y, z, hy, hz, hy', hz', hne⟩
    exact ⟨y, z, ⟨y, hy, rfl⟩, ⟨z, hz, rfl⟩, (hzero y).mpr hy', (hzero z).mpr hz',
      isNegative_ne_iff.mpr hne⟩

theorem OppositeSigns.ne (h : OppositeSigns f a b) : a ≠ b := by
  rintro rfl
  obtain ⟨y, z, hy, hz, hsign⟩ := h
  obtain rfl : y = z := Exact.finite.inj (hy.symm.trans hz)
  exact absurd hsign (mul_self_nonneg y).not_gt

/-! ## What is left of a bracket -/

theorem half_mem_uIcc (a b : ℚ) : (a + b) / 2 ∈ Set.uIcc a b := by
  rw [Set.mem_uIcc]
  obtain h | h := le_total a b
  · exact Or.inl ⟨by linarith, by linarith⟩
  · exact Or.inr ⟨by linarith, by linarith⟩

/-- Strictly between two points that are not the same. -/
theorem half_between (h : a ≠ b) : min a b < (a + b) / 2 ∧ (a + b) / 2 < max a b := by
  obtain h | h := lt_or_gt_of_ne h
  · rw [min_eq_left h.le, max_eq_right h.le]
    constructor <;> linarith
  · rw [min_eq_right h.le, max_eq_left h.le]
    constructor <;> linarith

/-- After `n` halvings the bracket that is left has the size of the first one divided by `2 ^ n`, and
lies inside it. -/
theorem Halved.exact {f : Exact → Option Exact} (h : Halved f tolerance n a b low' high') :
    ∃ c d : ℚ, low' = c ∧ high' = d ∧ |d - c| = |b - a| / 2 ^ n ∧
      Set.uIcc c d ⊆ Set.uIcc a b := by
  generalize hlow : (a : Exact) = low at h
  generalize hhigh : (b : Exact) = high at h
  induction h generalizing a b with
  | start => exact ⟨a, b, hlow.symm, hhigh.symm, by simp, subset_rfl⟩
  | lower _ _ _ _ ih =>
    subst hlow hhigh
    obtain ⟨c, d, hc, hd, hsize, hinside⟩ := ih rfl (Exact.midpoint_finite a b).symm
    refine ⟨c, d, hc, hd, ?_, hinside.trans
      (Set.uIcc_subset_uIcc Set.left_mem_uIcc (half_mem_uIcc a b))⟩
    rw [hsize, show (a + b) / 2 - a = (b - a) / 2 by ring, abs_div, abs_of_pos (two_pos (α := ℚ)),
      div_div, pow_succ']
  | upper _ _ _ _ ih =>
    subst hlow hhigh
    obtain ⟨c, d, hc, hd, hsize, hinside⟩ := ih (Exact.midpoint_finite a b).symm rfl
    refine ⟨c, d, hc, hd, ?_, hinside.trans
      (Set.uIcc_subset_uIcc (half_mem_uIcc a b) Set.right_mem_uIcc)⟩
    rw [hsize, show b - (a + b) / 2 = (b - a) / 2 by ring, abs_div, abs_of_pos (two_pos (α := ℚ)),
      div_div, pow_succ']

/-- The midpoint of what is left lies strictly between the two points. -/
theorem Halved.midpoint_between {f : Exact → Option Exact}
    (h : Halved f tolerance n a b low' high') (hne : a ≠ b) :
    ∃ c : ℚ, midpoint low' high' = c ∧ min a b < c ∧ c < max a b := by
  obtain ⟨c, d, rfl, rfl, hsize, hinside⟩ := h.exact
  have hsplit : c ≠ d := by
    rintro rfl
    have hpositive : 0 < |b - a| / 2 ^ n := by
      have := abs_pos.mpr (sub_ne_zero.mpr hne.symm)
      positivity
    rw [← hsize, sub_self, abs_zero] at hpositive
    exact lt_irrefl _ hpositive
  obtain ⟨hlow, hhigh⟩ := half_between hsplit
  obtain ⟨hleast, hgreatest⟩ := Set.uIcc_subset_uIcc_iff_le.mp hinside
  exact ⟨_, Exact.midpoint_finite c d, lt_of_le_of_lt hleast hlow, hhigh.trans_le hgreatest⟩

/-! ## The root -/

/-- A root that bisection finds lies strictly between the two points. -/
theorem bisect_between (h : bisect (finitePart f) a b limits = some m) :
    ∃ c : ℚ, m = c ∧ min a b < c ∧ c < max a b := by
  obtain ⟨hsep, k, -, low', high', hrun, rfl, -⟩ := bisect_eq_some h
  exact hrun.midpoint_between (separates_iff_exact.mp hsep).ne

/-- Bisection gives nothing exactly if the two values are not rational numbers of opposite signs, or if
a midpoint without a residual comes before one that is accepted. Otherwise it gives a point strictly
between the two. The residual there is below the tolerance, or it was at none of the midpoints and the
point is the midpoint of the bracket that is left after all halvings. -/
theorem bisect_exact (f : Exact → Exact) (a b : ℚ) (limits : BisectionLimits Exact) :
    (bisect (finitePart f) a b limits = none ↔
      ¬ OppositeSigns f a b ∨ MeetsGap (finitePart f) limits a b) ∧
    ∀ m, bisect (finitePart f) a b limits = some m → ∃ c : ℚ, m = c ∧ min a b < c ∧ c < max a b ∧
      (Confirms (finitePart f) limits.tolerance c ∨
        ∃ low high : ℚ,
          Halved (finitePart f) limits.tolerance limits.maxIterations a b low high ∧
          c = (low + high) / 2 ∧ |high - low| = |b - a| / 2 ^ limits.maxIterations ∧
          ∃ y z : ℚ, f low = y ∧ f high = z ∧ (y < 0 ↔ ¬ z < 0)) := by
  refine ⟨by rw [bisect_eq_none_iff, separates_iff_exact], fun m hm => ?_⟩
  obtain ⟨c, rfl, hlow, hhigh⟩ := bisect_between hm
  refine ⟨c, rfl, hlow, hhigh, ?_⟩
  obtain ⟨hsep, k, -, low', high', hrun, hmid, haccepted | rfl⟩ := bisect_eq_some hm
  · exact Or.inl haccepted
  · have hleft := hrun.brackets hsep.brackets
    obtain ⟨low, high, rfl, rfl, hsize, -⟩ := hrun.exact
    rw [Exact.midpoint_finite] at hmid
    exact Or.inr ⟨low, high, hrun, Exact.finite.inj hmid, hsize, brackets_iff_exact.mp hleft⟩

/-- With a single halving, which accepts nothing, the midpoint of the upper half is left. -/
example : bisect (finitePart fun x : Exact => x - .finite (7 / 10)) (.finite 0) (.finite 1)
    ⟨.finite 0, 1⟩ = some (.finite (3 / 4)) := by
  decide +kernel

end AnswerCheck.Search
