import AnswerCheck.Answer.Verification
import AnswerCheck.Proofs.Decimal.Exact
import AnswerCheck.Proofs.Decimal.Negation
import AnswerCheck.Proofs.Search.Halving
import AnswerCheck.Proofs.Spelling.Meaning
import AnswerCheck.Proofs.Text.Splitting

/-! # The sign of a residual does not matter

A residual and its negation are searched in lockstep. Zero is not negative in either of them, so only
numbers that are not zero change their sign; but zeros are sorted out before two signs are compared,
and a midpoint with the residual zero is accepted under any tolerance above zero.
-/

set_option autoImplicit false

namespace AnswerCheck.Search

section Lockstep

variable {α : Type} [Scalar α]

/-- Two residuals of the same magnitude. They are zero both or neither, and negative in turn. -/
structure Mirrored (y z : α) : Prop where
  abs_less (t : α) : less (Scalar.abs z) t = less (Scalar.abs y) t
  isZero_eq : isZero z = isZero y
  isNegative_eq (hne : isZero y = false) : isNegative z = !isNegative y

/-- The residuals are finite at the same points and mirrored there. -/
def Mirrors (f g : α → Option α) : Prop :=
  ∀ x, f x = none ∧ g x = none ∨ ∃ y z, f x = some y ∧ g x = some z ∧ Mirrored y z

/-- A midpoint where the residual is zero is accepted. -/
def AcceptsZeros (f : α → Option α) (tolerance : α) : Prop :=
  ∀ x y, f x = some y → isZero y = true → less (Scalar.abs y) tolerance = true

variable {f g : α → Option α}

/-- The two runs halve to the same side, as the sign at the lower end is mirrored as well. -/
theorem Mirrors.halve_eq (h : Mirrors f g) {tolerance : α} (hzeros : AcceptsZeros f tolerance)
    (n : Nat) (low high : α) (lowNegative : Bool) :
    halve g tolerance n low high (!lowNegative) = halve f tolerance n low high lowNegative := by
  induction n generalizing low high lowNegative with
  | zero => rfl
  | succ n ih =>
    simp only [halve]
    obtain ⟨hy, hz⟩ | ⟨y, z, hy, hz, hyz⟩ := h (midpoint low high)
    · rw [hy, hz]
    · simp only [hy, hz, hyz.abs_less]
      by_cases hsmall : less (Scalar.abs y) tolerance = true
      · rw [if_pos hsmall, if_pos hsmall]
      · have hne : isZero y = false :=
          Bool.eq_false_iff.mpr fun hzero => hsmall (hzeros _ y hy hzero)
        rw [if_neg hsmall, if_neg hsmall, hyz.isNegative_eq hne, Bool.not_bne_not, ih, ih]

theorem Mirrored.signs_eq {y y' z z' : α} (h : Mirrored y z) (h' : Mirrored y' z')
    (hne : isZero y = false) (hne' : isZero y' = false) :
    (isNegative z == isNegative z') = (isNegative y == isNegative y') := by
  rw [h.isNegative_eq hne, h'.isNegative_eq hne']
  simp

/-- Where both residuals are looked up at two points, mirrored values may be used instead. -/
theorem Mirrors.at_ends (h : Mirrors f g) (low high : α) {use use' : α → α → Option α}
    (huse : ∀ y y' z z', Mirrored y z → Mirrored y' z' → use' z z' = use y y') :
    (match g low, g high with | some z, some z' => use' z z' | _, _ => none) =
      match f low, f high with | some y, some y' => use y y' | _, _ => none := by
  obtain ⟨hy, hz⟩ | ⟨y, z, hy, hz, hyz⟩ := h low
  · rw [hy, hz]
  · obtain ⟨hy', hz'⟩ | ⟨y', z', hy', hz', hyz'⟩ := h high
    · rw [hy, hz, hy', hz']
    · rw [hy, hz, hy', hz']
      exact huse y y' z z' hyz hyz'

theorem Mirrors.bisect_eq (h : Mirrors f g) {limits : BisectionLimits α}
    (hzeros : AcceptsZeros f limits.tolerance) (low high : α) :
    bisect g low high limits = bisect f low high limits := by
  refine h.at_ends low high fun y y' z z' hyz hyz' => ?_
  rw [hyz.isZero_eq, hyz'.isZero_eq]
  cases hne : isZero y with
  | true => rfl
  | false =>
    cases hne' : isZero y' with
    | true => rfl
    | false => rw [hyz.signs_eq hyz' hne hne', hyz.isNegative_eq hne, h.halve_eq hzeros]

theorem Mirrors.cellRoot?_eq (h : Mirrors f g) {limits : BisectionLimits α}
    (hzeros : AcceptsZeros f limits.tolerance) (low high : α) :
    cellRoot? g limits low high = cellRoot? f limits low high := by
  refine h.at_ends low high fun y y' z z' hyz hyz' => ?_
  rw [hyz.isZero_eq, hyz'.isZero_eq]
  cases hne : isZero y with
  | true => rfl
  | false =>
    cases hne' : isZero y' with
    | true => rfl
    | false => rw [bne, bne, hyz.signs_eq hyz' hne hne', h.bisect_eq hzeros]

theorem Mirrors.scan_eq (h : Mirrors f g) {options : ScanOptions α}
    (hzeros : AcceptsZeros f options.bisection.tolerance) (candidates : List α) :
    scan g candidates options = scan f candidates options := by
  simp only [scan, gridRoots, h.cellRoot?_eq hzeros]

theorem Mirrors.accepted_eq (h : Mirrors f g) (candidates : List α) (tolerance : α) :
    accepted g candidates tolerance = accepted f candidates tolerance := by
  refine List.filter_congr fun x _ => ?_
  obtain ⟨hy, hz⟩ | ⟨y, z, hy, hz, hyz⟩ := h x
  · rw [hy, hz]
  · simp only [hy, hz, hyz.abs_less]

end Lockstep

/-! ## Residuals in floating point -/

open Binary64

theorem isZero_iff_place {y : Float} (hy : y.isFinite = true) :
    isZero y = true ↔ place (unpacked y) = 0 :=
  beq_iff (y := 0) (isNaN_of_isFinite hy) rfl

theorem isNegative_iff_place {y : Float} (hy : y.isFinite = true) :
    isNegative y = true ↔ place (unpacked y) < 0 := by
  have h := lt_iff (x := y) (y := 0) (isNaN_of_isFinite hy) rfl
  exact decide_eq_true_iff.trans h

theorem mirrored_neg {y : Float} (hy : y.isFinite = true) : Mirrored y (-y) where
  abs_less t := by rw [show Scalar.abs (-y) = (-y).abs from rfl, abs_neg_eq]; rfl
  isZero_eq := by
    rw [Bool.eq_iff_iff, isZero_iff_place hy, isZero_iff_place ((isFinite_neg y).trans hy), place_neg,
      Int.neg_eq_zero]
  isNegative_eq hne := by
    have hplace : place (unpacked y) ≠ 0 :=
      fun hzero => Bool.eq_false_iff.mp hne ((isZero_iff_place hy).mpr hzero)
    rw [Bool.eq_iff_iff, isNegative_iff_place ((isFinite_neg y).trans hy), place_neg, Bool.not_eq_true',
      Bool.eq_false_iff, Ne, isNegative_iff_place hy]
    omega

theorem mirrored_of_sameUpToZero {y z : Float} (hy : y.isFinite = true) (h : SameUpToZero z (-y)) :
    Mirrored y z where
  abs_less t := (h.congr (f := fun z => less (Scalar.abs z) t) rfl).trans ((mirrored_neg hy).abs_less t)
  isZero_eq := (h.congr (f := isZero) (by decide +kernel)).trans (mirrored_neg hy).isZero_eq
  isNegative_eq hne :=
    (h.congr (f := isNegative) (by decide +kernel)).trans ((mirrored_neg hy).isNegative_eq hne)

theorem mirrors_of_sameUpToZero {f g : Float → Float} (h : ∀ x, SameUpToZero (g x) (-(f x))) :
    Mirrors (finitePart f) (finitePart g) := by
  intro x
  have hfinite : (g x).isFinite = (f x).isFinite :=
    (isFinite_of_sameUpToZero (h x)).trans (isFinite_neg (f x))
  cases hy : (f x).isFinite with
  | true =>
    exact Or.inr ⟨f x, g x, if_pos hy, if_pos (hfinite.trans hy), mirrored_of_sameUpToZero hy (h x)⟩
  | false =>
    exact Or.inl ⟨if_neg (by simp [Scalar.isFinite, hy]),
      if_neg (by simp [Scalar.isFinite, hfinite, hy])⟩

theorem acceptsZeros_of_pos (f : Float → Option Float) {tolerance : Float} (h : 0 < tolerance) :
    AcceptsZeros f tolerance :=
  fun _ _ _ hzero => decide_eq_true (abs_lt_of_beq_zero hzero h)

/-! ## Searches -/

/-- Bisection, scans and the check of candidates do not tell the two residuals apart. -/
structure SameSearch (f g : Float → Option Float) : Prop where
  bisect_eq (low high : Float) (limits : BisectionLimits Float) (htolerance : 0 < limits.tolerance) :
    bisect g low high limits = bisect f low high limits
  scan_eq (candidates : List Float) (options : ScanOptions Float)
    (htolerance : 0 < options.bisection.tolerance) :
    scan g candidates options = scan f candidates options
  accepted_eq (candidates : List Float) (tolerance : Float) :
    accepted g candidates tolerance = accepted f candidates tolerance

theorem Mirrors.sameSearch {f g : Float → Option Float} (h : Mirrors f g) : SameSearch f g where
  bisect_eq low high _ htolerance := h.bisect_eq (acceptsZeros_of_pos f htolerance) low high
  scan_eq candidates _ htolerance := h.scan_eq (acceptsZeros_of_pos f htolerance) candidates
  accepted_eq := h.accepted_eq

/-- Exchanging the sides of an equation negates its residual, up to the sign of zero. -/
theorem residual_swap (a b : Expr) (x : Float) :
    SameUpToZero (Equation.residual ⟨b, a⟩ x) (-Equation.residual ⟨a, b⟩ x) := by
  have hnan : SameUpToZero (0.0 / 0.0) (-(0.0 / 0.0)) := by rfl
  simp only [Equation.residual, Bool.and_comm (b.value x).isFinite]
  split
  · exact sub_swap (a.value x) (b.value x)
  · exact hnan

/-! ## Sides of an equation -/

theorem sideText_blanks_around {before after : List Char} (hbefore : ∀ c ∈ before, Text.isBlank c = true)
    (hafter : ∀ c ∈ after, Text.isBlank c = true) (s : List Char) :
    sideText (before ++ s ++ after) = sideText s := by
  have hplain {t : List Char} (ht : ∀ c ∈ t, Text.isBlank c = true) :
      ∀ c ∈ t.map plainMinus, Text.isBlank c = true := by
    rw [List.forall_mem_map]
    intro c hc
    rw [Spelling.plainMinus_eq_self (p := Text.isBlank) (by decide) (ht c hc)]
    exact ht c hc
  rw [sideText, List.map_append, List.map_append, Text.trim_blanks_around (hplain hbefore) (hplain hafter),
    sideText]

theorem ofText_blanks_around {before after : List Char} (hbefore : ∀ c ∈ before, Text.isBlank c = true)
    (hafter : ∀ c ∈ after, Text.isBlank c = true) (s : List Char) :
    Expr.ofText (before ++ s ++ after) = Expr.ofText s := by
  simp only [Expr.ofText, sideText_blanks_around hbefore hafter]

theorem not_mem_of_ofText {s : List Char} {e : Expr} (h : Expr.ofText s = .ok e) : '=' ∉ s := by
  intro hmem
  have hplain := (Spelling.means_of_ofText h).1.not_mem (c := '=') rfl rfl rfl
  exact hplain (List.mem_map_of_mem (f := plainMinus) hmem)

/-- Two sides that can be read make an equation, with any blanks around the equals sign. -/
theorem ofText_joined {left right before after : List Char} {a b : Expr} (hleft : Expr.ofText left = .ok a)
    (hright : Expr.ofText right = .ok b) (hbefore : ∀ c ∈ before, Text.isBlank c = true)
    (hafter : ∀ c ∈ after, Text.isBlank c = true) :
    Equation.ofText (left ++ before ++ '=' :: (after ++ right)) = .ok ⟨a, b⟩ := by
  have hnone : ∀ c ∈ ([] : List Char), Text.isBlank c = true := by simp
  have hleft' : Expr.ofText (left ++ before) = .ok a :=
    (ofText_blanks_around hnone hbefore left).trans hleft
  have hright' : Expr.ofText (after ++ right) = .ok b := by
    rw [← List.append_nil (after ++ right), ofText_blanks_around hafter hnone, hright]
  rw [Equation.ofText, Text.splitOn_eq_pair.mpr
    ⟨rfl, not_mem_of_ofText hleft', not_mem_of_ofText hright'⟩]
  simp only [hleft', hright']
  rfl

/-- A residual and its negation are searched with the same results. So are an equation and the one
with its sides exchanged. -/
theorem search_ignores_sign :
    (∀ f : Float → Float, SameSearch (finitePart f) (finitePart fun x => -f x)) ∧
      ∀ (left right before after : List Char) (a b : Expr), Expr.ofText left = .ok a →
        Expr.ofText right = .ok b → (∀ c ∈ before, Text.isBlank c = true) →
        (∀ c ∈ after, Text.isBlank c = true) →
        ∃ e e', Equation.ofText (left ++ before ++ '=' :: (after ++ right)) = .ok e ∧
          Equation.ofText (right ++ before ++ '=' :: (after ++ left)) = .ok e' ∧
          SameSearch e.residual? e'.residual? := by
  constructor
  · intro f
    exact (mirrors_of_sameUpToZero fun x => SameUpToZero.refl (-f x)).sameSearch
  · intro left right before after a b hleft hright hbefore hafter
    exact ⟨⟨a, b⟩, ⟨b, a⟩, ofText_joined hleft hright hbefore hafter,
      ofText_joined hright hleft hbefore hafter, (mirrors_of_sameUpToZero (residual_swap a b)).sameSearch⟩

/-- The equations `x*x = 2` and `2 = x*x` have the same roots. -/
theorem search_ignores_sign_square :
    Expr.ofText "x*x".toList = .ok (.arith .mul .var .var) ∧
      Expr.ofText "2".toList = .ok (.number 2) ∧
      0 < Answer.VerifyOptions.standard.scan.bisection.tolerance ∧
      ∃ e e', Equation.ofText "x*x = 2".toList = .ok e ∧ Equation.ofText "2 = x*x".toList = .ok e' ∧
        ∀ candidates, scan e'.residual? candidates Answer.VerifyOptions.standard.scan =
          scan e.residual? candidates Answer.VerifyOptions.standard.scan := by
  have hleft : Expr.ofText "x*x".toList = .ok (.arith .mul .var .var) := rfl
  have hright : Expr.ofText "2".toList = .ok (.number 2) := rfl
  have htolerance : 0 < Answer.VerifyOptions.standard.scan.bisection.tolerance := by decide +kernel
  have hblank : ∀ c ∈ [' '], Text.isBlank c = true := List.forall_mem_singleton.mpr rfl
  obtain ⟨e, e', he, he', hsame⟩ :=
    search_ignores_sign.2 _ _ [' '] [' '] _ _ hleft hright hblank hblank
  exact ⟨hleft, hright, htolerance, e, e', he, he',
    fun candidates => hsame.scan_eq candidates _ htolerance⟩

end AnswerCheck.Search
