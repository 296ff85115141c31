import AnswerCheck.Search.Bisection

/-! # What halving keeps

A bracket is halved as long as its midpoint has a residual that is not small enough. `Halved` is the
relation between a bracket and what is left of it after so many halvings; it keeps the sign change.
An answer of `halve` is either a midpoint that was accepted on the way, or the midpoint of the
bracket that is left when all halvings are used up. It has no answer exactly if a midpoint without a
residual comes first.
-/

set_option autoImplicit false

namespace AnswerCheck.Search

variable {α : Type} [Scalar α]

/-- The residual where it is finite. -/
def finitePart (f : α → α) (x : α) : Option α :=
  if Scalar.isFinite (f x) then some (f x) else none

theorem finitePart_eq_some {f : α → α} {x y : α} :
    finitePart f x = some y ↔ f x = y ∧ Scalar.isFinite y = true := by
  unfold finitePart
  split
  · next h =>
    rw [Option.some.injEq]
    exact ⟨fun heq => ⟨heq, heq ▸ h⟩, fun heq => heq.1⟩
  · next h =>
    refine iff_of_false (by simp) ?_
    rintro ⟨rfl, hy⟩
    exact h hy

/-- The residual is finite at both points and negative at exactly one of them. -/
def Brackets (f : α → Option α) (low high : α) : Prop :=
  ∃ y z, f low = some y ∧ f high = some z ∧ isNegative y ≠ isNegative z

/-- The residual at a point is finite, and its magnitude is below the tolerance. -/
def Confirms (f : α → Option α) (tolerance x : α) : Prop :=
  ∃ y, f x = some y ∧ less (Scalar.abs y) tolerance = true

/-- The residual is finite at both points, zero at neither, and negative at exactly one of them. -/
def Separates (f : α → Option α) (low high : α) : Prop :=
  ∃ y z, f low = some y ∧ f high = some z ∧ isZero y = false ∧ isZero z = false ∧
    isNegative y ≠ isNegative z

/-- `Halved f tolerance n low high low' high'`: after `n` halvings of the bracket from `low` to
`high` the bracket from `low'` to `high'` is left. No midpoint on the way was accepted. -/
inductive Halved (f : α → Option α) (tolerance : α) : Nat → α → α → α → α → Prop
  | start (low high : α) : Halved f tolerance 0 low high low high
  | lower {n : Nat} {low high low' high' y : α} (hy : f (midpoint low high) = some y)
      (hlarge : less (Scalar.abs y) tolerance = false) (hsign : Brackets f low (midpoint low high))
      (more : Halved f tolerance n low (midpoint low high) low' high') :
      Halved f tolerance (n + 1) low high low' high'
  | upper {n : Nat} {low high low' high' y : α} (hy : f (midpoint low high) = some y)
      (hlarge : less (Scalar.abs y) tolerance = false) (hsign : Brackets f (midpoint low high) high)
      (more : Halved f tolerance n (midpoint low high) high low' high') :
      Halved f tolerance (n + 1) low high low' high'

/-- What is left of a bracket is a bracket. -/
theorem Halved.brackets {f : α → Option α} {tolerance low high low' high' : α} {n : Nat}
    (h : Halved f tolerance n low high low' high') (hsign : Brackets f low high) :
    Brackets f low' high' := by
  induction h with
  | start => exact hsign
  | lower _ _ hlower _ ih => exact ih hlower
  | upper _ _ hupper _ ih => exact ih hupper

/-- Halving meets a midpoint without a residual, as far as the limits let it go. -/
def MeetsGap (f : α → Option α) (limits : BisectionLimits α) (low high : α) : Prop :=
  ∃ n < limits.maxIterations, ∃ low' high',
    Halved f limits.tolerance n low high low' high' ∧ f (midpoint low' high') = none

variable {f : α → Option α} {tolerance low high low' high' y z m : α} {limits : BisectionLimits α}
  {n k : Nat}

/-! ## One halving -/

theorem halve_gap {lowNegative : Bool} (hmid : f (midpoint low high) = none) :
    halve f tolerance (n + 1) low high lowNegative = none := by
  rw [halve, hmid]

theorem halve_accepted {lowNegative : Bool} (h : Confirms f tolerance (midpoint low high)) :
    halve f tolerance (n + 1) low high lowNegative = some (midpoint low high) := by
  obtain ⟨y, hy, hsmall⟩ := h
  rw [halve, hy]
  exact if_pos hsmall

/-- The sign at the midpoint decides which half has the sign change. -/
theorem Brackets.split (h : Brackets f low high) (hmid : f (midpoint low high) = some y) :
    Brackets f low (midpoint low high) ∨ Brackets f (midpoint low high) high := by
  obtain ⟨x, z, hlow, hhigh, hne⟩ := h
  by_cases hsame : isNegative x = isNegative y
  · exact Or.inr ⟨y, z, hmid, hhigh, hsame ▸ hne⟩
  · exact Or.inl ⟨x, y, hlow, hmid, hsame⟩

theorem halve_lower (hlow : f low = some y) (hmid : f (midpoint low high) = some z)
    (hlarge : less (Scalar.abs z) tolerance = false) (hlower : Brackets f low (midpoint low high)) :
    halve f tolerance (n + 1) low high (isNegative y) =
      halve f tolerance n low (midpoint low high) (isNegative y) := by
  obtain ⟨y', z', hlow', hmid', hne⟩ := hlower
  obtain rfl := Option.some.inj (hlow.symm.trans hlow')
  obtain rfl := Option.some.inj (hmid.symm.trans hmid')
  simp only [halve, hmid]
  rw [if_neg (by simp [hlarge]), if_pos (by simpa using hne)]

theorem halve_upper (hlow : f low = some y) (hmid : f (midpoint low high) = some z)
    (hlarge : less (Scalar.abs z) tolerance = false) (hsign : Brackets f low high)
    (hupper : Brackets f (midpoint low high) high) :
    halve f tolerance (n + 1) low high (isNegative y) =
      halve f tolerance n (midpoint low high) high (isNegative z) := by
  obtain ⟨y', w, hlow', hhigh, hne⟩ := hsign
  obtain ⟨z', w', hmid', hhigh', hne'⟩ := hupper
  obtain rfl := Option.some.inj (hlow.symm.trans hlow')
  obtain rfl := Option.some.inj (hmid.symm.trans hmid')
  obtain rfl := Option.some.inj (hhigh.symm.trans hhigh')
  have hsame : isNegative y = isNegative z := (Bool.eq_not.mpr hne).trans (Bool.eq_not.mpr hne').symm
  simp only [halve, hmid]
  rw [if_neg (by simp [hlarge]), if_neg (by simp [hsame])]

/-! ## All halvings -/

/-- After some halvings the rest of them goes on with the bracket that is left. -/
theorem Halved.halve_eq (h : Halved f tolerance k low high low' high') (hsign : Brackets f low high)
    (hlow : f low = some y) (n : Nat) :
    ∃ w : α, halve f tolerance (n + k) low high (isNegative y) =
      halve f tolerance n low' high' (isNegative w) := by
  induction h generalizing y with
  | start => exact ⟨y, rfl⟩
  | lower hmid hlarge hlower _ ih =>
    obtain ⟨w, hrest⟩ := ih hlower hlow
    exact ⟨w, (halve_lower hlow hmid hlarge hlower).trans hrest⟩
  | upper hmid hlarge hupper _ ih =>
    obtain ⟨w, hrest⟩ := ih hupper hmid
    exact ⟨w, (halve_upper hlow hmid hlarge hsign hupper).trans hrest⟩

/-- A bracket is halved until a midpoint has no residual or is accepted, or as often as asked for. -/
theorem Brackets.exists_halved (hsign : Brackets f low high) (tolerance : α) (n : Nat) :
    (∃ k < n, ∃ low' high', Halved f tolerance k low high low' high' ∧
      (f (midpoint low' high') = none ∨ Confirms f tolerance (midpoint low' high'))) ∨
    ∃ low' high', Halved f tolerance n low high low' high' := by
  induction n generalizing low high with
  | zero => exact Or.inr ⟨low, high, .start low high⟩
  | succ n ih =>
    cases hmid : f (midpoint low high) with
    | none => exact Or.inl ⟨0, n.succ_pos, low, high, .start low high, Or.inl hmid⟩
    | some w =>
      cases hsmall : less (Scalar.abs w) tolerance with
      | true => exact Or.inl ⟨0, n.succ_pos, low, high, .start low high, Or.inr ⟨w, hmid, hsmall⟩⟩
      | false =>
        obtain hlower | hupper := hsign.split hmid
        · obtain ⟨k, hk, low', high', hrun, hstop⟩ | ⟨low', high', hrun⟩ := ih hlower
          · exact Or.inl ⟨k + 1, Nat.succ_lt_succ hk, low', high', .lower hmid hsmall hlower hrun, hstop⟩
          · exact Or.inr ⟨low', high', .lower hmid hsmall hlower hrun⟩
        · obtain ⟨k, hk, low', high', hrun, hstop⟩ | ⟨low', high', hrun⟩ := ih hupper
          · exact Or.inl ⟨k + 1, Nat.succ_lt_succ hk, low', high', .upper hmid hsmall hupper hrun, hstop⟩
          · exact Or.inr ⟨low', high', .upper hmid hsmall hupper hrun⟩

/-- Halving stops where the midpoint of what is left has no residual or is accepted. -/
theorem Halved.halve_stop (h : Halved f tolerance k low high low' high') (hsign : Brackets f low high)
    (hlow : f low = some y) (hk : k < n) :
    (f (midpoint low' high') = none → halve f tolerance n low high (isNegative y) = none) ∧
      (Confirms f tolerance (midpoint low' high') →
        halve f tolerance n low high (isNegative y) = some (midpoint low' high')) := by
  obtain ⟨rest, rfl⟩ : ∃ rest, n = rest + 1 + k := ⟨n - k - 1, by omega⟩
  obtain ⟨w, hrest⟩ := h.halve_eq hsign hlow (rest + 1)
  rw [hrest]
  exact ⟨halve_gap, halve_accepted⟩

/-- Halving a bracket gives nothing exactly if a midpoint on the way has no residual. -/
theorem halve_eq_none_iff (hlow : f low = some y) (hsign : Brackets f low high) :
    halve f tolerance n low high (isNegative y) = none ↔
      ∃ k < n, ∃ low' high', Halved f tolerance k low high low' high' ∧
        f (midpoint low' high') = none := by
  constructor
  · intro hnone
    obtain ⟨k, hk, low', high', hrun, hgap | haccepted⟩ | ⟨low', high', hrun⟩ :=
      hsign.exists_halved tolerance n
    · exact ⟨k, hk, low', high', hrun, hgap⟩
    · rw [(hrun.halve_stop hsign hlow hk).2 haccepted] at hnone
      cases hnone
    · obtain ⟨w, hrest⟩ := hrun.halve_eq hsign hlow 0
      rw [Nat.zero_add, hnone, halve] at hrest
      cases hrest
  · rintro ⟨k, hk, low', high', hrun, hgap⟩
    exact (hrun.halve_stop hsign hlow hk).1 hgap

/-- A midpoint is the answer of halving a bracket when it was accepted on the way, or when nothing
was accepted and it is the midpoint of what is left. -/
theorem halve_eq_some (hlow : f low = some y) (hsign : Brackets f low high)
    (h : halve f tolerance n low high (isNegative y) = some m) :
    ∃ k ≤ n, ∃ low' high', Halved f tolerance k low high low' high' ∧ m = midpoint low' high' ∧
      (Confirms f tolerance m ∨ k = n) := by
  obtain ⟨k, hk, low', high', hrun, hgap | haccepted⟩ | ⟨low', high', hrun⟩ :=
    hsign.exists_halved tolerance n
  · rw [(hrun.halve_stop hsign hlow hk).1 hgap] at h
    cases h
  · rw [(hrun.halve_stop hsign hlow hk).2 haccepted, Option.some.injEq] at h
    exact ⟨k, Nat.le_of_lt hk, low', high', hrun, h.symm, Or.inl (h ▸ haccepted)⟩
  · obtain ⟨w, hrest⟩ := hrun.halve_eq hsign hlow 0
    rw [Nat.zero_add, h, halve, Option.some.injEq] at hrest
    exact ⟨n, Nat.le_refl n, low', high', hrun, hrest, Or.inr rfl⟩

/-! ## Bisection -/

theorem Separates.brackets (h : Separates f low high) : Brackets f low high := by
  obtain ⟨y, z, hlow, hhigh, -, -, hne⟩ := h
  exact ⟨y, z, hlow, hhigh, hne⟩

theorem bisect_of_separates (limits : BisectionLimits α) (h : Separates f low high) :
    ∃ y, f low = some y ∧ bisect f low high limits =
      halve f limits.tolerance limits.maxIterations low high (isNegative y) := by
  obtain ⟨y, z, hlow, hhigh, hy, hz, hne⟩ := h
  refine ⟨y, hlow, ?_⟩
  rw [bisect, hlow, hhigh]
  exact if_neg (by simp [hy, hz, hne])

theorem bisect_of_not_separates (h : ¬ Separates f low high) : bisect f low high limits = none := by
  unfold bisect
  split
  · next y z hlow hhigh =>
    refine if_pos (Classical.byContradiction fun hguard => h ?_)
    simp only [Bool.or_eq_true, beq_iff_eq, not_or, Bool.not_eq_true] at hguard
    exact ⟨y, z, hlow, hhigh, hguard.1.1, hguard.1.2, hguard.2⟩
  · rfl

/-- Bisection gives nothing exactly for points that the residual does not separate, and where halving
meets a midpoint without a residual. -/
theorem bisect_eq_none_iff :
    bisect f low high limits = none ↔ ¬ Separates f low high ∨ MeetsGap f limits low high := by
  by_cases hsep : Separates f low high
  · obtain ⟨y, hlow, hbisect⟩ := bisect_of_separates limits hsep
    rw [hbisect, halve_eq_none_iff hlow hsep.brackets, or_iff_right (not_not_intro hsep), MeetsGap]
  · exact iff_of_true (bisect_of_not_separates hsep) (Or.inl hsep)

/-- A root that bisection finds is the midpoint of what is left of the bracket after some halvings:
it was accepted, or all halvings are used up. -/
theorem bisect_eq_some (h : bisect f low high limits = some m) :
    Separates f low high ∧ ∃ k ≤ limits.maxIterations, ∃ low' high',
      Halved f limits.tolerance k low high low' high' ∧ m = midpoint low' high' ∧
        (Confirms f limits.tolerance m ∨ k = limits.maxIterations) := by
  by_cases hsep : Separates f low high
  · obtain ⟨y, hlow, hbisect⟩ := bisect_of_separates limits hsep
    exact ⟨hsep, halve_eq_some hlow hsep.brackets (hbisect.symm.trans h)⟩
  · rw [bisect_of_not_separates hsep] at h
    cases h

end AnswerCheck.Search
