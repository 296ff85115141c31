import AnswerCheck.Proofs.Decimal.Value

/-! # Rounding to a decimal place

A decimal in units of a power of ten is its value divided by that unit and rounded to the nearest
integer. So what is known of rounding rational numbers holds of decimals, whatever their exponents.
-/

set_option autoImplicit false

namespace AnswerCheck.Decimal

/-! ## Rational numbers -/

/-- The integer nearest to a rational number that is not below zero. -/
def Tie.nearest (tie : Tie) (x : ℚ) : Nat :=
  if x - ⌊x⌋₊ < 1 / 2 then ⌊x⌋₊
  else if 1 / 2 < x - ⌊x⌋₊ then ⌊x⌋₊ + 1
  else
    match tie with
    | .awayFromZero => ⌊x⌋₊ + 1
    | .toEven => ⌊x⌋₊ + ⌊x⌋₊ % 2

variable {x : ℚ} {n : Nat} {tie : Tie} {d : Decimal} {k : Int}

theorem Tie.nearest_natCast (tie : Tie) (n : Nat) : tie.nearest n = n := by
  simp [nearest]

theorem Tie.nearest_cases (tie : Tie) (x : ℚ) :
    (tie.nearest x = ⌊x⌋₊ ∧ x - ⌊x⌋₊ ≤ 1 / 2) ∨ (tie.nearest x = ⌊x⌋₊ + 1 ∧ 1 / 2 ≤ x - ⌊x⌋₊) := by
  unfold nearest
  split
  · next h => exact Or.inl ⟨rfl, h.le⟩
  · next hlow =>
    split
    · next h => exact Or.inr ⟨rfl, h.le⟩
    · next hhigh =>
      cases tie with
      | awayFromZero => exact Or.inr ⟨rfl, not_lt.mp hlow⟩
      | toEven =>
        obtain heven | hodd := Nat.mod_two_eq_zero_or_one ⌊x⌋₊
        · exact Or.inl ⟨by simp only [heven, Nat.add_zero], not_lt.mp hhigh⟩
        · exact Or.inr ⟨by simp only [hodd], not_lt.mp hlow⟩

theorem Tie.abs_nearest_sub_le (tie : Tie) (hx : 0 ≤ x) : |(tie.nearest x : ℚ) - x| ≤ 1 / 2 := by
  have hlow : (⌊x⌋₊ : ℚ) ≤ x := Nat.floor_le hx
  have hhigh : x < ⌊x⌋₊ + 1 := Nat.lt_floor_add_one x
  rw [abs_le]
  obtain ⟨h, hhalf⟩ | ⟨h, hhalf⟩ := tie.nearest_cases x
  · rw [h]
    constructor <;> linarith
  · rw [h]
    push_cast
    constructor <;> linarith

theorem Tie.floor_le_nearest (tie : Tie) (x : ℚ) : ⌊x⌋₊ ≤ tie.nearest x := by
  obtain ⟨h, -⟩ | ⟨h, -⟩ := tie.nearest_cases x <;> omega

theorem Tie.nearest_le (tie : Tie) (x : ℚ) : tie.nearest x ≤ ⌊x⌋₊ + 1 := by
  obtain ⟨h, -⟩ | ⟨h, -⟩ := tie.nearest_cases x <;> omega

theorem Tie.le_nearest (tie : Tie) (h : (n : ℚ) ≤ x) : n ≤ tie.nearest x :=
  (Nat.le_floor h).trans (tie.floor_le_nearest x)

theorem Tie.nearest_mono (tie : Tie) {y : ℚ} (h : x ≤ y) : tie.nearest x ≤ tie.nearest y := by
  have hx := tie.nearest_le x
  have hy := tie.floor_le_nearest y
  obtain hlt | heq := (Nat.floor_mono h).lt_or_eq
  · omega
  · have hcast : (⌊x⌋₊ : ℚ) = ⌊y⌋₊ := by rw [heq]
    obtain ⟨hdown, -⟩ | ⟨-, hhalf⟩ := tie.nearest_cases x
    · omega
    · obtain ⟨-, hhalf'⟩ | ⟨hup, -⟩ := tie.nearest_cases y
      · -- Neither is away from the tie, so both are at it.
        obtain rfl : x = y := by linarith
        exact le_rfl
      · omega

theorem Tie.nearest_eq (tie : Tie) (hx : 0 ≤ x) (h : |(n : ℚ) - x| < 1 / 2) : tie.nearest x = n := by
  have hnear := abs_le.mp (tie.abs_nearest_sub_le hx)
  have hlt := abs_lt.mp h
  have hlow : (n : ℚ) < tie.nearest x + 1 := by linarith
  have hhigh : (tie.nearest x : ℚ) < n + 1 := by linarith
  have hlow : n < tie.nearest x + 1 := by exact_mod_cast hlow
  have hhigh : tie.nearest x < n + 1 := by exact_mod_cast hhigh
  omega

theorem Tie.nearest_awayFromZero (x : ℚ) :
    Tie.awayFromZero.nearest x = if x - ⌊x⌋₊ < 1 / 2 then ⌊x⌋₊ else ⌊x⌋₊ + 1 := by
  unfold nearest
  split
  · rfl
  · split <;> rfl

theorem Tie.nearest_awayFromZero_eq_floor (hx : 0 ≤ x) :
    Tie.awayFromZero.nearest x = ⌊x + 1 / 2⌋₊ := by
  have hlow : (⌊x⌋₊ : ℚ) ≤ x := Nat.floor_le hx
  have hhigh : x < ⌊x⌋₊ + 1 := Nat.lt_floor_add_one x
  symm
  rw [Nat.floor_eq_iff (by linarith), nearest_awayFromZero]
  split
  · constructor <;> linarith
  · push_cast
    constructor <;> linarith

/-- Half a unit below an even integer both kinds of ties go up to it. -/
theorem Tie.nearest_eq_even_iff (tie : Tie) (heven : n % 2 = 0) (hx : 0 ≤ x) (hlt : x < n) :
    tie.nearest x = n ↔ (n : ℚ) - 1 / 2 ≤ x := by
  constructor
  · intro h
    have hnear := (abs_le.mp (tie.abs_nearest_sub_le hx)).2
    rw [h] at hnear
    linarith
  · intro hlow
    obtain ⟨m, rfl⟩ : ∃ m, n = m + 1 :=
      Nat.exists_eq_succ_of_ne_zero fun h => by
        rw [h, Nat.cast_zero] at hlt
        linarith
    push_cast at hlow hlt
    have hfloor : ⌊x⌋₊ = m := (Nat.floor_eq_iff hx).mpr ⟨by linarith, hlt⟩
    have hodd : m % 2 = 1 := by omega
    unfold nearest
    rw [hfloor, if_neg (by linarith)]
    split
    · rfl
    · cases tie with
      | awayFromZero => rfl
      | toEven => exact congrArg (m + ·) hodd

/-! ## Decimals -/

theorem roundDiv_eq_nearest (num : Nat) {den : Nat} (hden : 0 < den) (tie : Tie) :
    roundDiv num den tie = tie.nearest (num / den) := by
  have hpos : (0 : ℚ) < den := by exact_mod_cast hden
  have hfloor : ⌊(num : ℚ) / den⌋₊ = num / den := Nat.floor_div_eq_div num den
  have hrest : (num : ℚ) / den - (num / den : Nat) = (num % den : Nat) / den := by
    have hsplit : ((den * (num / den) + num % den : Nat) : ℚ) = num := by rw [Nat.div_add_mod]
    push_cast at hsplit
    rw [← hsplit]
    field_simp
    ring
  have hlow : (num % den : Nat) / (den : ℚ) < 1 / 2 ↔ 2 * (num % den) < den := by
    rw [div_lt_div_iff₀ hpos two_pos, one_mul, mul_comm]
    exact_mod_cast Iff.rfl
  have hhigh : 1 / 2 < (num % den : Nat) / (den : ℚ) ↔ den < 2 * (num % den) := by
    rw [div_lt_div_iff₀ two_pos hpos, one_mul, mul_comm]
    exact_mod_cast Iff.rfl
  cases tie <;> simp only [roundDiv, Tie.nearest, hfloor, hrest, hlow, hhigh]

theorem value_div_zpow (d : Decimal) (k : Int) :
    d.value / 10 ^ k = d.coefficient * 10 ^ (d.exponent - k) := by
  rw [value, mul_div_assoc, ← zpow_sub₀ (by norm_num)]

theorem inUnits_exact (hk : k ≤ d.exponent) (tie : Tie) : (d.inUnits k tie : ℚ) = d.value / 10 ^ k := by
  obtain ⟨n, hn⟩ : ∃ n : Nat, d.exponent - k = n := ⟨(d.exponent - k).toNat, by omega⟩
  rw [value_div_zpow, inUnits, if_pos hk, hn, Int.toNat_natCast, zpow_natCast, Nat.pow_eq]
  push_cast
  rfl

/-- A decimal in units of a power of ten is its value in that unit, rounded to an integer. -/
theorem inUnits_eq (d : Decimal) (k : Int) (tie : Tie) :
    d.inUnits k tie = tie.nearest (d.value / 10 ^ k) := by
  by_cases hk : k ≤ d.exponent
  · rw [← inUnits_exact hk tie, Tie.nearest_natCast]
  · obtain ⟨n, hn⟩ : ∃ n : Nat, k - d.exponent = n := ⟨(k - d.exponent).toNat, by omega⟩
    rw [value_div_zpow, inUnits, if_neg hk, hn, Int.toNat_natCast, Nat.pow_eq,
      roundDiv_eq_nearest _ (by positivity), show d.exponent - k = -(n : Int) by omega, zpow_neg,
      zpow_natCast, ← div_eq_mul_inv]
    push_cast
    rfl

/-! ## Significant digits -/

theorem zpow_le_value_iff (hd : d.coefficient ≠ 0) : (10 : ℚ) ^ k ≤ d.value ↔ k ≤ d.lead := by
  rw [lead_eq_log hd]
  exact_mod_cast Int.zpow_le_iff_le_log (b := 10) (by decide) (value_pos hd)

theorem value_lt_zpow_iff (hd : d.coefficient ≠ 0) : d.value < (10 : ℚ) ^ k ↔ d.lead < k := by
  rw [lead_eq_log hd]
  exact_mod_cast Int.lt_zpow_iff_log_lt (b := 10) (by decide) (value_pos hd)

theorem units_bounds (hd : d.coefficient ≠ 0) (n : Nat) :
    (10 : ℚ) ^ n ≤ d.value / 10 ^ (d.lead - n) ∧ d.value / 10 ^ (d.lead - n) < 10 ^ (n + 1) := by
  have hpow : (0 : ℚ) < 10 ^ (d.lead - n) := by positivity
  constructor
  · rw [le_div_iff₀ hpow, ← zpow_natCast, ← zpow_add₀ (by norm_num), zpow_le_value_iff hd]
    omega
  · rw [div_lt_iff₀ hpow, ← zpow_natCast, ← zpow_add₀ (by norm_num), value_lt_zpow_iff hd]
    push_cast
    omega

/-- What is rounded to a number of digits moves to the next power of ten from half a unit below it on,
wherever ties go. -/
theorem significant_eq (hd : d.coefficient ≠ 0) (n : Nat) (tie : Tie) :
    d.significant (n + 1) tie =
      if (10 : ℚ) ^ (n + 1) - 1 / 2 ≤ d.value / 10 ^ (d.lead - n) then ⟨10 ^ n, d.lead - n + 1⟩
      else ⟨tie.nearest (d.value / 10 ^ (d.lead - n)), d.lead - n⟩ := by
  obtain ⟨hlow, hhigh⟩ := units_bounds hd n
  have heven : 10 ^ (n + 1) % 2 = 0 := by
    rw [pow_succ]
    omega
  have hcarry := tie.nearest_eq_even_iff heven (le_trans (by positivity) hlow)
    (by exact_mod_cast hhigh)
  push_cast at hcarry
  have hplace : d.lead - ((n + 1 : Nat) : Int) + 1 = d.lead - n := by omega
  simp only [significant, hplace, inUnits_eq, Nat.pow_eq, Nat.add_sub_cancel, hcarry]

theorem significant_bounds (hd : d.coefficient ≠ 0) (n : Nat) (tie : Tie) :
    10 ^ n ≤ (d.significant (n + 1) tie).coefficient ∧
      (d.significant (n + 1) tie).coefficient < 10 ^ (n + 1) := by
  obtain ⟨hlow, hhigh⟩ := units_bounds hd n
  have hnonneg : 0 ≤ d.value / 10 ^ (d.lead - n) := le_trans (by positivity) hlow
  rw [significant_eq hd]
  split
  · exact ⟨le_rfl, Nat.pow_lt_pow_succ (by decide)⟩
  · next hbelow =>
    refine ⟨tie.le_nearest (by exact_mod_cast hlow), ?_⟩
    have hnear := (abs_le.mp (tie.abs_nearest_sub_le hnonneg)).2
    have hlt : (tie.nearest (d.value / 10 ^ (d.lead - n)) : ℚ) < (10 ^ (n + 1) : Nat) := by
      push_cast
      linarith
    exact_mod_cast hlt

theorem abs_significant_sub_le (hd : d.coefficient ≠ 0) (n : Nat) (tie : Tie) :
    |(d.significant (n + 1) tie).value - d.value| ≤ 1 / 2 * 10 ^ (d.lead - n) := by
  obtain ⟨hlow, hhigh⟩ := units_bounds hd n
  have hpow : (0 : ℚ) < 10 ^ (d.lead - n) := by positivity
  obtain ⟨x, hx⟩ : ∃ x, x = d.value / 10 ^ (d.lead - n) := ⟨_, rfl⟩
  have hvalue : d.value = x * 10 ^ (d.lead - n) := by rw [hx, div_mul_cancel₀ _ hpow.ne']
  have hscale (c : ℚ) (h : |c - x| ≤ 1 / 2) :
      |c * 10 ^ (d.lead - n) - d.value| ≤ 1 / 2 * 10 ^ (d.lead - n) := by
    rw [hvalue, ← sub_mul, abs_mul, abs_of_pos hpow]
    gcongr
  rw [← hx] at hlow hhigh
  rw [significant_eq hd, ← hx]
  split
  · next hcarry =>
    have hcoefficient : (⟨10 ^ n, d.lead - n + 1⟩ : Decimal).value = 10 ^ (n + 1) * 10 ^ (d.lead - n) := by
      rw [value, zpow_add_one₀ (by norm_num)]
      push_cast
      ring
    rw [hcoefficient]
    refine hscale _ ?_
    rw [abs_le]
    constructor <;> linarith
  · exact hscale _ (tie.abs_nearest_sub_le (le_trans (by positivity) hlow))

theorem significant_exponent (hd : d.coefficient ≠ 0) (n : Nat) (tie tie' : Tie) :
    (d.significant (n + 1) tie).exponent = (d.significant (n + 1) tie').exponent := by
  rw [significant_eq hd, significant_eq hd]
  split <;> rfl

/-- Rounding a number anew to the last place of its rounded value gives its digits, with ties as they
go then. -/
theorem inUnits_significant (hd : d.coefficient ≠ 0) (n : Nat) (tie tie' : Tie) :
    d.inUnits (d.significant (n + 1) tie).exponent tie' = (d.significant (n + 1) tie').coefficient := by
  obtain ⟨hlow, hhigh⟩ := units_bounds hd n
  rw [significant_eq hd, significant_eq hd, inUnits_eq]
  split
  · next hcarry =>
    -- One place further to the left the number is less than half a unit below the power of ten.
    simp only
    have hunits : d.value / 10 ^ (d.lead - n + 1) = d.value / 10 ^ (d.lead - n) / 10 := by
      rw [zpow_add_one₀ (by norm_num), div_div]
    rw [pow_succ] at hcarry hhigh
    have hpositive := value_pos hd
    rw [hunits]
    refine tie'.nearest_eq (by positivity) ?_
    push_cast
    rw [abs_lt]
    constructor <;> linarith
  · rfl

end AnswerCheck.Decimal
