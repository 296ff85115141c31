import AnswerCheck.Decimal.OfFloat
import AnswerCheck.Proofs.Decimal.Value

/-! # The exact value of a number

A finite number is a rational number: its mantissa times a power of two, with its sign. The decimal
made of the fields that its bits show is the magnitude of that rational number.
-/

set_option autoImplicit false

namespace AnswerCheck.Binary64

open Float.Model
open Float.Model.UnpackedFloat hiding pack unpack

/-! ## The fields of a number -/

theorem pack_unpacked (x : Float) : Float.ofModel (Float.Model.pack (unpacked x)) = x := by
  have h := Float.ofBits_toBits x
  rwa [show Float.ofBits x.toBits = Float.ofModel (Float.Model.pack (unpacked x)) from rfl] at h

theorem scale_eq (x : Float) :
    x.toBits.toNat / Nat.pow 2 52 % Nat.pow 2 11 = (exponentOf x.toModel.toBits.toBitVec).toNat := by
  rw [exponentOf, unpackExponent_def, BitVec.extractLsb'_toNat, Nat.shiftRight_eq_div_pow]
  rfl

theorem fraction_eq (x : Float) :
    x.toBits.toNat % Nat.pow 2 52 = (mantissaOf x.toModel.toBits.toBitVec).toNat := by
  rw [mantissaOf, unpackMantissa_def, BitVec.extractLsb'_toNat, Nat.shiftRight_zero]
  rfl

def signFrom (negative : Bool) : Sign :=
  if negative then .negative else .positive

theorem sign_eq (x : Float) :
    Sign.ofBitVec (signOf x.toModel.toBits.toBitVec) = signFrom (Decimal.isNegative x) := by
  have hbit : (signOf x.toModel.toBits.toBitVec).toNat = x.toBits.toNat / 2 ^ 63 % 2 := by
    rw [signOf, unpackSign_def, BitVec.extractLsb'_toNat, Nat.shiftRight_eq_div_pow]
    rfl
  have hlt : x.toBits.toNat < 2 ^ 64 := x.toBits.toNat_lt
  rw [signFrom, Decimal.isNegative, Binary.signBit]
  by_cases hnegative : 0x8000000000000000 ≤ x.toBits.toNat
  · have hone : signOf x.toModel.toBits.toBitVec = 1#1 := by
      refine BitVec.eq_of_toNat_eq ?_
      rw [hbit]
      change _ = 1
      omega
    rw [hone]
    simp [hnegative]
    rfl
  · have hzero : signOf x.toModel.toBits.toBitVec = 0#1 := by
      refine BitVec.eq_of_toNat_eq ?_
      rw [hbit]
      change _ = 0
      omega
    rw [hzero]
    simp [hnegative]
    rfl

/-- A finite number is zero or has the fields that its bits show. -/
theorem fields_eq {x : Float} (hfinite : x.isFinite = true) :
    unpacked x = .zero (signFrom (Decimal.isNegative x)) ∧ (Binary.ofFloat x).mantissa = 0 ∨
      ∃ hm : 0 < (Binary.ofFloat x).mantissa,
        unpacked x = .finite (signFrom (Decimal.isNegative x)) (Binary.ofFloat x).mantissa
          (Binary.ofFloat x).exponent hm := by
  have hunpack := unpack_eq x.toModel.toBits.toBitVec
  have hfields : Binary.ofFloat x =
      if (exponentOf x.toModel.toBits.toBitVec).toNat = 0 then
        ⟨Decimal.isNegative x, (mantissaOf x.toModel.toBits.toBitVec).toNat, -1074⟩
      else ⟨Decimal.isNegative x, (mantissaOf x.toModel.toBits.toBitVec).toNat + Nat.pow 2 52,
        ((exponentOf x.toModel.toBits.toBitVec).toNat : Int) - 1075⟩ := by
    rw [Binary.ofFloat]
    simp only [scale_eq, fraction_eq]
    rfl
  rw [sign_eq] at hunpack
  change (unpacked x).isFinite = true at hfinite
  change unpacked x = _ at hunpack
  split at hunpack
  · split at hunpack <;>
    · rw [hunpack] at hfinite
      cases hfinite
  · split at hunpack
    · next hscale =>
      have hzero : (exponentOf x.toModel.toBits.toBitVec).toNat = 0 := by rw [hscale]; rfl
      rw [if_pos hzero] at hfields
      split at hunpack
      · next hzero =>
        refine Or.inl ⟨hunpack, ?_⟩
        rw [hfields, hzero]
        rfl
      · next hzero =>
        rw [hfields]
        exact Or.inr ⟨_, hunpack⟩
    · next hscale =>
      have hne : (exponentOf x.toModel.toBits.toBitVec).toNat ≠ 0 :=
        fun h => hscale (BitVec.eq_of_toNat_eq (by simpa using h))
      rw [hfields, if_neg hne]
      refine Or.inr ⟨Nat.add_pos_right _ (by decide), hunpack.trans ?_⟩
      exact finite_congr _ _ _ (Nat.add_comm _ _) rfl

theorem fields_of_isFinite {x : Float} (hfinite : x.isFinite = true)
    (hsign : Decimal.isNegative x = false) :
    unpacked x = .zero .positive ∧ (Binary.ofFloat x).mantissa = 0 ∨
      ∃ hm : 0 < (Binary.ofFloat x).mantissa,
        unpacked x = .finite .positive (Binary.ofFloat x).mantissa (Binary.ofFloat x).exponent hm := by
  have h := fields_eq hfinite
  rwa [hsign] at h

/-! ## The number as a rational number -/

/-- The rational number that an unpacked finite number is. -/
def ratOf : UnpackedFloat → ℚ
  | .finite .positive m e _ => m * 2 ^ e
  | .finite .negative m e _ => -(m * 2 ^ e)
  | _ => 0

def toRat (x : Float) : ℚ :=
  ratOf (unpacked x)

theorem mul_zpow_lt_of_place_lt {s s' : Sign} {m m' : Nat} {e e' : Int} {hm : 0 < m} {hm' : 0 < m'}
    (h : Canonical (.finite s m e hm)) (h' : Canonical (.finite s' m' e' hm'))
    (hlt : (e + 1075) * 2 ^ 53 + m < (e' + 1075) * 2 ^ 53 + (m' : Int)) :
    (m : ℚ) * 2 ^ e < m' * 2 ^ e' := by
  obtain ⟨hbits, hleast, -⟩ := h.bounds
  obtain ⟨hbits', -, -⟩ := h'.bounds
  obtain hexp | rfl | hexp := Int.lt_trichotomy e e'
  · -- The greater exponent is not the least one, so its mantissa has all 53 bits.
    have hnormal : 2 ^ 52 ≤ m' := by
      obtain ⟨hlog, -, -⟩ | ⟨-, rfl⟩ := h'
      · exact ((Nat.log2_eq_iff hm'.ne').mp hlog).1
      · omega
    calc (m : ℚ) * 2 ^ e < 2 ^ 53 * 2 ^ e := by
          gcongr
          exact_mod_cast hbits
      _ = 2 ^ 52 * 2 ^ (e + 1) := by
          rw [zpow_add_one₀ two_ne_zero]
          ring
      _ ≤ m' * 2 ^ e' := by
          gcongr
          · exact_mod_cast hnormal
          · norm_num
          · omega
  · gcongr
    omega
  · omega

theorem ratOf_positive (m : Nat) (e : Int) (hm : 0 < m) : 0 < ratOf (.finite .positive m e hm) := by
  simp only [ratOf]
  positivity

theorem ratOf_negative (m : Nat) (e : Int) (hm : 0 < m) : ratOf (.finite .negative m e hm) < 0 :=
  neg_lt_zero.mpr (ratOf_positive m e hm)

-- Zero has the place between the two signs, so the cases are on both signs and on which is zero.
theorem ratOf_lt {a b : UnpackedFloat} (ha : Canonical a) (hb : Canonical b)
    (hfa : a.isFinite = true) (hfb : b.isFinite = true) (h : place a < place b) :
    ratOf a < ratOf b := by
  cases a with
  | notANumber => cases hfa
  | infinity s => cases hfa
  | zero s =>
    cases b with
    | notANumber => cases hfb
    | infinity s => cases hfb
    | zero s => exact absurd h (lt_irrefl _)
    | finite s m e hm =>
      cases s with
      | positive => exact ratOf_positive m e hm
      | negative => exact absurd h hb.place_negative.not_gt
  | finite s m e hm =>
    cases b with
    | notANumber => cases hfb
    | infinity s => cases hfb
    | zero s' =>
      cases s with
      | positive => exact absurd h ha.place_positive.not_gt
      | negative => exact ratOf_negative m e hm
    | finite s' m' e' hm' =>
      cases s with
      | positive =>
        cases s' with
        | positive => exact mul_zpow_lt_of_place_lt ha hb h
        | negative => exact absurd h (hb.place_negative.trans ha.place_positive).not_gt
      | negative =>
        cases s' with
        | positive => exact (ratOf_negative m e hm).trans (ratOf_positive m' e' hm')
        | negative => exact neg_lt_neg (mul_zpow_lt_of_place_lt hb ha (Int.neg_lt_neg_iff.mp h))

/-- A finite number other than zero does not have the place of zero. -/
theorem Canonical.place_ne_zero {s : Sign} {m : Nat} {e : Int} {hm : 0 < m}
    (h : Canonical (.finite s m e hm)) : place (.finite s m e hm) ≠ 0 := by
  cases s with
  | positive => exact h.place_positive.ne'
  | negative => exact h.place_negative.ne

theorem Canonical.sign_eq {s s' : Sign} {m m' : Nat} {e e' : Int} {hm : 0 < m} {hm' : 0 < m'}
    (h : Canonical (.finite s m e hm)) (h' : Canonical (.finite s' m' e' hm'))
    (hplace : place (.finite s m e hm) = place (.finite s' m' e' hm')) : s = s' := by
  cases s with
  | positive =>
    cases s' with
    | positive => rfl
    | negative => exact absurd hplace (h'.place_negative.trans h.place_positive).ne'
  | negative =>
    cases s' with
    | positive => exact absurd hplace (h.place_negative.trans h'.place_positive).ne
    | negative => rfl

theorem ratOf_congr {a b : UnpackedFloat} (ha : Canonical a) (hb : Canonical b)
    (hfa : a.isFinite = true) (hfb : b.isFinite = true) (h : place a = place b) :
    ratOf a = ratOf b := by
  cases a with
  | notANumber => cases hfa
  | infinity s => cases hfa
  | zero s =>
    cases b with
    | notANumber => cases hfb
    | infinity s => cases hfb
    | zero s => rfl
    | finite s m e hm => exact absurd h.symm hb.place_ne_zero
  | finite s m e hm =>
    have hbounds := ha.bounds
    cases b with
    | notANumber => cases hfb
    | infinity s => cases hfb
    | zero s' => exact absurd h ha.place_ne_zero
    | finite s' m' e' hm' =>
      have hbounds' := hb.bounds
      obtain rfl := ha.sign_eq hb h
      have hsize : (e + 1075) * 2 ^ 53 + m = (e' + 1075) * 2 ^ 53 + (m' : Int) := by
        cases s with
        | positive => exact h
        | negative => exact Int.neg_inj.mp h
      obtain rfl : e = e' := by omega
      obtain rfl : m = m' := by omega
      rfl

/-- Finite numbers are in the order of the rational numbers that they are. -/
theorem place_lt_iff {a b : UnpackedFloat} (ha : Canonical a) (hb : Canonical b)
    (hfa : a.isFinite = true) (hfb : b.isFinite = true) : place a < place b ↔ ratOf a < ratOf b := by
  refine ⟨ratOf_lt ha hb hfa hfb, fun h => ?_⟩
  obtain hlt | heq | hgt := Int.lt_trichotomy (place a) (place b)
  · exact hlt
  · exact absurd h (ratOf_congr ha hb hfa hfb heq).not_lt
  · exact absurd h (ratOf_lt hb ha hfb hfa hgt).not_gt

theorem lt_iff_toRat {x y : Float} (hx : x.isFinite = true) (hy : y.isFinite = true) :
    x < y ↔ toRat x < toRat y := by
  rw [lt_iff (isNaN_of_isFinite hx) (isNaN_of_isFinite hy)]
  exact place_lt_iff (canonical_unpacked x) (canonical_unpacked y) hx hy

theorem le_iff_toRat {x y : Float} (hx : x.isFinite = true) (hy : y.isFinite = true) :
    x ≤ y ↔ toRat x ≤ toRat y := by
  rw [le_iff (isNaN_of_isFinite hx) (isNaN_of_isFinite hy), ← not_lt, ← not_lt]
  exact not_congr (place_lt_iff (canonical_unpacked y) (canonical_unpacked x) hy hx)

theorem isFinite_abs (x : Float) : x.abs.isFinite = x.isFinite := by
  change (unpacked x.abs).isFinite = (unpacked x).isFinite
  rw [unpacked_abs]
  cases unpacked x <;> rfl

theorem toRat_abs (x : Float) : toRat x.abs = |toRat x| := by
  rw [toRat, unpacked_abs, toRat]
  cases unpacked x with
  | finite s m e hm =>
    have hnonneg : (0 : ℚ) ≤ m * 2 ^ e := by positivity
    cases s with
    | positive => exact (abs_of_nonneg hnonneg).symm
    | negative => exact ((abs_neg _).trans (abs_of_nonneg hnonneg)).symm
  | _ => exact abs_zero.symm

theorem lt_zero_iff {x : Float} (hx : x.isFinite = true) : x < 0 ↔ toRat x < 0 :=
  lt_iff_toRat hx (by rfl)

end AnswerCheck.Binary64

namespace AnswerCheck.Decimal

open Binary64

theorem value_toDecimal (b : Binary) : b.toDecimal.value = b.mantissa * 2 ^ b.exponent := by
  rw [Binary.toDecimal]
  split
  · next hpos =>
    have hexp : (2 : ℚ) ^ b.exponent = 2 ^ b.exponent.toNat := by
      rw [← zpow_natCast, Int.toNat_of_nonneg hpos]
    rw [value, hexp, zpow_zero, mul_one, Nat.pow_eq]
    push_cast
    rfl
  · next hneg =>
    obtain ⟨k, hk⟩ : ∃ k : Nat, b.exponent = -k := ⟨(-b.exponent).toNat, by omega⟩
    have hten : (10 : ℚ) ^ k = 2 ^ k * 5 ^ k := by
      rw [← mul_pow]
      norm_num
    rw [value, hk, neg_neg, Int.toNat_natCast, Nat.pow_eq, zpow_neg, zpow_neg, zpow_natCast,
      zpow_natCast, hten]
    push_cast
    field_simp

theorem value_nonneg (d : Decimal) : 0 ≤ d.value := by
  unfold value
  positivity

theorem toRat_eq {x : Float} (hfinite : x.isFinite = true) :
    toRat x = if isNegative x then -(ofFloat x).value else (ofFloat x).value := by
  rw [ofFloat, value_toDecimal, toRat]
  obtain ⟨hx, hzero⟩ | ⟨hm, hx⟩ := fields_eq hfinite
  · rw [hx, hzero]
    simp [ratOf]
  · rw [hx, signFrom]
    cases isNegative x <;> rfl

theorem abs_toRat {x : Float} (hfinite : x.isFinite = true) : |toRat x| = (ofFloat x).value := by
  have hnonneg := value_nonneg (ofFloat x)
  rw [toRat_eq hfinite]
  split
  · rw [abs_neg, abs_of_nonneg hnonneg]
  · exact abs_of_nonneg hnonneg

theorem isNegative_iff {x : Float} (hfinite : x.isFinite = true) (hne : toRat x ≠ 0) :
    isNegative x = true ↔ x < 0 := by
  have hpositive : 0 < (ofFloat x).value := by
    rw [← abs_toRat hfinite]
    exact abs_pos.mpr hne
  rw [lt_zero_iff hfinite, toRat_eq hfinite]
  cases isNegative x with
  | true => simpa using hpositive
  | false => simpa using hpositive.le

end AnswerCheck.Decimal
