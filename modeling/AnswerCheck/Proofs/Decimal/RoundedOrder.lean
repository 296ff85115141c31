import AnswerCheck.Proofs.Decimal.Nearest
import AnswerCheck.Proofs.Decimal.Negation

/-! # Rounding keeps the order

A sum, a difference or an integer is its exact value, rounded. Rounding does not take a value past any
floating-point number: it stays on the same side of each of them or meets it. Overflow is no exception,
since the infinities lie beyond all finite numbers.
-/

set_option autoImplicit false

namespace AnswerCheck.Binary64

open Float.Model
open Float.Model.UnpackedFloat hiding pack unpack

/-! ## Rounded mantissas -/

/-- A mantissa is rounded down or, where something was cut off, up. -/
theorem roundedMantissa_eq (x : ℚ) :
    (extended x).roundedMantissa = ⌊x⌋₊ ∨
      (extended x).roundedMantissa = ⌊x⌋₊ + 1 ∧ (⌊x⌋₊ : ℚ) ≠ x := by
  rw [roundedMantissa_extended_eq, ← floor_eq_half]
  by_cases heven : ⌊2 * x⌋₊ % 2 = 0
  · exact Or.inl (if_pos heven)
  · have hne : (⌊x⌋₊ : ℚ) ≠ x := fun h => heven ((floor_eq_self_iff x).mp h).1
    rw [if_neg heven]
    split
    · -- A tie goes down or up.
      obtain hdown | hup := Nat.mod_two_eq_zero_or_one ⌊x⌋₊
      · exact Or.inl (by rw [hdown, Nat.add_zero])
      · exact Or.inr ⟨by rw [hup], hne⟩
    · exact Or.inr ⟨rfl, hne⟩

theorem roundedMantissa_le {x : ℚ} {k : Nat} (hx : 0 ≤ x) (h : x ≤ k) :
    (extended x).roundedMantissa ≤ k := by
  have hfloor : (⌊x⌋₊ : ℚ) ≤ x := Nat.floor_le hx
  obtain hdown | ⟨hup, hne⟩ := roundedMantissa_eq x
  · rw [hdown]
    exact_mod_cast hfloor.trans h
  · have hlt : (⌊x⌋₊ : ℚ) < k := (lt_of_le_of_ne hfloor hne).trans_le h
    rw [hup]
    exact_mod_cast hlt

theorem le_roundedMantissa {x : ℚ} {k : Nat} (h : (k : ℚ) ≤ x) : k ≤ (extended x).roundedMantissa := by
  have hfloor : k ≤ ⌊x⌋₊ := Nat.le_floor h
  obtain hdown | ⟨hup, -⟩ := roundedMantissa_eq x <;> omega

/-! ## Finishing -/

/-- A mantissa in the format becomes zero or a number with the same value, whose mantissa has all bits
or whose exponent is the least one. -/
theorem finish_value {em : ExtendedMantissa} {e : Int} (he : -1074 ≤ e)
    (hhigh : em.roundedMantissa ≤ 2 ^ 53) (hlow : 2 ^ 52 ≤ em.roundedMantissa ∨ e = -1074) :
    em.roundedMantissa = 0 ∧ finish em e = .zero .positive ∨
      ∃ m k hm, finish em e = .finite .positive m k hm ∧ (m : ℚ) * 2 ^ k = em.roundedMantissa * 2 ^ e ∧
        (m.log2 = 52 ∧ -1074 ≤ k ∨ m.log2 < 52 ∧ k = -1074) := by
  by_cases hzero : em.roundedMantissa = 0
  · left
    simp only [finish, hzero, shiftToTargetExponent_exact (m := 0) (by decide) he]
    exact ⟨trivial, rfl⟩
  · right
    have hpos := Nat.pos_of_ne_zero hzero
    obtain hfull | hfits := hhigh.eq_or_lt
    · refine ⟨2 ^ 52, e + 1, by decide, ?_, ?_, Or.inl ⟨by rw [Nat.log2_two_pow], by omega⟩⟩
      · simpa using finish_carry (e := e + 1) (by omega) hfull
      · rw [hfull, zpow_add_one₀ two_ne_zero]
        push_cast
        ring
    · have hlog : em.roundedMantissa.log2 ≤ 52 := by
        have := (Nat.log2_lt hzero).mpr hfits
        omega
      refine ⟨em.roundedMantissa, e, hpos, ?_, rfl, ?_⟩
      · simp only [finish, shiftToTargetExponent_exact hlog he]
        rw [dif_neg hzero]
      · obtain hbits | rfl := hlow
        · exact Or.inl ⟨le_antisymm hlog ((Nat.le_log2 hzero).mpr hbits), he⟩
        · obtain hlog | hlog := hlog.eq_or_lt
          · exact Or.inl ⟨hlog, he⟩
          · exact Or.inr ⟨hlog, rfl⟩

/-- Beyond the greatest exponent packing overflows. -/
theorem unpacked_pack_overflow {m : Nat} {e : Int} {hm : 0 < m} (he : 971 < e) :
    unpacked (.ofModel (Float.Model.pack (.finite .positive m e hm))) = .infinity .positive := by
  have hbias := biased_exponent_eq e
  have hpack : UnpackedFloat.pack Format.binary64 (.finite .positive m e hm) =
      UnpackedFloat.pack Format.binary64 (.infinity .positive) := by
    simp only [UnpackedFloat.pack, hbias]
    rw [if_pos (by change 2048 ≤ (e + 1075).toNat + 1; omega)]
  change UnpackedFloat.unpack Format.binary64 (UnpackedFloat.pack Format.binary64 _) = _
  rw [hpack]
  rfl

/-! ## The value after rounding -/

/-- The value that a positive rational number is rounded to, unless that overflows. -/
def roundedValue (q : ℚ) : ℚ :=
  (extended (q / 2 ^ lastPlace q)).roundedMantissa * 2 ^ lastPlace q

variable {q : ℚ}

/-- The mantissa that is rounded fills the bits of the format, or the exponent is the least one. -/
theorem mantissa_bounds (hq : 0 < q) :
    q / 2 ^ lastPlace q < 2 ^ 53 ∧ ((2 : ℚ) ^ 52 ≤ q / 2 ^ lastPlace q ∨ lastPlace q = -1074) := by
  have hpow : (0 : ℚ) < 2 ^ lastPlace q := by positivity
  have hbits (k : Nat) : (2 : ℚ) ^ k * 2 ^ lastPlace q = 2 ^ ((k : Int) + lastPlace q) := by
    rw [zpow_add₀ two_ne_zero, zpow_natCast]
  rw [div_lt_iff₀ hpow, le_div_iff₀ hpow, hbits, hbits, lt_zpow_iff hq, zpow_le_iff hq, lastPlace]
  omega

theorem roundedMantissa_bounds (hq : 0 < q) :
    (extended (q / 2 ^ lastPlace q)).roundedMantissa ≤ 2 ^ 53 ∧
      (2 ^ 52 ≤ (extended (q / 2 ^ lastPlace q)).roundedMantissa ∨ lastPlace q = -1074) := by
  obtain ⟨hhigh, hlow⟩ := mantissa_bounds hq
  have hnonneg : 0 ≤ q / 2 ^ lastPlace q := by positivity
  refine ⟨roundedMantissa_le hnonneg ?_, hlow.imp_left fun h => le_roundedMantissa ?_⟩
  · push_cast
    exact hhigh.le
  · push_cast
    exact h

theorem roundedValue_nonneg (q : ℚ) : 0 ≤ roundedValue q := by
  unfold roundedValue
  positivity

theorem mul_zpow_eq (m : Nat) {e k : Int} (h : e ≤ k) :
    (m : ℚ) * 2 ^ k = (m * 2 ^ (k - e).toNat : Nat) * 2 ^ e := by
  have hsum : k = ((k - e).toNat : Int) + e := by omega
  conv_lhs => rw [hsum, zpow_add₀ two_ne_zero, zpow_natCast]
  push_cast
  ring

section

variable {m : Nat} {k : Int} {hm : 0 < m} (hcanonical : Canonical (.finite .positive m k hm))
include hcanonical

theorem roundedValue_le (hq : 0 < q) (h : q ≤ m * 2 ^ k) : roundedValue q ≤ m * 2 ^ k := by
  have hplace : lastPlace q ≤ k := by
    have hlog : Int.log 2 q < ((m.log2 + 1 : Nat) : Int) + k := by
      rw [← lt_zpow_iff hq, zpow_add₀ two_ne_zero, zpow_natCast]
      have hbits : (m : ℚ) < 2 ^ (m.log2 + 1) := by exact_mod_cast Nat.lt_log2_self
      exact h.trans_lt (by gcongr)
    rw [lastPlace]
    obtain ⟨hfull, hleast, -⟩ | ⟨hfew, rfl⟩ := hcanonical <;> omega
  rw [mul_zpow_eq m hplace] at h ⊢
  rw [← div_le_iff₀ (by positivity)] at h
  unfold roundedValue
  gcongr
  exact roundedMantissa_le (by positivity) h

theorem le_roundedValue (hq : 0 < q) (h : m * 2 ^ k ≤ q) : m * 2 ^ k ≤ roundedValue q := by
  obtain ⟨hbits, hleast, -⟩ := hcanonical.bounds
  unfold roundedValue
  by_cases hplace : lastPlace q ≤ k
  · rw [mul_zpow_eq m hplace] at h ⊢
    rw [← le_div_iff₀ (by positivity)] at h
    gcongr
    exact le_roundedMantissa h
  · -- A coarser last place than that of the other number: the mantissa has all bits there.
    obtain hfull | hleast' := (roundedMantissa_bounds hq).2
    · calc (m : ℚ) * 2 ^ k ≤ 2 ^ 53 * 2 ^ k := by
            gcongr
            exact_mod_cast hbits.le
        _ = 2 ^ 52 * 2 ^ (k + 1) := by
            rw [zpow_add_one₀ two_ne_zero]
            ring
        _ ≤ (extended (q / 2 ^ lastPlace q)).roundedMantissa * 2 ^ lastPlace q := by
            gcongr
            · exact_mod_cast hfull
            · norm_num
            · omega
    · omega

end

/-- The number nearest to a rational number is finite and has the rounded value, or that is too large
and the number is infinite. -/
theorem nearestFloat_cases (hq : 0 < q) :
    (nearestFloat q).isFinite = true ∧ toRat (nearestFloat q) = roundedValue q ∨
      unpacked (nearestFloat q) = .infinity .positive ∧ 2 ^ 1024 ≤ roundedValue q := by
  obtain ⟨hhigh, hlow⟩ := roundedMantissa_bounds hq
  have hleast : -1074 ≤ lastPlace q := le_max_right _ _
  obtain ⟨hzero, hfinish⟩ | ⟨m, k, hm, hfinish, hvalue, hformat⟩ := finish_value hleast hhigh hlow
  · left
    have hnearest : nearestFloat q = 0 := by
      rw [nearestFloat, nearest, hfinish]
      rfl
    rw [hnearest, roundedValue, hzero]
    simp only [Nat.cast_zero, zero_mul]
    exact ⟨rfl, rfl⟩
  · rw [← nearest] at hfinish
    rw [roundedValue, ← hvalue]
    by_cases hoverflow : k ≤ 971
    · have hunpacked : unpacked (nearestFloat q) = .finite .positive m k hm := by
        rw [nearestFloat, hfinish]
        exact unpacked_pack _ (hformat.imp_left fun hnormal => ⟨hnormal.1, hnormal.2, hoverflow⟩)
      left
      constructor
      · change (unpacked (nearestFloat q)).isFinite = true
        rw [hunpacked]
        rfl
      · rw [toRat, hunpacked, ratOf]
    · right
      refine ⟨?_, ?_⟩
      · rw [nearestFloat, hfinish]
        exact unpacked_pack_overflow (by omega)
      · have hbits : 2 ^ 52 ≤ m := by
          obtain ⟨hlog, -⟩ | ⟨-, rfl⟩ := hformat
          · exact ((Nat.log2_eq_iff hm.ne').mp hlog).1
          · omega
        calc (2 : ℚ) ^ 1024 = 2 ^ 52 * 2 ^ (972 : Int) := by rw [zpow_ofNat, ← pow_add]
          _ ≤ (m : ℚ) * 2 ^ k := by
            gcongr
            · exact_mod_cast hbits
            · norm_num
            · omega

/-! ## Numbers that are not a number, and negated ones -/

variable {x y c : Float}

theorem isNaN_neg (x : Float) : (unpacked (-x)).isNaN = (unpacked x).isNaN := by
  rw [unpacked_neg]
  cases unpacked x <;> rfl

theorem toRat_neg (x : Float) : toRat (-x) = -toRat x := by
  rw [toRat, unpacked_neg, toRat]
  cases unpacked x with
  | finite s m e hm =>
    cases s with
    | positive => rfl
    | negative => exact (neg_neg _).symm
  | _ => exact neg_zero.symm

theorem neg_le_iff (hx : (unpacked x).isNaN = false) (hy : (unpacked y).isNaN = false) :
    -x ≤ y ↔ -y ≤ x := by
  rw [le_iff ((isNaN_neg x).trans hx) hy, le_iff ((isNaN_neg y).trans hy) hx, place_neg, place_neg]
  omega

theorem le_neg_iff (hx : (unpacked x).isNaN = false) (hy : (unpacked y).isNaN = false) :
    x ≤ -y ↔ y ≤ -x := by
  rw [le_iff hx ((isNaN_neg y).trans hy), le_iff hy ((isNaN_neg x).trans hx), place_neg, place_neg]
  omega

/-- The finite numbers are those with a place between the two infinities. -/
theorem isFinite_iff_place (hc : (unpacked c).isNaN = false) :
    c.isFinite = true ↔ -(2048 * 2 ^ 53) < place (unpacked c) ∧ place (unpacked c) < 2048 * 2 ^ 53 := by
  have hcanonical := canonical_unpacked c
  change (unpacked c).isFinite = true ↔ _
  cases hunpacked : unpacked c with
  | notANumber =>
    rw [hunpacked] at hc
    cases hc
  | zero s => simp [place, UnpackedFloat.isFinite]
  | infinity s => cases s <;> simp [place, UnpackedFloat.isFinite, Sign.apply]
  | finite s m e hm =>
    rw [hunpacked] at hcanonical
    have hbounds := hcanonical.bounds
    cases s <;> simp only [place, UnpackedFloat.isFinite, Sign.apply, true_iff] <;> omega

theorem toRat_lt_of_isFinite (hc : c.isFinite = true) : toRat c < 2 ^ 1024 := by
  have hcanonical := canonical_unpacked c
  change (unpacked c).isFinite = true at hc
  rw [toRat]
  cases hunpacked : unpacked c with
  | finite s m e hm =>
    rw [hunpacked] at hcanonical
    obtain ⟨hbits, -, hgreatest⟩ := hcanonical.bounds
    have hsize : (m : ℚ) * 2 ^ e < 2 ^ 1024 := by
      calc (m : ℚ) * 2 ^ e < 2 ^ 53 * 2 ^ e := by
            gcongr
            exact_mod_cast hbits
        _ ≤ 2 ^ 53 * 2 ^ (971 : Int) := by
            gcongr
            norm_num
        _ = 2 ^ 1024 := by rw [zpow_ofNat, ← pow_add]
    cases s with
    | positive => exact hsize
    | negative =>
      have hnonneg : (0 : ℚ) ≤ m * 2 ^ e := by positivity
      exact (neg_nonpos.mpr hnonneg).trans_lt (by positivity)
  | _ => exact pow_pos two_pos _

/-! ## Rounded values -/

/-- The number is the rational number, rounded: no finite number lies strictly between them. -/
structure Rounded (x : Float) (q : ℚ) : Prop where
  le {c : Float} (hc : c.isFinite = true) (h : q ≤ toRat c) : x ≤ c
  ge {c : Float} (hc : c.isFinite = true) (h : toRat c ≤ q) : c ≤ x

namespace Rounded

theorem isNaN (h : Rounded x q) : (unpacked x).isNaN = false := by
  obtain hq | hq := le_total q (toRat 0)
  · exact (isNaN_of_le (h.le (by rfl) hq)).1
  · exact (isNaN_of_le (h.ge (by rfl) hq)).2

theorem self (hx : x.isFinite = true) : Rounded x (toRat x) :=
  ⟨fun hc => (le_iff_toRat hx hc).mpr, fun hc => (le_iff_toRat hc hx).mpr⟩

theorem neg (h : Rounded x q) : Rounded (-x) (-q) := by
  refine ⟨fun {c} hc hle => ?_, fun {c} hc hge => ?_⟩
  · rw [neg_le_iff h.isNaN (isNaN_of_isFinite hc)]
    exact h.ge ((isFinite_neg c).trans hc) (by rw [toRat_neg]; linarith)
  · rw [le_neg_iff (isNaN_of_isFinite hc) h.isNaN]
    exact h.le ((isFinite_neg c).trans hc) (by rw [toRat_neg]; linarith)

theorem exists_of_toRat_pos (h : 0 < toRat c) :
    ∃ m k hm, unpacked c = .finite .positive m k hm ∧ toRat c = m * 2 ^ k := by
  rw [toRat] at h ⊢
  cases hunpacked : unpacked c with
  | finite s m e hm =>
    rw [hunpacked] at h
    cases s with
    | positive => exact ⟨m, e, hm, rfl, rfl⟩
    | negative =>
      have hnonneg : (0 : ℚ) ≤ m * 2 ^ e := by positivity
      exact absurd h (neg_nonpos.mpr hnonneg).not_gt
  | _ =>
    rw [hunpacked] at h
    exact absurd h (lt_irrefl _)

/-- The number nearest to a rational number is on the same side of all others. -/
theorem nearestFloat (hq : 0 < q) : Rounded (nearestFloat q) q := by
  have hle {c : Float} (h : q ≤ toRat c) : roundedValue q ≤ toRat c := by
    obtain ⟨m, k, hm, hunpacked, hvalue⟩ := exists_of_toRat_pos (hq.trans_le h)
    rw [hvalue] at h ⊢
    exact roundedValue_le (hunpacked ▸ canonical_unpacked c) hq h
  have hge {c : Float} (h : toRat c ≤ q) : toRat c ≤ roundedValue q := by
    obtain hneg | hpos := le_or_gt (toRat c) 0
    · exact hneg.trans (roundedValue_nonneg q)
    · obtain ⟨m, k, hm, hunpacked, hvalue⟩ := exists_of_toRat_pos hpos
      rw [hvalue] at h ⊢
      exact le_roundedValue (hunpacked ▸ canonical_unpacked c) hq h
  obtain ⟨hfinite, hvalue⟩ | ⟨hinfinite, hlarge⟩ := nearestFloat_cases hq
  · refine ⟨fun hc h => ?_, fun hc h => ?_⟩
    · rw [le_iff_toRat hfinite hc, hvalue]
      exact hle h
    · rw [le_iff_toRat hc hfinite, hvalue]
      exact hge h
  · refine ⟨fun hc h => ?_, fun {c} hc h => ?_⟩
    · exact absurd (hlarge.trans (hle h)) (toRat_lt_of_isFinite hc).not_ge
    · have hnumber : (unpacked (Binary64.nearestFloat q)).isNaN = false := by
        rw [hinfinite]
        rfl
      rw [le_iff (isNaN_of_isFinite hc) hnumber, hinfinite]
      exact ((isFinite_iff_place (isNaN_of_isFinite hc)).mp hc).2.le

end Rounded

/-! ## Sums and differences -/

theorem round_eq_nearest {m : Nat} (hm : 0 < m) (e : Int) :
    UnpackedFloat.round .binary64 .positive m e = nearest (m * 2 ^ e) := by
  have hq : (0 : ℚ) < m * 2 ^ e := by positivity
  have hlog : Int.log 2 ((m : ℚ) * 2 ^ e) = m.log2 + e := by
    refine log_eq hq hm.ne' ?_
    rw [mul_div_cancel_right₀ _ (zpow_ne_zero e two_ne_zero), Nat.floor_natCast]
  have htarget : Format.binary64.targetExponent (totalExponent m e) = lastPlace (m * 2 ^ e) := by
    rw [targetExponent_eq, totalExponent, lastPlace, hlog]
    omega
  simp only [UnpackedFloat.round, htarget, decreaseExponent]
  generalize hshift : (e - lastPlace (m * 2 ^ e)).toNat = shift
  have hscale : (m : ℚ) * 2 ^ e / 2 ^ (e - (shift : Int)) = (m <<< shift : Nat) := by
    rw [mul_div_assoc, ← zpow_sub₀ two_ne_zero, sub_sub_cancel, Nat.shiftLeft_eq]
    push_cast
    rw [zpow_natCast]
  refine roundWithAccuracy_eq hq ?_ (by omega) (Or.inl ?_)
  · rw [hscale]
    exact extended_natCast _
  · rw [Nat.shiftLeft_eq]
    positivity

theorem ofModel_pack_neg (f : UnpackedFloat) :
    Float.ofModel (Float.Model.pack f.neg) = -Float.ofModel (Float.Model.pack f) := by
  rw [← pack_unpacked (Float.ofModel (Float.Model.pack f.neg)), unpacked_pack_neg, ← unpacked_neg,
    pack_unpacked]

namespace Rounded

theorem pack {f : UnpackedFloat} (hcanonical : Canonical f) (hfinite : f.isFinite = true) :
    Rounded (.ofModel (Float.Model.pack f)) (ratOf f) := by
  have hunpacked := unpacked_pack f hcanonical
  have h := self (x := .ofModel (Float.Model.pack f)) (by
    change (unpacked (.ofModel (Float.Model.pack f))).isFinite = true
    rwa [hunpacked])
  rwa [toRat, hunpacked] at h

theorem normalize (m e : Int) :
    Rounded (.ofModel (Float.Model.pack (UnpackedFloat.normalize .binary64 m e .positive))) (m * 2 ^ e) := by
  have hpositive {n : Int} (hn : 0 < n) :
      Rounded (.ofModel (Float.Model.pack (UnpackedFloat.round .binary64 .positive n.toNat e)))
        (n * 2 ^ e) := by
    have hcast : (n : ℚ) = n.toNat := by exact_mod_cast (Int.toNat_of_nonneg hn.le).symm
    have hnat : 0 < n.toNat := by omega
    rw [round_eq_nearest hnat, hcast]
    exact nearestFloat (by positivity)
  unfold UnpackedFloat.normalize
  obtain h | rfl | h := Int.lt_trichotomy m 0
  · rw [Int.compare_eq_lt.mpr h]
    have hneg := (hpositive (n := -m) (by omega)).neg
    rw [← ofModel_pack_neg, ← round_neg] at hneg
    push_cast at hneg
    rwa [neg_mul, neg_neg] at hneg
  · rw [Int.compare_eq_eq.mpr rfl, Int.cast_zero, zero_mul]
    exact pack (f := .zero .positive) trivial rfl
  · rw [Int.compare_eq_gt.mpr h]
    exact hpositive h

/-- A finite number written with a smaller exponent. -/
theorem ratOf_finite (s : Sign) (m : Nat) {e t : Int} (hm : 0 < m) (h : t ≤ e) :
    ratOf (.finite s m e hm) = (s.apply (m <<< (e - t).toNat : Nat) : Int) * 2 ^ t := by
  have hvalue := mul_zpow_eq m h
  rw [← Nat.shiftLeft_eq] at hvalue
  cases s with
  | positive => exact hvalue
  | negative =>
    simp only [ratOf, Sign.apply, hvalue]
    rw [Int.cast_neg, Int.cast_natCast, neg_mul]

theorem add_unpacked {f g : UnpackedFloat} (hf : Canonical f) (hg : Canonical g)
    (hff : f.isFinite = true) (hfg : g.isFinite = true) :
    Rounded (.ofModel (Float.Model.pack (UnpackedFloat.add .binary64 f g))) (ratOf f + ratOf g) := by
  cases f with
  | notANumber => cases hff
  | infinity s => cases hff
  | zero s =>
    rw [show ratOf (.zero s) = 0 from rfl, zero_add]
    cases g with
    | notANumber => cases hfg
    | infinity t => cases hfg
    | zero t => cases s <;> cases t <;> exact pack (f := .zero _) trivial rfl
    | finite t n k hn => exact pack hg rfl
  | finite s m e hm =>
    cases g with
    | notANumber => cases hfg
    | infinity t => cases hfg
    | zero t =>
      rw [show ratOf (.zero t) = 0 from rfl, add_zero]
      exact pack hf rfl
    | finite t n k hn =>
      have h := normalize
        (s.apply (m <<< (e - min e k).toNat : Nat) + t.apply (n <<< (k - min e k).toNat : Nat)) (min e k)
      rw [Int.cast_add, add_mul] at h
      rw [ratOf_finite s m hm (min_le_left e k), ratOf_finite t n hn (min_le_right e k)]
      exact h

/-- A sum is the exact sum, rounded. -/
theorem add (hx : x.isFinite = true) (hy : y.isFinite = true) : Rounded (x + y) (toRat x + toRat y) :=
  add_unpacked (canonical_unpacked x) (canonical_unpacked y) hx hy

theorem sub_unpacked (f g : UnpackedFloat) :
    UnpackedFloat.sub .binary64 f g = UnpackedFloat.add .binary64 f g.neg := by
  cases f with
  | notANumber => rfl
  | infinity s => cases g <;> rfl
  | zero s => cases g <;> rfl
  | finite s m e hm =>
    cases g with
    | finite t n k hn =>
      cases t <;> simp [UnpackedFloat.sub, UnpackedFloat.add, UnpackedFloat.neg, Sign.apply, sub_eq_add_neg]
    | _ => rfl

/-- A difference is the exact difference, rounded. -/
theorem sub (hx : x.isFinite = true) (hy : y.isFinite = true) : Rounded (x - y) (toRat x - toRat y) := by
  have hsub : x - y = x + -y := by
    change Float.ofModel (Float.Model.pack (UnpackedFloat.sub .binary64 (unpacked x) (unpacked y))) =
      Float.ofModel (Float.Model.pack (UnpackedFloat.add .binary64 (unpacked x) (unpacked (-y))))
    rw [sub_unpacked, unpacked_neg]
  rw [hsub, sub_eq_add_neg, ← toRat_neg]
  exact add hx ((isFinite_neg y).trans hy)

/-! ## Integers -/

theorem ofNat (n : Nat) : Rounded (Float.ofNat n) n := by
  obtain rfl | hn := Nat.eq_zero_or_pos n
  · exact self (x := 0) (by rfl)
  · have hnearest : Float.ofNat n = Binary64.nearestFloat n := by
      have h := ofScientific_eq hn (e := 0) (by omega) (by decide)
      rwa [zpow_zero, mul_one] at h
    rw [hnearest]
    exact nearestFloat (by exact_mod_cast hn)

end Rounded

end AnswerCheck.Binary64

namespace AnswerCheck

open Binary64

/-- The whole part and the fraction after it. -/
theorem Binary.wholePart_bounds (b : Binary) :
    (b.wholePart : ℚ) ≤ b.toDecimal.value ∧ b.toDecimal.value < b.wholePart + 1 := by
  rw [Decimal.value_toDecimal, wholePart]
  split
  · next hpos =>
    have hexp : (2 : ℚ) ^ b.exponent = 2 ^ b.exponent.toNat := by
      rw [← zpow_natCast, Int.toNat_of_nonneg hpos]
    rw [hexp, Nat.pow_eq]
    push_cast
    exact ⟨le_rfl, lt_add_one _⟩
  · next hneg =>
    have hexp : (b.mantissa : ℚ) * 2 ^ b.exponent = b.mantissa / (2 ^ (-b.exponent).toNat : Nat) := by
      obtain ⟨k, hk⟩ : ∃ k : Nat, b.exponent = -k := ⟨(-b.exponent).toNat, by omega⟩
      rw [hk, neg_neg, Int.toNat_natCast, zpow_neg, zpow_natCast, div_eq_mul_inv]
      push_cast
      rfl
    have hfloor : ⌊(b.mantissa : ℚ) / (2 ^ (-b.exponent).toNat : Nat)⌋₊ =
        b.mantissa / 2 ^ (-b.exponent).toNat := Nat.floor_div_eq_div _ _
    rw [hexp, Nat.pow_eq, ← hfloor]
    exact ⟨Nat.floor_le (by positivity), Nat.lt_floor_add_one _⟩

namespace Decimal

variable {x : Float}

theorem negative_ofFloat (x : Float) : (Binary.ofFloat x).negative = isNegative x := by
  rw [Binary.ofFloat]
  split <;> rfl

theorem toRat_eq_of_sign (hx : x.isFinite = true) :
    toRat x = if (Binary.ofFloat x).negative then -(Binary.ofFloat x).toDecimal.value
      else (Binary.ofFloat x).toDecimal.value := by
  rw [negative_ofFloat]
  exact toRat_eq hx

theorem roundDown_le (hx : (unpacked x).isNaN = false) : roundDown x ≤ x := by
  obtain ⟨hwhole, hfraction⟩ := (Binary.ofFloat x).wholePart_bounds
  rw [roundDown]
  split
  · exact Binary64.le_refl hx
  · next hinner =>
    have hfinite : x.isFinite = true := by simp at hinner; exact hinner.1
    have hvalue := toRat_eq_of_sign hfinite
    split
    · next hnegative =>
      rw [if_pos hnegative] at hvalue
      refine (Rounded.ofNat _).neg.le hfinite ?_
      push_cast
      linarith
    · next hnegative =>
      rw [if_neg hnegative] at hvalue
      exact (Rounded.ofNat _).le hfinite (by linarith)

theorem le_roundUp (hx : (unpacked x).isNaN = false) : x ≤ roundUp x := by
  obtain ⟨hwhole, hfraction⟩ := (Binary.ofFloat x).wholePart_bounds
  rw [roundUp]
  split
  · exact Binary64.le_refl hx
  · next hinner =>
    have hfinite : x.isFinite = true := by simp at hinner; exact hinner.1
    have hvalue := toRat_eq_of_sign hfinite
    split
    · next hnegative =>
      rw [if_pos hnegative] at hvalue
      exact (Rounded.ofNat _).neg.ge hfinite (by linarith)
    · next hnegative =>
      rw [if_neg hnegative] at hvalue
      refine (Rounded.ofNat _).ge hfinite ?_
      push_cast
      linarith

end Decimal

end AnswerCheck
