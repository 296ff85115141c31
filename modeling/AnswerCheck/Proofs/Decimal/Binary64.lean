import AnswerCheck.Search.Scalar
import Mathlib

/-! # Bit patterns and unpacked numbers

A floating-point number is a bit pattern, and its operations run on the unpacked form: sign,
mantissa and exponent. Unpacking undoes packing on the numbers that are canonical, i.e. rounded to
the format. The comparisons of the search then become comparisons of unpacked numbers.
-/

set_option autoImplicit false

namespace AnswerCheck.Binary64

open Float.Model
open Float.Model.UnpackedFloat hiding pack unpack

/-! ## The three fields of a bit pattern -/

abbrev signOf (b : BitVec 64) : BitVec 1 := @unpackSign Format.binary64 b

abbrev exponentOf (b : BitVec 64) : BitVec 11 := @unpackExponent Format.binary64 b

/-- The mantissa as it is stored, without its leading bit. -/
abbrev mantissaOf (b : BitVec 64) : BitVec 52 := @unpackMantissa Format.binary64 b

theorem signOf_packComponents (s : Sign) (e : BitVec 11) (m : BitVec 52) :
    signOf (packComponents Format.binary64 s e m) = s.toBitVec :=
  @unpackSign_packComponents Format.binary64 s e m

theorem exponentOf_packComponents (s : Sign) (e : BitVec 11) (m : BitVec 52) :
    exponentOf (packComponents Format.binary64 s e m) = e :=
  unpackExponent_packComponents

theorem mantissaOf_packComponents (s : Sign) (e : BitVec 11) (m : BitVec 52) :
    mantissaOf (packComponents Format.binary64 s e m) = m :=
  unpackMantissa_packComponents

/-! ## Packing and unpacking, case by case -/

theorem biased_exponent_eq (e : Int) :
    (e + Format.binary64.exponentBias + Format.binary64.mantissaBitsWithoutImplicit).toNat =
      (e + 1075).toNat := by
  change (e + 1023 + 52).toNat = _
  omega

theorem pack_normal (s : Sign) (m : Nat) (e : Int) (hm : 0 < m) (hlog : m.log2 = 52)
    (hlow : -1074 ≤ e) (hhigh : e ≤ 971) :
    UnpackedFloat.pack Format.binary64 (.finite s m e hm) =
      packComponents Format.binary64 s (BitVec.ofNat 11 (e + 1075).toNat) (BitVec.ofNat 52 m) := by
  have hbias := biased_exponent_eq e
  simp only [UnpackedFloat.pack, hbias]
  rw [if_neg (by change ¬ 2048 ≤ (e + 1075).toNat + 1; omega),
    if_pos (by change m.log2 + 1 = 53; omega)]

theorem pack_subnormal (s : Sign) (m : Nat) (hm : 0 < m) (hlog : m.log2 < 52) :
    UnpackedFloat.pack Format.binary64 (.finite s m (-1074) hm) =
      packComponents Format.binary64 s 0#11 (BitVec.ofNat 52 m) := by
  simp only [UnpackedFloat.pack]
  rw [if_neg (by decide), if_neg (by change ¬ m.log2 + 1 = 53; omega)]

theorem unpack_eq (b : BitVec 64) :
    UnpackedFloat.unpack Format.binary64 b =
      if exponentOf b = -1#11 then
        if mantissaOf b = 0#52 then .infinity (Sign.ofBitVec (signOf b)) else .notANumber
      else if exponentOf b = 0#11 then
        if h : mantissaOf b = 0#52 then .zero (Sign.ofBitVec (signOf b))
        else .finite (Sign.ofBitVec (signOf b)) (mantissaOf b).toNat (-1074)
          (by simpa [BitVec.toNat_pos, BitVec.pos_iff_ne_zero])
      else
        .finite (Sign.ofBitVec (signOf b)) (2 ^ 52 + (mantissaOf b).toNat)
          ((exponentOf b).toNat - 1075) (by omega) := by
  have hm : (1#1 ++ mantissaOf b).toNat = 2 ^ 52 + (mantissaOf b).toNat := by
    rw [BitVec.toNat_append, ← Nat.shiftLeft_add_eq_or_of_lt (mantissaOf b).isLt]
    rfl
  unfold UnpackedFloat.unpack
  simp only
  split
  · rfl
  · split
    · next h0 =>
      split
      · rfl
      · simp only [h0]
        rfl
    · congr 1

/-! ## Canonical numbers -/

/-- An unpacked number that is rounded to the format: its mantissa has all 53 bits, or its exponent
is the least one. -/
def Canonical : UnpackedFloat → Prop
  | .finite _ m e _ => (m.log2 = 52 ∧ -1074 ≤ e ∧ e ≤ 971) ∨ (m.log2 < 52 ∧ e = -1074)
  | _ => True

theorem canonical_unpack (b : BitVec 64) : Canonical (UnpackedFloat.unpack Format.binary64 b) := by
  have hm := (mantissaOf b).isLt
  have hx := (exponentOf b).isLt
  rw [unpack_eq]
  split
  · split <;> trivial
  · next he =>
    split
    · split
      · trivial
      · next hz =>
        have hpos : (mantissaOf b).toNat ≠ 0 := fun h => hz (BitVec.eq_of_toNat_eq (by simpa using h))
        exact Or.inr ⟨(Nat.log2_lt hpos).mpr hm, rfl⟩
    · next h0 =>
      have hne : (exponentOf b).toNat ≠ 2047 := fun h => he (BitVec.eq_of_toNat_eq (by simpa using h))
      have hpos : (exponentOf b).toNat ≠ 0 := fun h => h0 (BitVec.eq_of_toNat_eq (by simpa using h))
      refine Or.inl ⟨?_, by omega, by omega⟩
      rw [Nat.log2_eq_iff (by omega)]
      omega

theorem finite_congr {m m' : Nat} {e e' : Int} (s : Sign) (h : 0 < m) (h' : 0 < m') (hm : m = m')
    (he : e = e') : UnpackedFloat.finite s m e h = .finite s m' e' h' := by
  subst hm he
  rfl

theorem ofNat_ne {w n : Nat} {b : BitVec w} (hn : n < 2 ^ w) (h : n ≠ b.toNat) :
    BitVec.ofNat w n ≠ b := by
  rintro rfl
  exact h (BitVec.toNat_ofNat n w ▸ (Nat.mod_eq_of_lt hn).symm)

theorem unpack_pack_normal (s : Sign) (m : Nat) (e : Int) (hm : 0 < m) (hlog : m.log2 = 52)
    (hlow : -1074 ≤ e) (hhigh : e ≤ 971) :
    UnpackedFloat.unpack Format.binary64 (UnpackedFloat.pack Format.binary64 (.finite s m e hm)) =
      .finite s m e hm := by
  obtain ⟨hleading, hbits⟩ := (Nat.log2_eq_iff hm.ne').mp hlog
  have hexponent : (BitVec.ofNat 11 (e + 1075).toNat).toNat = (e + 1075).toNat :=
    Nat.mod_eq_of_lt (by omega)
  have hmantissa : (BitVec.ofNat 52 m).toNat = m - 2 ^ 52 := by
    rw [BitVec.toNat_ofNat]
    omega
  rw [pack_normal s m e hm hlog hlow hhigh, unpack_eq]
  simp only [signOf_packComponents, exponentOf_packComponents, mantissaOf_packComponents,
    Sign.ofBitVec_toBitVec]
  rw [if_neg (ofNat_ne (by omega) (by change _ ≠ 2047; omega)),
    if_neg (ofNat_ne (by omega) (by change _ ≠ 0; omega))]
  exact finite_congr s _ _ (by omega) (by omega)

theorem unpack_pack_subnormal (s : Sign) (m : Nat) (hm : 0 < m) (hlog : m.log2 < 52) :
    UnpackedFloat.unpack Format.binary64 (UnpackedFloat.pack Format.binary64 (.finite s m (-1074) hm)) =
      .finite s m (-1074) hm := by
  have hbits : m < 2 ^ 52 := (Nat.log2_lt hm.ne').mp hlog
  rw [pack_subnormal s m hm hlog, unpack_eq]
  simp only [signOf_packComponents, exponentOf_packComponents, mantissaOf_packComponents,
    Sign.ofBitVec_toBitVec]
  have hne : BitVec.ofNat 52 m ≠ 0#52 := ofNat_ne hbits hm.ne'
  rw [if_neg (by decide), if_pos trivial, dif_neg hne]
  exact finite_congr s _ _ (Nat.mod_eq_of_lt hbits) rfl

/-- Packing loses nothing of a canonical number. -/
theorem unpack_pack (f : UnpackedFloat) (hf : Canonical f) :
    UnpackedFloat.unpack Format.binary64 (UnpackedFloat.pack Format.binary64 f) = f := by
  cases f with
  | notANumber => rfl
  | infinity s => cases s <;> rfl
  | zero s => cases s <;> rfl
  | finite s m e hm =>
    obtain ⟨hlog, hlow, hhigh⟩ | ⟨hlog, rfl⟩ := hf
    · exact unpack_pack_normal s m e hm hlog hlow hhigh
    · exact unpack_pack_subnormal s m hm hlog

/-! ## Order -/

/-- The place of an unpacked number in the order of numbers: exponent before mantissa. -/
def place : UnpackedFloat → Int
  | .notANumber => 0
  | .zero _ => 0
  | .finite s m e _ => s.apply ((e + 1075) * 2 ^ 53 + m)
  | .infinity s => s.apply (2048 * 2 ^ 53)

/-- The size of a canonical finite number stands between those of zero and infinity. -/
theorem Canonical.bounds {s : Sign} {m : Nat} {e : Int} {hm : 0 < m}
    (h : Canonical (.finite s m e hm)) : m < 2 ^ 53 ∧ -1074 ≤ e ∧ e ≤ 971 := by
  obtain ⟨hlog, hlow, hhigh⟩ | ⟨hlog, rfl⟩ := h
  · exact ⟨((Nat.log2_eq_iff (by omega)).mp hlog).2, hlow, hhigh⟩
  · have := (Nat.log2_lt (by omega)).mp hlog
    omega

theorem Canonical.place_positive {m : Nat} {e : Int} {hm : 0 < m}
    (h : Canonical (.finite .positive m e hm)) : 0 < place (.finite .positive m e hm) := by
  have := h.bounds
  simp only [place, Sign.apply]
  omega

theorem Canonical.place_negative {m : Nat} {e : Int} {hm : 0 < m}
    (h : Canonical (.finite .negative m e hm)) : place (.finite .negative m e hm) < 0 := by
  have := h.bounds
  simp only [place, Sign.apply]
  omega

theorem Canonical.place_between {s : Sign} {m : Nat} {e : Int} {hm : 0 < m}
    (h : Canonical (.finite s m e hm)) :
    place (.infinity .negative) < place (.finite s m e hm) ∧
      place (.finite s m e hm) < place (.infinity .positive) := by
  have := h.bounds
  cases s <;> simp only [place, Sign.apply] <;> omega

theorem compare_finite {m m' : Nat} {e e' : Int} (hm : m < 2 ^ 53) (hm' : m' < 2 ^ 53) :
    (compare e e').then (compare m m') =
      compare ((e + 1075) * 2 ^ 53 + m) ((e' + 1075) * 2 ^ 53 + (m' : Int)) := by
  rcases Int.lt_trichotomy e e' with h | rfl | h
  · rw [Int.compare_eq_lt.mpr h, Int.compare_eq_lt.mpr (by omega)]
    rfl
  · rw [Int.compare_eq_eq.mpr rfl]
    rcases Nat.lt_trichotomy m m' with h | rfl | h
    · rw [Nat.compare_eq_lt.mpr h, Int.compare_eq_lt.mpr (by omega)]
      rfl
    · rw [Nat.compare_eq_eq.mpr rfl, Int.compare_eq_eq.mpr rfl]
      rfl
    · rw [Nat.compare_eq_gt.mpr h, Int.compare_eq_gt.mpr (by omega)]
      rfl
  · rw [Int.compare_eq_gt.mpr h, Int.compare_eq_gt.mpr (by omega)]
    rfl

theorem compare_neg_neg (p q : Int) : compare (-p) (-q) = compare q p := by
  simp only [Int.compare_eq_ite_lt, Int.neg_lt_neg_iff]

theorem some_lt {p q : Int} (h : p < q) : some .lt = some (compare p q) := by
  rw [Int.compare_eq_lt.mpr h]

theorem some_gt {p q : Int} (h : q < p) : some .gt = some (compare p q) := by
  rw [Int.compare_eq_gt.mpr h]

theorem compare_finite_eq_place {s s' : Sign} {m m' : Nat} {e e' : Int} {hm : 0 < m} {hm' : 0 < m'}
    (h : Canonical (.finite s m e hm)) (h' : Canonical (.finite s' m' e' hm')) :
    (UnpackedFloat.finite s m e hm).compare (.finite s' m' e' hm') =
      some (compare (place (.finite s m e hm)) (place (.finite s' m' e' hm'))) := by
  cases s with
  | positive =>
    cases s' with
    | positive => exact congrArg some (compare_finite h.bounds.1 h'.bounds.1)
    | negative => exact some_gt (h'.place_negative.trans h.place_positive)
  | negative =>
    cases s' with
    | positive => exact some_lt (h.place_negative.trans h'.place_positive)
    | negative =>
      refine congrArg some ?_
      rw [compare_finite h.bounds.1 h'.bounds.1, Int.compare_swap]
      exact (compare_neg_neg _ _).symm

/-- Canonical numbers compare as their places do. -/
theorem compare_eq_place {a b : UnpackedFloat} (ha : Canonical a) (hb : Canonical b)
    (na : a.isNaN = false) (nb : b.isNaN = false) :
    a.compare b = some (compare (place a) (place b)) := by
  cases a with
  | notANumber => cases na
  | zero s =>
    cases b with
    | notANumber => cases nb
    | zero s' => rfl
    | infinity s' => cases s' <;> rfl
    | finite s' m e h =>
      cases s' with
      | positive => exact some_lt hb.place_positive
      | negative => exact some_gt hb.place_negative
  | infinity s =>
    cases b with
    | notANumber => cases nb
    | zero s' => cases s <;> rfl
    | infinity s' => cases s <;> cases s' <;> rfl
    | finite s' m e h =>
      cases s with
      | positive => exact some_gt hb.place_between.2
      | negative => exact some_lt hb.place_between.1
  | finite s m e h =>
    cases b with
    | notANumber => cases nb
    | zero s' =>
      cases s with
      | positive => exact some_gt ha.place_positive
      | negative => exact some_lt ha.place_negative
    | infinity s' =>
      cases s' with
      | positive => cases s <;> exact some_lt ha.place_between.2
      | negative => cases s <;> exact some_gt ha.place_between.1
    | finite s' m' e' h' => exact compare_finite_eq_place ha hb

/-! ## Numbers as they are computed with -/

abbrev unpacked (x : Float) : UnpackedFloat := x.toModel.unpack

theorem canonical_unpacked (x : Float) : Canonical (unpacked x) :=
  canonical_unpack _

theorem unpacked_pack (f : UnpackedFloat) (hf : Canonical f) :
    unpacked (.ofModel (Float.Model.pack f)) = f :=
  unpack_pack f hf

/-- A finite number that is too large is packed as infinity is. -/
theorem mantissaOf_pack_eq_zero (s : Sign) (m : Nat) (e : Int) (hm : 0 < m)
    (h : exponentOf (UnpackedFloat.pack Format.binary64 (.finite s m e hm)) = -1#11) :
    mantissaOf (UnpackedFloat.pack Format.binary64 (.finite s m e hm)) = 0#52 := by
  simp only [UnpackedFloat.pack] at h ⊢
  split
  · exact mantissaOf_packComponents _ _ _
  · next hsmall =>
    rw [if_neg hsmall] at h
    split at h
    · rw [exponentOf_packComponents] at h
      have hvalue := congrArg BitVec.toNat h
      rw [BitVec.toNat_ofNat] at hvalue
      change _ % 2048 = 2047 at hvalue
      change ¬ 2048 ≤ _ + 1 at hsmall
      omega
    · rw [exponentOf_packComponents] at h
      cases h

/-- Packing makes a finite number that is too large infinite, and nothing but no number no number. -/
theorem isNaN_unpacked_pack (f : UnpackedFloat) (hf : f.isNaN = false) :
    (unpacked (.ofModel (Float.Model.pack f))).isNaN = false := by
  change (UnpackedFloat.unpack Format.binary64 (UnpackedFloat.pack Format.binary64 f)).isNaN = false
  cases f with
  | notANumber => cases hf
  | infinity s => cases s <;> rfl
  | zero s => cases s <;> rfl
  | finite s m e hm =>
    rw [unpack_eq]
    split
    · next hones =>
      rw [if_pos (mantissaOf_pack_eq_zero s m e hm hones)]
      rfl
    · split
      · split <;> rfl
      · rfl

theorem ne_nan_iff {x : Float} : x ≠ .nan ↔ (unpacked x).isNaN = false := by
  change _ ↔ x.isNaN = false
  rw [Float.isNaN_eq_decide_eq_nan, decide_eq_false_iff_not]

theorem isFinite_iff {x : Float} : x.isFinite = true ↔ x.isNaN = false ∧ x.isInf = false := by
  change (unpacked x).isFinite = true ↔ (unpacked x).isNaN = false ∧ (unpacked x).isInf = false
  cases unpacked x with
  | notANumber => exact ⟨nofun, nofun⟩
  | infinity s => exact ⟨nofun, nofun⟩
  | zero s => exact ⟨fun _ => ⟨rfl, rfl⟩, fun _ => rfl⟩
  | finite s m e hm => exact ⟨fun _ => ⟨rfl, rfl⟩, fun _ => rfl⟩

theorem isNaN_of_isFinite {x : Float} (h : x.isFinite = true) : (unpacked x).isNaN = false :=
  (isFinite_iff.mp h).1

theorem isNaN_of_isInf {x : Float} (h : x.isInf = true) : (unpacked x).isNaN = false := by
  change (unpacked x).isInf = true at h
  cases hx : unpacked x with
  | infinity s => rfl
  | _ =>
    rw [hx] at h
    cases h

theorem neg_ne_nan {x : Float} (hx : x ≠ .nan) : -x ≠ .nan := by
  rw [ne_nan_iff] at hx ⊢
  refine isNaN_unpacked_pack _ ?_
  change x.toModel.unpack.isNaN = false at hx
  cases h : x.toModel.unpack with
  | notANumber =>
    rw [h] at hx
    cases hx
  | _ => rfl

theorem unpacked_abs (x : Float) : unpacked x.abs = (unpacked x).abs := by
  have h := canonical_unpacked x
  refine unpacked_pack _ ?_
  cases hx : unpacked x <;> simp_all [UnpackedFloat.abs, Canonical]

theorem isNaN_abs (x : Float) : (unpacked x.abs).isNaN = (unpacked x).isNaN := by
  rw [unpacked_abs]
  cases unpacked x <;> rfl

theorem place_abs (x : Float) : place (unpacked x.abs) = (place (unpacked x)).natAbs := by
  have h := canonical_unpacked x
  rw [unpacked_abs]
  cases hx : unpacked x with
  | notANumber => rfl
  | zero s => rfl
  | infinity s => cases s <;> rfl
  | finite s m e hm =>
    rw [hx] at h
    have := h.bounds
    cases s <;> simp only [place, UnpackedFloat.abs, Sign.apply] <;> omega

/-- Less, among numbers, means an earlier place. -/
theorem lt_iff {x y : Float} (hx : (unpacked x).isNaN = false) (hy : (unpacked y).isNaN = false) :
    x < y ↔ place (unpacked x) < place (unpacked y) := by
  change Float.lt x y = true ↔ _
  unfold Float.lt
  rw [decide_eq_true_iff]
  change (unpacked x).lt (unpacked y) = true ↔ _
  rw [UnpackedFloat.lt, compare_eq_place (canonical_unpacked x) (canonical_unpacked y) hx hy,
    beq_iff_eq, Option.some.injEq, Int.compare_eq_lt]

theorem le_iff {x y : Float} (hx : (unpacked x).isNaN = false) (hy : (unpacked y).isNaN = false) :
    x ≤ y ↔ place (unpacked x) ≤ place (unpacked y) := by
  change Float.le x y = true ↔ _
  unfold Float.le
  rw [decide_eq_true_iff]
  change (unpacked x).le (unpacked y) = true ↔ _
  rw [UnpackedFloat.le, compare_eq_place (canonical_unpacked x) (canonical_unpacked y) hx hy,
    Option.any_some, Int.isLE_compare]

theorem isNaN_of_lt {x y : Float} (h : x < y) :
    (unpacked x).isNaN = false ∧ (unpacked y).isNaN = false := by
  have hlt : (unpacked x).lt (unpacked y) = true := of_decide_eq_true h
  cases hx : unpacked x with
  | notANumber => simp [hx, UnpackedFloat.lt, UnpackedFloat.compare] at hlt
  | _ =>
    cases hy : unpacked y with
    | notANumber => simp [hx, hy, UnpackedFloat.lt, UnpackedFloat.compare] at hlt
    | _ => exact ⟨rfl, rfl⟩

theorem isNaN_of_le {x y : Float} (h : x ≤ y) :
    (unpacked x).isNaN = false ∧ (unpacked y).isNaN = false := by
  have hle : (unpacked x).le (unpacked y) = true := of_decide_eq_true h
  cases hx : unpacked x with
  | notANumber => simp [hx, UnpackedFloat.le, UnpackedFloat.compare] at hle
  | _ =>
    cases hy : unpacked y with
    | notANumber => simp [hx, hy, UnpackedFloat.le, UnpackedFloat.compare] at hle
    | _ => exact ⟨rfl, rfl⟩

theorem lt_trans {x y z : Float} (hxy : x < y) (hyz : y < z) : x < z := by
  obtain ⟨hx, hy⟩ := isNaN_of_lt hxy
  have hz := (isNaN_of_lt hyz).2
  rw [lt_iff hx hy] at hxy
  rw [lt_iff hy hz] at hyz
  rw [lt_iff hx hz]
  exact Int.lt_trans hxy hyz

theorem le_refl {x : Float} (hx : (unpacked x).isNaN = false) : x ≤ x :=
  (le_iff hx hx).mpr (Int.le_refl _)

theorem le_trans {x y z : Float} (hxy : x ≤ y) (hyz : y ≤ z) : x ≤ z := by
  obtain ⟨hx, hy⟩ := isNaN_of_le hxy
  have hz := (isNaN_of_le hyz).2
  rw [le_iff hx hy] at hxy
  rw [le_iff hy hz] at hyz
  rw [le_iff hx hz]
  exact Int.le_trans hxy hyz

theorem lt_asymm {x y : Float} (h : x < y) : ¬ y < x := by
  obtain ⟨hx, hy⟩ := isNaN_of_lt h
  rw [lt_iff hx hy] at h
  rw [lt_iff hy hx]
  omega

theorem beq_iff {x y : Float} (hx : (unpacked x).isNaN = false) (hy : (unpacked y).isNaN = false) :
    (x == y) = true ↔ place (unpacked x) = place (unpacked y) := by
  change (unpacked x).beq (unpacked y) = true ↔ _
  rw [UnpackedFloat.beq, compare_eq_place (canonical_unpacked x) (canonical_unpacked y) hx hy,
    beq_iff_eq, Option.some.injEq, Int.compare_eq_eq]

theorem beq_of_gt {x y : Float} (h : x < y) : (y == x) = false := by
  obtain ⟨hx, hy⟩ := isNaN_of_lt h
  rw [lt_iff hx hy] at h
  rw [Bool.eq_false_iff, Ne, beq_iff hy hx]
  omega

theorem beq_symm {x y : Float} (h : (x == y) = true) : (y == x) = true := by
  grind [Float.beq_iff_ne_nan_and_eq]

theorem beq_trans {x y z : Float} (hxy : (x == y) = true) (hyz : (y == z) = true) :
    (x == z) = true := by
  grind [Float.beq_iff_ne_nan_and_eq]

theorem isFinite_of_abs_lt {x t : Float} (h : x.abs < t) : x.isFinite = true := by
  have hlt : (unpacked x.abs).lt (unpacked t) = true := of_decide_eq_true h
  rw [unpacked_abs] at hlt
  change (unpacked x).isFinite = true
  cases hx : unpacked x with
  | notANumber =>
    rw [hx] at hlt
    cases hlt
  | infinity s =>
    rw [hx] at hlt
    cases ht : unpacked t with
    | infinity s =>
      rw [ht] at hlt
      cases s <;> cases hlt
    | _ =>
      rw [ht] at hlt
      cases hlt
  | _ => rfl

theorem abs_lt_of_beq_zero {x t : Float} (hx : (x == 0) = true) (ht : 0 < t) : x.abs < t := by
  have hbeq : (unpacked x).beq (unpacked 0) = true := hx
  have hzero : unpacked 0 = .zero .positive := rfl
  have hn : (unpacked x).isNaN = false := by
    cases h : unpacked x with
    | notANumber => simp [h, UnpackedFloat.beq, UnpackedFloat.compare] at hbeq
    | _ => rfl
  rw [hzero, UnpackedFloat.beq,
    compare_eq_place (b := .zero .positive) (canonical_unpacked x) trivial hn rfl, beq_iff_eq,
    Option.some.injEq, Int.compare_eq_eq] at hbeq
  obtain ⟨h0, hy⟩ := isNaN_of_lt ht
  rw [lt_iff h0 hy, hzero] at ht
  rw [lt_iff (by rwa [isNaN_abs]) hy, place_abs, hbeq]
  exact ht

theorem divCore_self {m : Nat} (hm : 0 < m) (e : Int) :
    divCore Format.binary64 m e m e = (2 ^ 53, -53, .exact) := by
  have hquotient : (m <<< 53) / m = 2 ^ 53 := by
    rw [Nat.shiftLeft_eq, Nat.mul_div_cancel_left _ hm]
  have hremainder : (m <<< 53) % m = 0 := by
    rw [Nat.shiftLeft_eq, Nat.mul_mod_right]
  simp only [divCore, Int.sub_self]
  change ((m <<< 53) / m, (-53 : Int), accuracyOfFraction ((m <<< 53) % m) m) = _
  rw [hquotient, hremainder]
  rfl

/-- A finite number other than zero, divided by its magnitude, is one or minus one. -/
theorem div_abs {x : Float} (hfinite : x.abs.isFinite = true) (hne : (x.abs == 0) = false) :
    x / x.abs = 1 ∨ x / x.abs = -1 := by
  have hdiv : x / x.abs = .ofModel (Float.Model.pack
      (UnpackedFloat.div Format.binary64 (unpacked x) (unpacked x.abs))) := rfl
  change (unpacked x.abs).isFinite = true at hfinite
  change (unpacked x.abs).beq (.zero .positive) = false at hne
  rw [unpacked_abs] at hfinite hne hdiv
  cases hx : unpacked x with
  | notANumber =>
    rw [hx] at hfinite
    cases hfinite
  | infinity s =>
    rw [hx] at hfinite
    cases hfinite
  | zero s =>
    rw [hx] at hne
    cases hne
  | finite s m e hm =>
    rw [hdiv, hx]
    simp only [UnpackedFloat.abs, UnpackedFloat.div, divCore_self hm]
    cases s with
    | positive => exact Or.inl (by rfl)
    | negative => exact Or.inr (by rfl)

end AnswerCheck.Binary64
