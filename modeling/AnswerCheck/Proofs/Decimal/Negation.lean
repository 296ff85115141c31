import AnswerCheck.Proofs.Decimal.ZeroSigns

/-! # Negated numbers

Rounding treats both signs alike, so a difference taken the other way round is the negated difference,
up to the sign of zero. Such numbers have the same magnitude and, unless they are zero, opposite signs.
-/

set_option autoImplicit false

namespace AnswerCheck.Binary64

open Float.Model (Format)
open Float.Model.UnpackedFloat hiding pack unpack

variable {x y : Float}

/-! ## Packed numbers -/

theorem unpacked_neg (x : Float) : unpacked (-x) = (unpacked x).neg := by
  have h := canonical_unpacked x
  refine unpacked_pack _ ?_
  cases hx : unpacked x <;> simp_all [Float.Model.UnpackedFloat.neg, Canonical]

theorem unpack_packComponents_neg (s : Sign) (e : BitVec 11) (m : BitVec 52) :
    Float.Model.UnpackedFloat.unpack .binary64 (packComponents .binary64 (-s) e m) =
      (Float.Model.UnpackedFloat.unpack .binary64 (packComponents .binary64 s e m)).neg := by
  simp only [unpack_eq, signOf_packComponents, exponentOf_packComponents, mantissaOf_packComponents,
    Sign.ofBitVec_toBitVec]
  split
  · split <;> rfl
  · split
    · split <;> rfl
    · rfl

/-- The sign goes through packing unchanged, also where packing overflows. -/
theorem unpacked_pack_neg (f : Float.Model.UnpackedFloat) :
    unpacked (.ofModel (Float.Model.pack f.neg)) = (unpacked (.ofModel (Float.Model.pack f))).neg := by
  change Float.Model.UnpackedFloat.unpack .binary64 (Float.Model.UnpackedFloat.pack .binary64 f.neg) =
    (Float.Model.UnpackedFloat.unpack .binary64 (Float.Model.UnpackedFloat.pack .binary64 f)).neg
  cases f with
  | notANumber => rfl
  | infinity s => cases s <;> rfl
  | zero s => cases s <;> rfl
  | finite s m e hm =>
    simp only [Float.Model.UnpackedFloat.neg, Float.Model.UnpackedFloat.pack]
    split
    · exact unpack_packComponents_neg s _ _
    · split
      · exact unpack_packComponents_neg s _ _
      · exact unpack_packComponents_neg s _ _

/-! ## Differences -/

theorem round_neg (s : Sign) (m : Nat) (e : Int) :
    Float.Model.UnpackedFloat.round .binary64 (-s) m e =
      (Float.Model.UnpackedFloat.round .binary64 s m e).neg := by
  unfold Float.Model.UnpackedFloat.round roundWithAccuracy
  simp only
  split <;> rfl

theorem withoutZeroSign_normalize_neg (m e : Int) :
    withoutZeroSign (Float.Model.UnpackedFloat.normalize .binary64 (-m) e .positive) =
      withoutZeroSign (Float.Model.UnpackedFloat.normalize .binary64 m e .positive).neg := by
  unfold Float.Model.UnpackedFloat.normalize
  obtain h | rfl | h := Int.lt_trichotomy m 0
  · rw [Int.compare_eq_lt.mpr h, Int.compare_eq_gt.mpr (by omega)]
    exact congrArg withoutZeroSign (round_neg .negative _ e)
  · rfl
  · rw [Int.compare_eq_gt.mpr h, Int.compare_eq_lt.mpr (by omega), Int.neg_neg]
    exact congrArg withoutZeroSign (round_neg .positive _ e)

theorem withoutZeroSign_sub_swap (f g : Float.Model.UnpackedFloat) :
    withoutZeroSign (Float.Model.UnpackedFloat.sub .binary64 g f) =
      withoutZeroSign (Float.Model.UnpackedFloat.sub .binary64 f g).neg := by
  cases f with
  | finite s m e hm =>
    cases g with
    | finite t n k hn =>
      simp only [Float.Model.UnpackedFloat.sub, min_comm k e]
      rw [← withoutZeroSign_normalize_neg, Int.neg_sub]
    | zero t => rfl
    | infinity t => cases t <;> rfl
    | notANumber => rfl
  | zero s =>
    cases g with
    | finite t n k hn => cases t <;> rfl
    | zero t => cases s <;> cases t <;> rfl
    | infinity t => cases t <;> rfl
    | notANumber => rfl
  | infinity s => cases g <;> cases s <;> first | rfl | (next t => cases t <;> rfl)
  | notANumber => cases g <;> rfl

/-- A difference taken the other way round is the negated difference, up to the sign of zero. -/
theorem sub_swap (x y : Float) : SameUpToZero (y - x) (-(x - y)) := by
  have hneg : unpacked (-(x - y)) = unpacked (.ofModel (Float.Model.pack
      (Float.Model.UnpackedFloat.sub .binary64 (unpacked x) (unpacked y)).neg)) :=
    (unpacked_neg (x - y)).trans (unpacked_pack_neg _).symm
  rw [SameUpToZero, hneg]
  exact SameUpToZero.pack (withoutZeroSign_sub_swap (unpacked x) (unpacked y))

/-! ## Magnitude and sign -/

theorem isFinite_of_sameUpToZero (h : SameUpToZero x y) : x.isFinite = y.isFinite :=
  h.congr (f := Float.isFinite) (by decide)

theorem isFinite_neg (x : Float) : (-x).isFinite = x.isFinite := by
  change (unpacked (-x)).isFinite = (unpacked x).isFinite
  rw [unpacked_neg]
  cases unpacked x <;> rfl

theorem abs_neg_eq (x : Float) : (-x).abs = x.abs := by
  rw [← pack_unpacked (-x).abs, ← pack_unpacked x.abs, unpacked_abs, unpacked_abs, unpacked_neg]
  cases unpacked x <;> rfl

theorem place_neg (x : Float) : place (unpacked (-x)) = -place (unpacked x) := by
  rw [unpacked_neg]
  cases unpacked x with
  | finite s m e hm => cases s <;> simp [Float.Model.UnpackedFloat.neg, place, Sign.apply]
  | infinity s => cases s <;> rfl
  | _ => rfl

end AnswerCheck.Binary64
