import AnswerCheck.Proofs.Decimal.Rendering
import AnswerCheck.Proofs.Decimal.Shortest

/-! # Numbers that differ in the sign of zero at most

Sums, differences, products, square roots and magnitudes of such numbers differ in the sign of zero
at most again, and so do quotients by numbers that are not zero.
-/

set_option autoImplicit false

namespace AnswerCheck.Binary64

open Float.Model (Format)
open Float.Model.UnpackedFloat hiding pack unpack

/-- The number without the sign of a zero. -/
def withoutZeroSign : Float.Model.UnpackedFloat → Float.Model.UnpackedFloat
  | .zero _ => .zero .positive
  | f => f

/-- The numbers are equal or both zero. -/
def SameUpToZero (x y : Float) : Prop :=
  withoutZeroSign (unpacked x) = withoutZeroSign (unpacked y)

variable {x x' y y' : Float}

theorem SameUpToZero.refl (x : Float) : SameUpToZero x x := rfl

theorem eq_of_unpacked_zero {s : Sign} (h : unpacked x = .zero s) : x = 0 ∨ x = -0 := by
  have hx := pack_unpacked x
  rw [h] at hx
  cases s with
  | positive => exact Or.inl (hx.symm.trans (by rfl))
  | negative => exact Or.inr (hx.symm.trans (by rfl))

theorem SameUpToZero.cases (h : SameUpToZero x y) :
    x = y ∨ (x = 0 ∨ x = -0) ∧ (y = 0 ∨ y = -0) := by
  have hpack (heq : unpacked x = unpacked y) : x = y := by
    rw [← pack_unpacked x, ← pack_unpacked y, heq]
  unfold SameUpToZero at h
  cases hx : unpacked x with
  | zero s =>
    cases hy : unpacked y with
    | zero t => exact Or.inr ⟨eq_of_unpacked_zero hx, eq_of_unpacked_zero hy⟩
    | _ =>
      rw [hx, hy] at h
      cases h
  | _ =>
    cases hy : unpacked y with
    | zero t =>
      rw [hx, hy] at h
      cases h
    | _ =>
      rw [hx, hy] at h
      exact Or.inl (hpack (hx.trans (h.trans hy.symm)))

theorem sameUpToZero_of_beq (h : (x == y) = true) : SameUpToZero x y := by
  obtain ⟨-, -, rfl | ⟨rfl, rfl⟩ | ⟨rfl, rfl⟩⟩ := Float.beq_iff_ne_nan_and_eq.mp h
  all_goals rfl

/-- What does not tell the zeros apart does not tell such numbers apart. -/
theorem SameUpToZero.congr {α : Type} (h : SameUpToZero x y) {f : Float → α} (hf : f 0 = f (-0)) :
    f x = f y := by
  obtain rfl | ⟨rfl | rfl, rfl | rfl⟩ := h.cases
  · rfl
  · rfl
  · exact hf
  · exact hf.symm
  · rfl

/-- Such numbers are shown by the same text. -/
theorem SameUpToZero.calculatorText_eq (h : SameUpToZero x y) (places : Option Nat) :
    Decimal.calculatorText x places = Decimal.calculatorText y places := by
  refine h.congr (f := fun x => Decimal.calculatorText x places) ?_
  have hzero : (Decimal.ofFloat 0).coefficient = 0 ∧ (Decimal.ofFloat (-0)).coefficient = 0 := by
    decide +kernel
  simp only [Decimal.calculatorText_of_zero (x := 0) (by rfl) hzero.1 (by rfl),
    Decimal.calculatorText_of_zero (x := -0) (by rfl) hzero.2 (by rfl)]

/-! ## Operations on unpacked numbers -/

variable (f g : Float.Model.UnpackedFloat)

theorem withoutZeroSign_pack :
    withoutZeroSign (unpacked (.ofModel (Float.Model.pack f))) =
      withoutZeroSign (unpacked (.ofModel (Float.Model.pack (withoutZeroSign f)))) := by
  cases f with
  | zero s => cases s <;> rfl
  | _ => rfl

theorem withoutZeroSign_add : withoutZeroSign (Float.Model.UnpackedFloat.add .binary64 f g) =
    withoutZeroSign (.add .binary64 (withoutZeroSign f) (withoutZeroSign g)) := by
  cases f <;> cases g <;> try rfl
  next s t => cases s <;> cases t <;> rfl

theorem withoutZeroSign_sub : withoutZeroSign (Float.Model.UnpackedFloat.sub .binary64 f g) =
    withoutZeroSign (.sub .binary64 (withoutZeroSign f) (withoutZeroSign g)) := by
  cases f <;> cases g <;> try rfl
  next s t => cases s <;> cases t <;> rfl

theorem withoutZeroSign_mul : withoutZeroSign (Float.Model.UnpackedFloat.mul .binary64 f g) =
    withoutZeroSign (.mul .binary64 (withoutZeroSign f) (withoutZeroSign g)) := by
  cases f <;> cases g <;> rfl

theorem withoutZeroSign_div : withoutZeroSign (Float.Model.UnpackedFloat.div .binary64 f g) =
    withoutZeroSign (.div .binary64 (withoutZeroSign f) g) := by
  cases f <;> cases g <;> rfl

theorem withoutZeroSign_sqrt : withoutZeroSign (Float.Model.UnpackedFloat.sqrt .binary64 f) =
    withoutZeroSign (.sqrt .binary64 (withoutZeroSign f)) := by
  cases f <;> rfl

theorem withoutZeroSign_neg : withoutZeroSign (Float.Model.UnpackedFloat.neg f) =
    withoutZeroSign (.neg (withoutZeroSign f)) := by
  cases f <;> rfl

theorem withoutZeroSign_abs : withoutZeroSign (Float.Model.UnpackedFloat.abs f) =
    withoutZeroSign (.abs (withoutZeroSign f)) := by
  cases f <;> rfl

/-! ## Operations -/

namespace SameUpToZero

variable {f g : Float.Model.UnpackedFloat}

theorem pack (h : withoutZeroSign f = withoutZeroSign g) :
    SameUpToZero (.ofModel (Float.Model.pack f)) (.ofModel (Float.Model.pack g)) := by
  rw [SameUpToZero, withoutZeroSign_pack f, h, ← withoutZeroSign_pack g]

theorem add (hx : SameUpToZero x x') (hy : SameUpToZero y y') : SameUpToZero (x + y) (x' + y') := by
  refine pack (f := .add .binary64 (unpacked x) (unpacked y)) ?_
  rw [withoutZeroSign_add, hx, hy, ← withoutZeroSign_add]

theorem sub (hx : SameUpToZero x x') (hy : SameUpToZero y y') : SameUpToZero (x - y) (x' - y') := by
  refine pack (f := .sub .binary64 (unpacked x) (unpacked y)) ?_
  rw [withoutZeroSign_sub, hx, hy, ← withoutZeroSign_sub]

theorem mul (hx : SameUpToZero x x') (hy : SameUpToZero y y') : SameUpToZero (x * y) (x' * y') := by
  refine pack (f := .mul .binary64 (unpacked x) (unpacked y)) ?_
  rw [withoutZeroSign_mul, hx, hy, ← withoutZeroSign_mul]

theorem div (hx : SameUpToZero x x') (y : Float) : SameUpToZero (x / y) (x' / y) := by
  refine pack (f := .div .binary64 (unpacked x) (unpacked y)) ?_
  rw [withoutZeroSign_div, hx, ← withoutZeroSign_div]

theorem sqrt (hx : SameUpToZero x x') : SameUpToZero x.sqrt x'.sqrt := by
  refine pack (f := .sqrt .binary64 (unpacked x)) ?_
  rw [withoutZeroSign_sqrt, hx, ← withoutZeroSign_sqrt]

theorem neg (hx : SameUpToZero x x') : SameUpToZero (-x) (-x') := by
  refine pack (f := .neg (unpacked x)) ?_
  rw [withoutZeroSign_neg, hx, ← withoutZeroSign_neg]

theorem abs (hx : SameUpToZero x x') : SameUpToZero x.abs x'.abs := by
  refine pack (f := .abs (unpacked x)) ?_
  rw [withoutZeroSign_abs, hx, ← withoutZeroSign_abs]

end SameUpToZero

end AnswerCheck.Binary64
