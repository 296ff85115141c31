import AnswerCheck.Proofs.Spelling.Progress
import Mathlib.Logic.Function.Iterate

/-! # When the ASCII spelling is final

Spelling a text in ASCII makes a fixed number of passes. Since no pass leads back to an earlier
text, spelling the result again changes nothing exactly if the passes were enough for the text to
settle. A number with many points before its exponent is a text for which they are not enough.
-/

set_option autoImplicit false

namespace AnswerCheck.Spelling

open Text

/-! ## Passes in a row -/

theorem iterate_pass_tidierOrSame (n : Nat) (s : List Char) : TidierOrSame (pass^[n] s) s := by
  induction n with
  | zero => exact Or.inl rfl
  | succ n ih =>
    rw [Function.iterate_succ_apply']
    exact congruence_tidierOrSame.trans (pass_tidierOrSame _) ih

/-- A text that comes back after some passes is one that a single pass leaves alone. -/
theorem pass_eq_self_of_iterate {n : Nat} {s : List Char} (h : pass^[n + 1] s = s) : pass s = s := by
  obtain hsame | hfirst := pass_tidierOrSame s
  · exact hsame
  · have hback := iterate_pass_tidierOrSame n (pass s)
    rw [← Function.iterate_succ_apply, h] at hback
    obtain hsame | hlast := hback
    · exact hsame.symm
    · exact absurd (hlast.trans hfirst) (Tidier.irrefl s)

/-- Stopping where nothing changes makes no difference. -/
theorem settleWithin_eq_iterate (step : List Char → List Char) (n : Nat) (s : List Char) :
    settleWithin step n s = step^[n] s := by
  induction n generalizing s with
  | zero => rfl
  | succ n ih =>
    rw [settleWithin]
    split
    · next hsame => exact (Function.iterate_fixed hsame (n + 1)).symm
    · rw [ih, Function.iterate_succ_apply]

/-- The ASCII spelling is the outcome of all passes. -/
theorem asciiText_eq_iterate (s : List Char) : asciiText s = pass^[maxPasses] s := by
  unfold asciiText
  split
  · next hempty =>
    have hnil : pass [] = [] := by decide
    rw [List.isEmpty_iff.mp hempty]
    exact (Function.iterate_fixed hnil maxPasses).symm
  · rw [settleWithin_eq_iterate, ← Function.iterate_succ_apply]
    rfl

/-! ## Settled texts -/

/-- The text stops changing within this many passes. -/
def SettlesWithin (n : Nat) (s : List Char) : Prop :=
  ∃ k ≤ n, pass^[k + 1] s = pass^[k] s

theorem settlesWithin_iff {n : Nat} {s : List Char} :
    SettlesWithin n s ↔ pass (pass^[n] s) = pass^[n] s := by
  constructor
  · rintro ⟨k, hk, hsame⟩
    rw [Function.iterate_succ_apply'] at hsame
    obtain ⟨m, rfl⟩ := Nat.exists_eq_add_of_le' hk
    rw [Function.iterate_add_apply, Function.iterate_fixed hsame, hsame]
  · intro hsame
    exact ⟨n, Nat.le_refl n, by rw [Function.iterate_succ_apply', hsame]⟩

/-- The ASCII spelling is final exactly for the texts that settle within the passes that are made:
spelling it again changes nothing, and a pass changes nothing. -/
theorem asciiText_idempotent_iff (s : List Char) :
    (asciiText (asciiText s) = asciiText s ↔ SettlesWithin maxPasses s) ∧
      (pass (asciiText s) = asciiText s ↔ SettlesWithin maxPasses s) := by
  rw [asciiText_eq_iterate (asciiText s), asciiText_eq_iterate s, settlesWithin_iff]
  refine ⟨⟨fun h => pass_eq_self_of_iterate h, fun h => Function.iterate_fixed h maxPasses⟩, Iff.rfl⟩

/-- Each pass takes one fraction off a number with many points, and there are too many of them. -/
theorem asciiText_not_idempotent :
    asciiText (asciiText "0.0.0.0.0.0.0.0.0.0.0.0.0.0.0.0.0.0e1".toList) ≠
      asciiText "0.0.0.0.0.0.0.0.0.0.0.0.0.0.0.0.0.0e1".toList := by
  decide +kernel

end AnswerCheck.Spelling
