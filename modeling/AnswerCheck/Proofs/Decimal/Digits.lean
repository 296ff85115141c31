import AnswerCheck.Decimal.Digits
import Mathlib

/-! # Digit strings and their numbers

Digit strings of one length are told apart by their values, so a natural number has one digit string
of each sufficient length, and just one without zeros in front.
-/

set_option autoImplicit false

namespace AnswerCheck.Decimal

/-- A run of digits, which may be empty. -/
def IsDigits (ds : List Char) : Prop :=
  ∀ c ∈ ds, c.isDigit = true

variable {ds es : List Char}

/-! ## Values of digits -/

theorem valueOf_append (ds es : List Char) :
    valueOf (ds ++ es) = 10 ^ es.length * valueOf ds + valueOf es := by
  change Nat.ofDigitChars 10 (ds ++ es) 0 = 10 ^ es.length * Nat.ofDigitChars 10 ds 0 +
    Nat.ofDigitChars 10 es 0
  rw [Nat.ofDigitChars_append, Nat.ofDigitChars_eq_ofDigitChars_zero]

theorem valueOf_cons (c : Char) (ds : List Char) :
    valueOf (c :: ds) = 10 ^ ds.length * digitValue c + valueOf ds := by
  have h := valueOf_append [c] ds
  rwa [List.singleton_append, show valueOf [c] = digitValue c from Nat.zero_add _] at h

theorem valueOf_concat (ds : List Char) (c : Char) :
    valueOf (ds ++ [c]) = 10 * valueOf ds + digitValue c := by
  rw [valueOf_append, show valueOf [c] = digitValue c from Nat.zero_add _]
  rfl

theorem valueOf_zeros {zeros : List Char} (h : ∀ c ∈ zeros, c = '0') : valueOf zeros = 0 := by
  rw [List.eq_replicate_of_mem h]
  exact Nat.ofDigitChars_replicate_zero.trans (Nat.mul_zero _)

theorem digitValue_lt {c : Char} (h : c.isDigit = true) : digitValue c < 10 := by
  have hhigh : c.toNat ≤ 57 := (Char.isDigit_iff_toNat.mp h).2
  change c.toNat - 48 < 10
  omega

theorem digit_ext {c d : Char} (hc : c.isDigit = true) (hd : d.isDigit = true)
    (h : digitValue c = digitValue d) : c = d := by
  have hlow : 48 ≤ c.toNat := (Char.isDigit_iff_toNat.mp hc).1
  have hlow' : 48 ≤ d.toNat := (Char.isDigit_iff_toNat.mp hd).1
  change c.toNat - 48 = d.toNat - 48 at h
  exact Char.toNat_inj.mp (by omega)

theorem IsDigits.of_cons {c : Char} (h : IsDigits (c :: ds)) : c.isDigit = true ∧ IsDigits ds :=
  List.forall_mem_cons.mp h

theorem IsDigits.valueOf_lt (h : IsDigits ds) : valueOf ds < 10 ^ ds.length := by
  induction ds with
  | nil => exact Nat.one_pos
  | cons c ds ih =>
    have hfirst := digitValue_lt h.of_cons.1
    have hrest := ih h.of_cons.2
    rw [valueOf_cons, List.length_cons, pow_succ]
    calc 10 ^ ds.length * digitValue c + valueOf ds < 10 ^ ds.length * digitValue c + 10 ^ ds.length := by
          omega
      _ = 10 ^ ds.length * (digitValue c + 1) := by ring
      _ ≤ 10 ^ ds.length * 10 := Nat.mul_le_mul_left _ hfirst

theorem IsDigits.ext (hds : IsDigits ds) (hes : IsDigits es) (hlength : ds.length = es.length)
    (hvalue : valueOf ds = valueOf es) : ds = es := by
  induction ds generalizing es with
  | nil => exact (List.length_eq_zero_iff.mp hlength.symm).symm
  | cons c ds ih =>
    cases es with
    | nil => cases hlength
    | cons d es =>
      have hlength := Nat.succ_inj.mp hlength
      have hlow := hds.of_cons.2.valueOf_lt
      have hlow' := hes.of_cons.2.valueOf_lt
      rw [valueOf_cons, valueOf_cons, ← hlength] at hvalue
      rw [← hlength] at hlow'
      -- The first digit is the quotient by the power of ten, the value of the others the remainder.
      have hpow : 0 < 10 ^ ds.length := by positivity
      have hfirst : digitValue c = digitValue d := by
        have h := congrArg (fun n => n / 10 ^ ds.length) hvalue
        simpa only [Nat.mul_add_div hpow, Nat.div_eq_of_lt hlow, Nat.div_eq_of_lt hlow',
          Nat.add_zero] using h
      have hrest : valueOf ds = valueOf es := by
        rw [hfirst] at hvalue
        exact Nat.add_left_cancel hvalue
      rw [digit_ext hds.of_cons.1 hes.of_cons.1 hfirst, ih hds.of_cons.2 hes.of_cons.2 hlength hrest]

theorem IsDigits.valueOf_eq_zero_iff (h : IsDigits ds) : valueOf ds = 0 ↔ ∀ c ∈ ds, c = '0' := by
  refine ⟨fun hzero => ?_, valueOf_zeros⟩
  have hzeros : ∀ c ∈ List.replicate ds.length '0', c = '0' := fun c hc => List.eq_of_mem_replicate hc
  have heq : ds = List.replicate ds.length '0' := by
    refine h.ext (fun c hc => ?_) (List.length_replicate).symm (hzero.trans (valueOf_zeros hzeros).symm)
    rw [hzeros c hc]
    rfl
  rw [heq]
  exact hzeros

/-! ## The digits of a number -/

theorem digits_ne_nil (n : Nat) : digits n ≠ [] :=
  Nat.toDigits_ne_nil

theorem isDigits_digits (n : Nat) : IsDigits (digits n) :=
  fun _ hc => Nat.isDigit_of_mem_toDigits (by decide) (by decide) hc

theorem valueOf_digits (n : Nat) : valueOf (digits n) = n :=
  Nat.ofDigitChars_ten_toDigits

theorem digitCount_le_iff {n k : Nat} (hk : 0 < k) : digitCount n ≤ k ↔ n < 10 ^ k :=
  Nat.length_toDigits_le_iff (by decide) hk

theorem digitCount_pos (n : Nat) : 0 < digitCount n :=
  Nat.length_toDigits_pos

theorem pow_digitCount_le {n : Nat} (hn : n ≠ 0) : 10 ^ (digitCount n - 1) ≤ n := by
  by_cases hone : digitCount n = 1
  · rw [hone]
    exact Nat.pos_of_ne_zero hn
  · have := digitCount_pos n
    rw [← Nat.not_lt, ← digitCount_le_iff (by omega)]
    omega

theorem lt_pow_digitCount (n : Nat) : n < 10 ^ digitCount n :=
  (digitCount_le_iff (digitCount_pos n)).mp (Nat.le_refl _)

theorem digitCount_eq {n k : Nat} (hlow : 10 ^ k ≤ n) (hhigh : n < 10 ^ (k + 1)) :
    digitCount n = k + 1 := by
  refine Nat.le_antisymm ((digitCount_le_iff k.succ_pos).mpr hhigh) ?_
  by_contra hshort
  have hcount := digitCount_pos n
  have hk : n < 10 ^ k := (digitCount_le_iff (by omega)).mp (by omega)
  omega

/-- A number has at most as many decimal digits as binary ones. -/
theorem digitCount_le_log2 {n : Nat} : digitCount n ≤ n.log2 + 1 := by
  rw [digitCount_le_iff (by omega)]
  calc n < 2 ^ (n.log2 + 1) := Nat.lt_log2_self
    _ ≤ 10 ^ (n.log2 + 1) := by gcongr; decide

/-! ## Zeros in front -/

theorem isDigits_paddedDigits (width n : Nat) : IsDigits (paddedDigits width n) := by
  intro c hc
  obtain hc | hc := List.mem_append.mp hc
  · rw [List.eq_of_mem_replicate hc]
    rfl
  · exact isDigits_digits n c hc

theorem length_paddedDigits {width n : Nat} (hwidth : 0 < width) (hn : n < 10 ^ width) :
    (paddedDigits width n).length = width := by
  rw [paddedDigits, List.length_leftpad]
  exact Nat.max_eq_left ((digitCount_le_iff hwidth).mpr hn)

theorem valueOf_paddedDigits (width n : Nat) : valueOf (paddedDigits width n) = n := by
  have hzeros : ∀ c ∈ List.replicate (width - (digits n).length) '0', c = '0' :=
    fun c hc => List.eq_of_mem_replicate hc
  rw [paddedDigits, List.leftpad, valueOf_append, valueOf_zeros hzeros, valueOf_digits, Nat.mul_zero, Nat.zero_add]

/-! ## No zeros in front -/

/-- The digits of an integer: at least one, and no zero in front of another. -/
structure IsWhole (ds : List Char) : Prop where
  isDigits : IsDigits ds
  ne_nil : ds ≠ []
  eq_zero : ds.head? = some '0' → ds = ['0']

theorem IsDigits.head?_eq_zero_iff (h : IsDigits ds) (hne : ds ≠ []) :
    ds.head? = some '0' ↔ valueOf ds < 10 ^ (ds.length - 1) := by
  cases ds with
  | nil => exact absurd rfl hne
  | cons c ds =>
    rw [List.head?_cons, Option.some.injEq, valueOf_cons, List.length_cons, Nat.add_sub_cancel]
    constructor
    · rintro rfl
      rw [show digitValue '0' = 0 from rfl, Nat.mul_zero, Nat.zero_add]
      exact h.of_cons.2.valueOf_lt
    · intro hlt
      refine digit_ext h.of_cons.1 rfl ?_
      by_contra hc
      have hle : 10 ^ ds.length ≤ 10 ^ ds.length * digitValue c :=
        Nat.le_mul_of_pos_right _ (Nat.pos_of_ne_zero hc)
      omega

theorem isWhole_digits (n : Nat) : IsWhole (digits n) where
  isDigits := isDigits_digits n
  ne_nil := digits_ne_nil n
  eq_zero := by
    intro hhead
    rw [(isDigits_digits n).head?_eq_zero_iff (digits_ne_nil n), valueOf_digits] at hhead
    by_cases hn : n = 0
    · rw [hn]
      rfl
    · exact absurd hhead (not_lt.mpr (pow_digitCount_le hn))

theorem IsWhole.pow_le (h : IsWhole ds) (hne : ds ≠ ['0']) : 10 ^ (ds.length - 1) ≤ valueOf ds := by
  rw [← not_lt, ← h.isDigits.head?_eq_zero_iff h.ne_nil]
  exact mt h.eq_zero hne

/-- Digits without zeros in front are the digits of their value. -/
theorem IsWhole.eq_digits (h : IsWhole ds) : ds = digits (valueOf ds) := by
  by_cases hzero : ds = ['0']
  · rw [hzero]
    rfl
  · have hlength := List.length_pos_of_ne_nil h.ne_nil
    have hcount : digitCount (valueOf ds) = ds.length - 1 + 1 := by
      refine digitCount_eq (h.pow_le hzero) ?_
      rw [Nat.sub_add_cancel hlength]
      exact h.isDigits.valueOf_lt
    refine h.isDigits.ext (isDigits_digits _) ?_ (valueOf_digits _).symm
    change _ = digitCount (valueOf ds)
    omega

theorem IsWhole.ext (hds : IsWhole ds) (hes : IsWhole es) (h : valueOf ds = valueOf es) : ds = es := by
  rw [hds.eq_digits, hes.eq_digits, h]

end AnswerCheck.Decimal
