import AnswerCheck.Decimal.Calculator
import AnswerCheck.Proofs.Decimal.CanonicalNumerals
import AnswerCheck.Proofs.Decimal.Units

/-! # Rounding digit strings

Adding one in the last place, with the carry through the nines, adds one to the number of the digits.
So a digit string that is cut off after some places and increased if the first dropped digit is at
least five denotes the number rounded to these places, halves away from zero.
-/

set_option autoImplicit false

namespace AnswerCheck.Decimal

variable {ds whole fraction : List Char} {places : Nat}

/-! ## One more in the last place -/

theorem next_digit {c : Char} (h : c.isDigit = true) (hc : c ≠ '9') :
    (Char.ofNat (c.toNat + 1)).isDigit = true ∧
      digitValue (Char.ofNat (c.toNat + 1)) = digitValue c + 1 := by
  have hlow : 48 ≤ c.toNat := (Char.isDigit_iff_toNat.mp h).1
  have hhigh : c.toNat ≤ 57 := (Char.isDigit_iff_toNat.mp h).2
  have hne : c.toNat ≠ 57 := fun h => hc (Char.toNat_inj.mp h)
  have hnext : (Char.ofNat (c.toNat + 1)).toNat = c.toNat + 1 := by
    rw [Char.toNat_ofNat, if_pos (Or.inl (by omega))]
  have hlow' : 48 ≤ (Char.ofNat (c.toNat + 1)).toNat := by omega
  have hhigh' : (Char.ofNat (c.toNat + 1)).toNat ≤ 57 := by omega
  refine ⟨Char.isDigit_iff_toNat.mpr ⟨hlow', hhigh'⟩, ?_⟩
  change (Char.ofNat (c.toNat + 1)).toNat - 48 = c.toNat - 48 + 1
  omega

theorem isDigits_increaseReversed (h : IsDigits ds) : IsDigits (increaseReversed ds) := by
  induction ds with
  | nil => simp [increaseReversed, IsDigits]
  | cons c ds ih =>
    rw [increaseReversed]
    split
    · exact List.forall_mem_cons.mpr ⟨rfl, ih h.of_cons.2⟩
    · next hc => exact List.forall_mem_cons.mpr ⟨(next_digit h.of_cons.1 hc).1, h.of_cons.2⟩

theorem valueOf_increaseReversed (h : IsDigits ds) :
    valueOf (increaseReversed ds).reverse = valueOf ds.reverse + 1 := by
  induction ds with
  | nil => rfl
  | cons c ds ih =>
    rw [increaseReversed]
    split
    · next hc =>
      rw [hc, List.reverse_cons, List.reverse_cons, valueOf_concat, valueOf_concat, ih h.of_cons.2]
      change 10 * (valueOf ds.reverse + 1) + 0 = 10 * valueOf ds.reverse + 9 + 1
      omega
    · next hc =>
      rw [List.reverse_cons, List.reverse_cons, valueOf_concat, valueOf_concat,
        (next_digit h.of_cons.1 hc).2]
      omega

/-- There is one more digit only for a number that was all nines. -/
theorem length_increaseReversed (ds : List Char) :
    (increaseReversed ds).length = ds.length ∨
      (increaseReversed ds).length = ds.length + 1 ∧
        valueOf (increaseReversed ds).reverse = 10 ^ ds.length := by
  induction ds with
  | nil => exact Or.inr ⟨rfl, rfl⟩
  | cons c ds ih =>
    rw [increaseReversed]
    split
    · obtain hsame | ⟨hmore, hvalue⟩ := ih
      · exact Or.inl (congrArg (· + 1) hsame)
      · refine Or.inr ⟨congrArg (· + 1) hmore, ?_⟩
        rw [List.reverse_cons, valueOf_concat, hvalue, List.length_cons, pow_succ]
        change 10 * 10 ^ ds.length + 0 = _
        omega
    · exact Or.inl rfl

theorem isDigits_increase (h : IsDigits ds) : IsDigits (increase ds) := fun c hc =>
  isDigits_increaseReversed (fun d hd => h d (List.mem_reverse.mp hd)) c (List.mem_reverse.mp hc)

theorem valueOf_increase (h : IsDigits ds) : valueOf (increase ds) = valueOf ds + 1 := by
  rw [increase, valueOf_increaseReversed fun d hd => h d (List.mem_reverse.mp hd), List.reverse_reverse]

theorem length_increase (ds : List Char) :
    (increase ds).length = ds.length ∨
      (increase ds).length = ds.length + 1 ∧ valueOf (increase ds) = 10 ^ ds.length := by
  have h := length_increaseReversed ds.reverse
  rw [List.length_reverse] at h
  rwa [increase, List.length_reverse]

theorem head?_increase (h : IsDigits ds) (hne : ds ≠ []) (hhead : (increase ds).head? = some '0') :
    (increase ds).length = ds.length ∧ ds.head? = some '0' := by
  have hlength := List.length_pos_of_ne_nil hne
  have hne' : increase ds ≠ [] := by
    intro hnil
    obtain hsame | ⟨hmore, -⟩ := length_increase ds <;> simp [hnil] at *
  -- A zero in front means that the number is small for its length, which only one digit more could hide.
  rw [(isDigits_increase h).head?_eq_zero_iff hne'] at hhead
  obtain hsame | ⟨hmore, hvalue⟩ := length_increase ds
  · refine ⟨hsame, (h.head?_eq_zero_iff hne).mpr ?_⟩
    rw [hsame, valueOf_increase h] at hhead
    omega
  · rw [hmore, hvalue, Nat.add_sub_cancel] at hhead
    exact absurd hhead (lt_irrefl _)

/-! ## The first dropped digit -/

/-- A fraction is at least a half exactly if its first digit is at least five. -/
theorem pointValue_lt_half_iff {c : Char} (h : IsDigits (c :: ds)) (kept : List Char) :
    pointValue kept (c :: ds) - valueOf kept < 1 / 2 ↔ ¬ '5' ≤ c := by
  have hrest := h.of_cons.2.valueOf_lt
  have hfive : '5' ≤ c ↔ 5 ≤ digitValue c := by
    have hlow : 48 ≤ c.toNat := (Char.isDigit_iff_toNat.mp h.of_cons.1).1
    change 53 ≤ c.toNat ↔ 5 ≤ c.toNat - 48
    omega
  have hpow : (0 : ℚ) < 10 ^ (c :: ds).length := by positivity
  have hscale : valueOf (c :: ds) * 2 < 1 * 10 ^ (c :: ds).length ↔ ¬ 5 ≤ digitValue c := by
    rw [valueOf_cons, List.length_cons, pow_succ]
    constructor
    · intro hlt hge
      have : 10 ^ ds.length * 5 ≤ 10 ^ ds.length * digitValue c := Nat.mul_le_mul_left _ hge
      omega
    · intro hlt
      have : 10 ^ ds.length * digitValue c ≤ 10 ^ ds.length * 4 := Nat.mul_le_mul_left _ (by omega)
      omega
  rw [pointValue, add_sub_cancel_left, div_lt_div_iff₀ hpow two_pos, hfive, ← hscale]
  exact_mod_cast Iff.rfl

/-! ## Rounding -/

/-- The digits before and after the point of a number with so many places. -/
structure Splits (parts : List Char × List Char) (places : Nat) (q : ℚ) : Prop where
  isWhole : IsWhole parts.1
  isDigits : IsDigits parts.2
  length_eq : parts.2.length = places
  pointValue_eq : pointValue parts.1 parts.2 = q

theorem splits_take_drop {point : Nat} (h : IsDigits ds) (hpoint : 0 < point)
    (hlength : ds.length = point + places) (hhead : ds.head? = some '0' → point = 1) :
    Splits (ds.take point, ds.drop point) places (valueOf ds / 10 ^ places) := by
  have hplaces : (ds.drop point).length = places := by rw [List.length_drop]; omega
  refine ⟨⟨fun c hc => h c (List.mem_of_mem_take hc), ?_, ?_⟩,
    fun c hc => h c (List.mem_of_mem_drop hc), hplaces, ?_⟩
  · rw [Ne, ← List.length_eq_zero_iff, List.length_take]
    omega
  · simp only [List.head?_take, if_neg hpoint.ne']
    intro hzero
    obtain ⟨rest, rfl⟩ := List.head?_eq_some_iff.mp hzero
    rw [hhead hzero]
    rfl
  · rw [pointValue_eq_div, List.take_append_drop, hplaces]

theorem roundDigits_append (whole taken dropped : List Char) (c : Char) :
    roundDigits whole (taken ++ c :: dropped) taken.length =
      let kept := whole ++ taken
      let rounded := if '5' ≤ c then increase kept else kept
      let point := whole.length + (rounded.length - kept.length)
      (rounded.take point, rounded.drop point) := by
  have hnext : (taken ++ c :: dropped)[taken.length]? = some c := by simp
  simp only [roundDigits, List.take_left, hnext, Option.any_some, decide_eq_true_eq]

/-- Rounding the digits rounds the number. -/
theorem splits_roundDigits (hwhole : IsWhole whole) (hfraction : IsDigits fraction)
    (hplaces : places < fraction.length) :
    Splits (roundDigits whole fraction places) places
      (Tie.awayFromZero.nearest (pointValue whole fraction * 10 ^ places) / 10 ^ places) := by
  obtain ⟨taken, c, dropped, rfl, rfl⟩ : ∃ taken c dropped, fraction = taken ++ c :: dropped ∧
      taken.length = places :=
    ⟨fraction.take places, fraction[places], fraction.drop (places + 1), by simp, by simp; omega⟩
  have hkept : IsDigits (whole ++ taken) := fun d hd => by
    obtain hd | hd := List.mem_append.mp hd
    · exact hwhole.isDigits d hd
    · exact hfraction d (List.mem_append_left _ hd)
  have hrest : IsDigits (c :: dropped) := fun d hd => hfraction d (List.mem_append_right _ hd)
  have hlength : (whole ++ taken).length = whole.length + taken.length := List.length_append
  have hpoint := List.length_pos_of_ne_nil hwhole.ne_nil
  have hhead : (whole ++ taken).head? = some '0' → whole.length = 1 := by
    rw [List.head?_append_of_ne_nil _ hwhole.ne_nil]
    intro hzero
    rw [hwhole.eq_zero hzero]
    rfl
  -- With the point after the kept digits, these are the whole part and the dropped ones the fraction.
  rw [roundDigits_append, pointValue_append, Tie.nearest_awayFromZero, floor_pointValue _ hrest]
  simp only [pointValue_lt_half_iff hrest (whole ++ taken), ite_not]
  split
  · have hne : whole ++ taken ≠ [] := by simp [hwhole.ne_nil]
    rw [← valueOf_increase hkept]
    refine splits_take_drop (isDigits_increase hkept) (by omega) ?_ fun hzero => ?_
    · obtain hsame | ⟨hmore, -⟩ := length_increase (whole ++ taken) <;> omega
    · obtain ⟨hsame, hzero⟩ := head?_increase hkept hne hzero
      rw [hsame, Nat.sub_self, hhead hzero]
  · exact splits_take_drop hkept (by omega) (by omega) fun hzero => by
      rw [Nat.sub_self, hhead hzero]

/-! ## Numbers -/

variable {parts : List Char × List Char} {q : ℚ} {d : Decimal}

theorem Splits.fixedNumeral (h : Splits parts places q) :
    FixedNumeral places (if places = 0 then parts.1 else parts.1 ++ '.' :: parts.2) q := by
  obtain ⟨hwhole, hfraction, hlength, rfl⟩ := h
  have htext : (if places = 0 then parts.1 else parts.1 ++ '.' :: parts.2) =
      parts.1 ++ pointed parts.2 := by
    split
    · next hzero =>
      rw [List.length_eq_zero_iff.mp (hlength.trans hzero), pointed, List.append_nil]
    · next hne =>
      rw [pointed_of_ne_nil fun hnil => hne (by rw [← hlength, hnil]; rfl)]
  rw [htext]
  exact .mk hwhole hfraction hlength

theorem splits_paddedDigits (n : Nat) (hplaces : 0 < places) :
    Splits (digits (n / 10 ^ places), paddedDigits places (n % 10 ^ places)) places
      (n / 10 ^ places) := by
  have hlength : (paddedDigits places (n % 10 ^ places)).length = places :=
    length_paddedDigits hplaces (Nat.mod_lt _ (by positivity))
  have hpow : (0 : ℚ) < 10 ^ places := by positivity
  refine ⟨isWhole_digits _, isDigits_paddedDigits _ _, hlength, ?_⟩
  rw [pointValue, hlength, valueOf_digits, valueOf_paddedDigits, eq_div_iff hpow.ne', add_mul,
    div_mul_cancel₀ _ hpow.ne', mul_comm]
  exact_mod_cast Nat.div_add_mod n (10 ^ places)

theorem fixedNumeral_fixedText (n places : Nat) :
    FixedNumeral places (fixedText n places) (n / 10 ^ places) := by
  cases places with
  | zero =>
    have h : Splits (digits n, []) 0 (n / 10 ^ 0) :=
      ⟨isWhole_digits n, nofun, rfl, by rw [pointValue_nil, valueOf_digits, pow_zero, div_one]⟩
    have htext : fixedText n 0 = digits n := by
      rw [fixedText, if_pos rfl, Nat.pow_eq, pow_zero, Nat.div_one]
    rw [htext]
    exact h.fixedNumeral
  | succ places => exact (splits_paddedDigits n places.succ_pos).fixedNumeral

theorem splits_expansion (hd : -(exactPlaces : Int) ≤ d.exponent) :
    Splits d.expansion exactPlaces d.value := by
  have hvalue : d.value = d.inUnits (-(exactPlaces : Int)) .toEven / 10 ^ exactPlaces := by
    rw [inUnits_exact hd, zpow_neg, zpow_natCast, div_inv_eq_mul,
      mul_div_cancel_right₀ _ (by positivity)]
  have h := splits_paddedDigits (d.inUnits (-(exactPlaces : Int)) .toEven)
    (by decide : 0 < exactPlaces)
  rw [hvalue]
  unfold expansion
  -- The power of ten is not to be evaluated.
  generalize exactPlaces = places at h ⊢
  exact h

theorem exactPlaces_le (x : Float) : -(exactPlaces : Int) ≤ (ofFloat x).exponent := by
  have hscale : -1074 ≤ (Binary.ofFloat x).exponent := by
    simp only [Binary.ofFloat]
    split <;> simp only <;> omega
  rw [ofFloat, Binary.toDecimal]
  split
  · exact (by decide : -(exactPlaces : Int) ≤ 0)
  · exact le_trans (by decide) hscale

/-- A magnitude is shown by the digits of its value in units of the last place, halves rounded away
from zero. -/
theorem fixedNumeral_fixedPlaces (hd : -(exactPlaces : Int) ≤ d.exponent)
    (hplaces : places < exactPlaces) :
    FixedNumeral places (d.fixedPlaces places)
      (Tie.awayFromZero.nearest (d.value * 10 ^ places) / 10 ^ places) := by
  have hfull := splits_expansion hd
  have h := splits_roundDigits hfull.isWhole hfull.isDigits (hfull.length_eq.symm ▸ hplaces)
  rw [hfull.pointValue_eq] at h
  exact h.fixedNumeral

end AnswerCheck.Decimal
