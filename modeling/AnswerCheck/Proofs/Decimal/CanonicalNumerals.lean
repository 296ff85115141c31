import AnswerCheck.Proofs.Decimal.Digits

/-! # Numerals that their value determines

Digits without zeros in front, a point only where digits follow it, and a minus sign only before a
number other than zero. With a given number of places, or without zeros at the end of the fraction, a
number has at most one such numeral.
-/

set_option autoImplicit false

namespace AnswerCheck.Decimal

variable {whole whole' fraction fraction' zeros : List Char}

/-! ## Points -/

/-- A point with the digits after it; without digits there is no point. -/
def pointed : List Char → List Char
  | [] => []
  | c :: ds => '.' :: c :: ds

theorem pointed_of_ne_nil (h : fraction ≠ []) : pointed fraction = '.' :: fraction := by
  cases fraction with
  | nil => exact absurd rfl h
  | cons c ds => rfl

theorem mem_pointed {c : Char} (h : c ∈ pointed fraction) : c = '.' ∨ c ∈ fraction := by
  cases fraction with
  | nil => cases h
  | cons d ds => exact List.mem_cons.mp h

/-- The number with these digits before and after the point. -/
def pointValue (whole fraction : List Char) : ℚ :=
  valueOf whole + valueOf fraction / 10 ^ fraction.length

theorem pointValue_nonneg (whole fraction : List Char) : 0 ≤ pointValue whole fraction := by
  unfold pointValue
  positivity

theorem pointValue_nil (whole : List Char) : pointValue whole [] = valueOf whole := by
  simp [pointValue, valueOf]

theorem pointValue_eq_div (whole fraction : List Char) :
    pointValue whole fraction = valueOf (whole ++ fraction) / 10 ^ fraction.length := by
  unfold pointValue
  rw [valueOf_append]
  push_cast
  field_simp

theorem pointValue_append (whole moved fraction : List Char) :
    pointValue whole (moved ++ fraction) * 10 ^ moved.length = pointValue (whole ++ moved) fraction := by
  have hpow : (0 : ℚ) < 10 ^ moved.length := by positivity
  rw [pointValue_eq_div, pointValue_eq_div, List.append_assoc, List.length_append, pow_add,
    mul_comm (10 ^ moved.length : ℚ), ← div_div, div_mul_cancel₀ _ hpow.ne']

theorem pointValue_zeros (h : ∀ c ∈ zeros, c = '0') :
    pointValue whole (fraction ++ zeros) = pointValue whole fraction := by
  have hpow : (0 : ℚ) < 10 ^ zeros.length := by positivity
  rw [pointValue, pointValue, valueOf_append, valueOf_zeros h, List.length_append, pow_add,
    Nat.add_zero, mul_comm (10 ^ fraction.length : ℚ)]
  push_cast
  rw [mul_div_mul_left _ _ hpow.ne']

theorem valueOf_le_pointValue (whole fraction : List Char) :
    (valueOf whole : ℚ) ≤ pointValue whole fraction := by
  unfold pointValue
  exact le_add_of_nonneg_right (by positivity)

theorem pointValue_lt (whole : List Char) (hfraction : IsDigits fraction) :
    pointValue whole fraction < valueOf whole + 1 := by
  have hlt : (valueOf fraction : ℚ) < 10 ^ fraction.length := by exact_mod_cast hfraction.valueOf_lt
  unfold pointValue
  gcongr
  rwa [div_lt_one (by positivity)]

theorem floor_pointValue (whole : List Char) (hfraction : IsDigits fraction) :
    ⌊pointValue whole fraction⌋₊ = valueOf whole :=
  (Nat.floor_eq_iff (pointValue_nonneg _ _)).mpr
    ⟨valueOf_le_pointValue _ _, pointValue_lt _ hfraction⟩

theorem pointValue_eq_zero_iff :
    pointValue whole fraction = 0 ↔ valueOf whole = 0 ∧ valueOf fraction = 0 := by
  unfold pointValue
  rw [add_eq_zero_iff_of_nonneg (by positivity) (by positivity), Nat.cast_eq_zero,
    div_eq_zero_iff, Nat.cast_eq_zero, or_iff_left (by positivity)]

theorem pointValue_ext (hwhole : IsWhole whole) (hwhole' : IsWhole whole')
    (hfraction : IsDigits fraction) (hfraction' : IsDigits fraction')
    (hlength : fraction.length = fraction'.length)
    (h : pointValue whole fraction = pointValue whole' fraction') :
    whole = whole' ∧ fraction = fraction' := by
  have hfloor : valueOf whole = valueOf whole' := by
    rw [← floor_pointValue _ hfraction, h, floor_pointValue _ hfraction']
  have hrest : (valueOf fraction : ℚ) = valueOf fraction' := by
    unfold pointValue at h
    rw [hfloor, hlength] at h
    exact (div_left_inj' (by positivity)).mp (add_left_cancel h)
  exact ⟨hwhole.ext hwhole' hfloor, hfraction.ext hfraction' hlength (by exact_mod_cast hrest)⟩

/-- The fraction does not end in zero. -/
def IsShort (fraction : List Char) : Prop :=
  fraction.getLast? ≠ some '0'

theorem isShort_nil : IsShort [] := by simp [IsShort]

theorem IsShort.length_le (hwhole : IsWhole whole) (hwhole' : IsWhole whole')
    (hfraction : IsDigits fraction) (hfraction' : IsDigits fraction') (hshort : IsShort fraction')
    (h : pointValue whole fraction = pointValue whole' fraction') :
    fraction'.length ≤ fraction.length := by
  by_contra hlong
  -- With zeros behind it the first fraction would be the second one, which does not end in zero.
  obtain ⟨n, hn⟩ : ∃ n, fraction.length + (n + 1) = fraction'.length :=
    ⟨fraction'.length - fraction.length - 1, by omega⟩
  have hzeros : ∀ c ∈ List.replicate (n + 1) '0', c = '0' := fun c hc => List.eq_of_mem_replicate hc
  have hdigits : IsDigits (fraction ++ List.replicate (n + 1) '0') := by
    intro c hc
    obtain hc | hc := List.mem_append.mp hc
    · exact hfraction c hc
    · rw [hzeros c hc]
      rfl
  have heq := (pointValue_ext hwhole hwhole' hdigits hfraction'
    (by rw [List.length_append, List.length_replicate, hn])
    ((pointValue_zeros hzeros).trans h)).2
  refine hshort ?_
  rw [← heq, List.replicate_succ', ← List.append_assoc, List.getLast?_concat]

theorem IsShort.ext (hwhole : IsWhole whole) (hwhole' : IsWhole whole')
    (hfraction : IsDigits fraction) (hfraction' : IsDigits fraction') (hshort : IsShort fraction)
    (hshort' : IsShort fraction') (h : pointValue whole fraction = pointValue whole' fraction') :
    whole = whole' ∧ fraction = fraction' :=
  pointValue_ext hwhole hwhole' hfraction hfraction'
    (Nat.le_antisymm (hshort.length_le hwhole' hwhole hfraction' hfraction h.symm)
      (hshort'.length_le hwhole hwhole' hfraction hfraction' h)) h

/-! ## Signs -/

section Signs

variable {α : Type} [AddCommGroup α] [LinearOrder α] [IsOrderedAddMonoid α]
  {numeral : List Char → α → Prop} {text text' : List Char} {q : α}

/-- A numeral that may have a minus sign, which zero has not. -/
inductive Signed (numeral : List Char → α → Prop) : List Char → α → Prop
  | plain {text : List Char} {q : α} (h : numeral text q) : Signed numeral text q
  | minus {text : List Char} {q : α} (h : numeral text q) (hne : q ≠ 0) :
      Signed numeral ('-' :: text) (-q)

/-- Numerals without signs: one for each number that has any. -/
structure IsUnsigned (numeral : List Char → α → Prop) : Prop where
  nonneg {text : List Char} {q : α} : numeral text q → 0 ≤ q
  head?_ne {text : List Char} {q : α} : numeral text q → text.head? ≠ some '-'
  unique {text text' : List Char} {q : α} : numeral text q → numeral text' q → text = text'

theorem IsUnsigned.neg_ne (hnumeral : IsUnsigned numeral) {a : α} (h : numeral text a) (hne : a ≠ 0)
    (h' : numeral text' q) : -a ≠ q := by
  rintro rfl
  exact hne (le_antisymm (neg_nonneg.mp (hnumeral.nonneg h')) (hnumeral.nonneg h))

theorem IsUnsigned.signed_unique (hnumeral : IsUnsigned numeral) (h : Signed numeral text q)
    (h' : Signed numeral text' q) : text = text' := by
  cases h with
  | plain h =>
    cases h' with
    | plain h' => exact hnumeral.unique h h'
    | minus h' hne => exact absurd rfl (hnumeral.neg_ne h' hne h)
  | minus h hne =>
    rename_i text a
    generalize hq : -a = q at h'
    cases h' with
    | plain h' => exact absurd hq (hnumeral.neg_ne h hne h')
    | minus h' hne' =>
      obtain rfl := neg_inj.mp hq
      rw [hnumeral.unique h h']

theorem IsUnsigned.head?_signed (hnumeral : IsUnsigned numeral) (h : Signed numeral text q) :
    text.head? = some '-' ↔ q < 0 := by
  cases h with
  | plain h =>
    exact iff_of_false (hnumeral.head?_ne h) (not_lt.mpr (hnumeral.nonneg h))
  | minus h hne =>
    exact iff_of_true rfl (neg_neg_iff_pos.mpr (lt_of_le_of_ne (hnumeral.nonneg h) (Ne.symm hne)))

end Signs

/-! ## Kinds of numerals -/

theorem head?_ne_of_isDigits {ds : List Char} (h : IsDigits ds) (hne : ds ≠ []) (rest : List Char) :
    (ds ++ rest).head? ≠ some '-' := by
  cases ds with
  | nil => exact absurd rfl hne
  | cons c ds =>
    rintro hminus
    obtain rfl := Option.some.inj hminus
    cases h.of_cons.1

/-- The numerals of integers that are not below zero. -/
inductive WholeNumeral : List Char → Int → Prop
  | mk {ds : List Char} (h : IsWhole ds) : WholeNumeral ds (valueOf ds)

theorem isUnsigned_wholeNumeral : IsUnsigned WholeNumeral where
  nonneg := by
    rintro _ _ ⟨-⟩
    exact Int.natCast_nonneg _
  head?_ne := by
    rintro ds _ ⟨h⟩
    have hhead := head?_ne_of_isDigits h.isDigits h.ne_nil []
    rwa [List.append_nil] at hhead
  unique := by
    rintro ds ds' q ⟨h⟩ h'
    generalize hq : (valueOf ds : Int) = q at h'
    obtain ⟨h'⟩ := h'
    exact h.ext h' (Int.natCast_inj.mp hq)

/-- The numerals of magnitudes that have fractions of a kind. -/
inductive PointNumeral (kind : List Char → Prop) : List Char → ℚ → Prop
  | mk {whole fraction : List Char} (hwhole : IsWhole whole) (hfraction : IsDigits fraction)
      (hkind : kind fraction) : PointNumeral kind (whole ++ pointed fraction) (pointValue whole fraction)

/-- The numerals of magnitudes that have so many places. -/
abbrev FixedNumeral (places : Nat) : List Char → ℚ → Prop :=
  PointNumeral fun fraction => fraction.length = places

/-- The numerals of magnitudes that have no zeros at the end of their fractions. -/
abbrev ShortNumeral : List Char → ℚ → Prop :=
  PointNumeral IsShort

variable {kind : List Char → Prop} {text : List Char} {q : ℚ}

theorem PointNumeral.minus_notMem (h : PointNumeral kind text q) : '-' ∉ text := by
  obtain ⟨hwhole, hfraction, -⟩ := h
  intro hmem
  obtain hmem | hmem := List.mem_append.mp hmem
  · cases hwhole.isDigits '-' hmem
  · obtain hpoint | hmem := mem_pointed hmem
    · cases hpoint
    · cases hfraction '-' hmem

theorem isUnsigned_pointNumeral
    (hext : ∀ {whole whole' fraction fraction'}, IsWhole whole → IsWhole whole' → IsDigits fraction →
      IsDigits fraction' → kind fraction → kind fraction' →
      pointValue whole fraction = pointValue whole' fraction' → whole = whole' ∧ fraction = fraction') :
    IsUnsigned (PointNumeral kind) where
  nonneg := by
    rintro _ _ ⟨-, -, -⟩
    exact pointValue_nonneg _ _
  head?_ne h hhead := h.minus_notMem (List.mem_of_head? hhead)
  unique := by
    rintro _ text' q ⟨hwhole, hfraction, hkind⟩ h'
    rename_i whole fraction
    generalize hq : pointValue whole fraction = q at h'
    obtain ⟨hwhole', hfraction', hkind'⟩ := h'
    obtain ⟨rfl, rfl⟩ := hext hwhole hwhole' hfraction hfraction' hkind hkind' hq
    rfl

theorem isUnsigned_fixedNumeral (places : Nat) : IsUnsigned (FixedNumeral places) :=
  isUnsigned_pointNumeral fun hwhole hwhole' hfraction hfraction' hlength hlength' h =>
    pointValue_ext hwhole hwhole' hfraction hfraction' (hlength.trans hlength'.symm) h

theorem isUnsigned_shortNumeral : IsUnsigned ShortNumeral :=
  isUnsigned_pointNumeral fun hwhole hwhole' hfraction hfraction' hshort hshort' h =>
    IsShort.ext hwhole hwhole' hfraction hfraction' hshort hshort' h

theorem minus_mem_iff_head? (h : Signed (PointNumeral kind) text q) :
    '-' ∈ text ↔ text.head? = some '-' := by
  cases h with
  | plain h =>
    exact iff_of_false h.minus_notMem fun hhead => h.minus_notMem (List.mem_of_head? hhead)
  | minus h hne => simp

end AnswerCheck.Decimal
