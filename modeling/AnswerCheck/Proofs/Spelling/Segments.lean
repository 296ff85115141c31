import AnswerCheck.Proofs.Spelling.Progress
import AnswerCheck.Proofs.Spelling.Tokens

/-! # Segments of a text

The stage for numbers rewrites what stands before and after a separator apart, and keeps the
characters at both ends of a text. The stage for radicands leaves exactly those texts alone in which
no root has a bare radicand.
-/

set_option autoImplicit false

namespace AnswerCheck.Spelling

open Text Decimal

variable {s t u rest : List Char}

/-! ## Separators -/

/-- A character that can stand in a number. -/
def inNumber (c : Char) : Bool :=
  continuesNumeral c || c = '+' || c = '-'

theorem run?_separated {p : Char → Bool} (h : Stops p rest) (t : List Char) :
    run? p (t ++ rest) = (run? p t).map fun m => (m.1, m.2 ++ rest) := by
  cases t with
  | nil =>
    cases rest with
    | nil => rfl
    | cons c rest => simp [run?, stops_cons.mp h]
  | cons c t => exact run?_append_stops h (List.cons_ne_nil c t)

theorem signText_separated {signs : List Char} (h : Stops signs.contains rest) (t : List Char) :
    signText signs (t ++ rest) = ((signText signs t).1, (signText signs t).2 ++ rest) := by
  cases t with
  | nil =>
    cases rest with
    | nil => rfl
    | cons c rest =>
      have hc : c ∉ signs := by simpa using stops_cons.mp h
      simp [signText, hc]
  | cons c t =>
    rw [List.cons_append, signText, signText]
    split <;> rfl

variable (hrest : Stops inNumber rest)
include hrest

theorem stops_digit_of_separator : Stops Char.isDigit rest :=
  hrest.mono fun c hc => by simp [inNumber, continuesNumeral, hc]

theorem mantissaText?_separated (t : List Char) :
    mantissaText? (t ++ rest) = (mantissaText? t).map fun m => (m.1, m.2 ++ rest) := by
  have hdigit := stops_digit_of_separator hrest
  simp only [mantissaText?, Option.bind_eq_bind, run?_separated hdigit]
  cases run? Char.isDigit t with
  | none => rfl
  | some found =>
    obtain ⟨whole, after⟩ := found
    simp only [Option.map_some, Option.bind_some]
    cases after with
    | nil =>
      -- The number ends with the piece, and what follows is not a point.
      cases rest with
      | nil => rfl
      | cons c rest =>
        have hc : c ≠ '.' := by
          rintro rfl
          exact absurd (stops_cons.mp hrest) (by decide)
        simp only [List.nil_append]
        split
        · next heq => exact absurd (List.cons.inj heq).1 hc
        · rfl
    | cons c after =>
      by_cases hc : c = '.'
      · subst hc
        simp only [List.cons_append, run?_separated hdigit]
        cases run? Char.isDigit after <;> simp
      · simp only [List.cons_append]
        split
        · next heq => exact absurd (List.cons.inj heq).1 hc
        · split
          · next heq => exact absurd (List.cons.inj heq).1 hc
          · rfl

theorem exponentText?_separated (t : List Char) :
    exponentText? (t ++ rest) = (exponentText? t).map fun m => (m.1, m.2 ++ rest) := by
  cases t with
  | nil => exact exponentText?_none (hrest.mono fun c hc => by simp [inNumber, hc])
  | cons c t =>
    have hsigns : Stops ['+', '-'].contains rest := hrest.mono fun c hc => by
      simp only [List.contains_cons, List.contains_nil, Bool.or_false, Bool.or_eq_true, beq_iff_eq] at hc
      simp [inNumber, or_assoc, hc]
    rw [List.cons_append, exponentText?, exponentText?, signText_separated hsigns]
    split
    · simp only [run?_separated (stops_digit_of_separator hrest), Option.map_map]
      rfl
    · rfl

theorem unsignedScientific?_separated (t : List Char) :
    unsignedScientific? (t ++ rest) = (unsignedScientific? t).map fun m => (m.1, m.2 ++ rest) := by
  simp only [unsignedScientific?, mantissaText?_separated hrest]
  cases mantissaText? t with
  | none => rfl
  | some found => simp [exponentText?_separated hrest, Function.comp_def]

theorem scientific?_separated (t : List Char) :
    scientific? (t ++ rest) = (scientific? t).map fun m => (m.1, m.2 ++ rest) := by
  have hminus : Stops ['-'].contains rest := hrest.mono fun c hc => by
    simp only [List.contains_cons, List.contains_nil, Bool.or_false, beq_iff_eq] at hc
    simp [inNumber, hc]
  rw [scientific?_eq, signText_separated hminus, unsignedScientific?_separated hrest, scientific?_eq,
    Option.map_map, Option.map_map]
  rfl

/-- Numbers before and after a character that no number holds are rewritten apart. -/
theorem tidyScientific_separated (s : List Char) :
    tidyScientific (s ++ rest) = tidyScientific s ++ tidyScientific rest :=
  ReadsWithin.replaceAll_append rewrites_scientific fun t _ _ => scientific?_separated hrest t

omit hrest

/-! ## Ends -/

/-- Both texts start with the same character and end with the same character. -/
def SameEnds (t s : List Char) : Prop :=
  t.head? = s.head? ∧ t.getLast? = s.getLast?

theorem congruence_sameEnds : Congruence SameEnds where
  refl s := ⟨rfl, rfl⟩
  trans hst htu := ⟨hst.1.trans htu.1, hst.2.trans htu.2⟩
  append hs ht := by
    constructor
    · rw [List.head?_append, List.head?_append, hs.1, ht.1]
    · rw [List.getLast?_append, List.getLast?_append, hs.2, ht.2]

theorem mantissaText?_head {mantissa : List Char} (h : mantissaText? s = some (mantissa, rest)) :
    ∃ c whole, IsDigits (c :: whole) ∧ (mantissa = c :: whole ∨
      ∃ fraction, IsDigits fraction ∧ mantissa = c :: whole ++ '.' :: fraction) := by
  simp only [mantissaText?, Option.bind_eq_bind, Option.bind_eq_some_iff, Prod.exists] at h
  obtain ⟨whole, rest', hwhole, h⟩ := h
  obtain ⟨-, hne, hdigits, -⟩ := run?_eq_some hwhole
  obtain ⟨c, whole, rfl⟩ := List.exists_cons_of_ne_nil hne
  refine ⟨c, whole, hdigits, ?_⟩
  split at h
  · split at h
    · next hfraction =>
      obtain ⟨rfl, -⟩ := Prod.mk.inj (Option.some.inj h)
      exact Or.inr ⟨_, (run?_eq_some hfraction).2.2.1, rfl⟩
    · exact Or.inl (Prod.mk.inj (Option.some.inj h)).1.symm
  · exact Or.inl (Prod.mk.inj (Option.some.inj h)).1.symm

theorem head?_shortMantissa {mantissa : List Char} (h : mantissaText? s = some (mantissa, rest)) :
    (shortMantissa mantissa).head? = mantissa.head? ∧ shortMantissa mantissa ≠ [] ∧ mantissa ≠ [] := by
  obtain ⟨c, whole, hwhole, rfl | ⟨fraction, hfraction, rfl⟩⟩ := mantissaText?_head h
  · rw [shortMantissa_whole hwhole]
    exact ⟨rfl, by simp, by simp⟩
  · obtain ⟨point, fraction', zeros, hshort, -⟩ := shortMantissa_fraction hwhole hfraction
    rw [hshort]
    exact ⟨rfl, by simp, by simp⟩

theorem exponentText?_last {out : List Char} (h : exponentText? s = some (out, rest)) :
    ∃ mark sign power, s = mark :: sign ++ power ++ rest ∧ power ≠ [] ∧ ∃ front, out = front ++ power := by
  cases s with
  | nil => cases h
  | cons c s =>
    rw [exponentText?] at h
    split at h
    · obtain ⟨⟨power, rest'⟩, hpower, heq⟩ := Option.map_eq_some_iff.mp h
      obtain ⟨rfl, rfl⟩ := Prod.mk.inj heq
      obtain ⟨hs, hne, -, -⟩ := run?_eq_some hpower
      refine ⟨c, (signText ['+', '-'] s).1, power, ?_, hne, _, rfl⟩
      rw [List.cons_append, List.cons_append, List.append_assoc, ← hs, signText_append]
    · cases h

theorem rewrites_scientific_sameEnds : Rewrites SameEnds scientific? := by
  intro s out rest h
  rw [scientific?_eq] at h
  have hs := signText_append ['-'] s
  generalize signText ['-'] s = signed at h hs
  obtain ⟨sign, s₁⟩ := signed
  obtain ⟨⟨number, rest'⟩, hnumber, heq⟩ := Option.map_eq_some_iff.mp h
  obtain ⟨rfl, rfl⟩ := Prod.mk.inj heq
  obtain ⟨⟨mantissa, s₂⟩, hmantissa, hnumber⟩ := Option.bind_eq_some_iff.mp hnumber
  obtain ⟨⟨exponent, rest''⟩, hexponent, heq⟩ := Option.map_eq_some_iff.mp hnumber
  obtain ⟨rfl, rfl⟩ := Prod.mk.inj heq
  obtain ⟨hhead, hne, hne'⟩ := head?_shortMantissa hmantissa
  obtain ⟨mark, powerSign, power, rfl, hpower, front, rfl⟩ := exponentText?_last hexponent
  obtain rfl := (mantissaText?_eq_some hmantissa).1
  subst hs
  refine ⟨sign ++ (mantissa ++ (mark :: powerSign ++ power)), by simp, by simp,
    congruence_sameEnds.append (congruence_sameEnds.refl sign) ⟨?_, ?_⟩⟩
  · rw [List.head?_append_of_ne_nil _ hne, List.head?_append_of_ne_nil _ hne', hhead]
  · rw [← List.append_assoc, ← List.append_assoc, List.getLast?_append_of_ne_nil _ hpower,
      List.getLast?_append_of_ne_nil _ hpower]

/-- The stage for numbers keeps the characters at both ends. -/
theorem tidyScientific_sameEnds (s : List Char) : SameEnds (tidyScientific s) s :=
  congruence_sameEnds.replaceAll rewrites_scientific_sameEnds s

/-! ## Radicands -/

/-- Induction on the roots of a text and the characters between them. -/
@[elab_as_elim]
theorem roots_induction {P : List Char → Prop} (nil : P []) (root : ∀ s, P s → P ("sqrt".toList ++ s))
    (char : ∀ c s, ¬ "sqrt".toList <+: c :: s → P s → P (c :: s)) (s : List Char) : P s := by
  fun_induction wrapRadicands s with
  | case1 => exact nil
  | case2 s ih => exact root s ih
  | case3 c s hc ih =>
    refine char c s ?_ ih
    rintro ⟨rest, hrest⟩
    obtain ⟨rfl, rfl⟩ := List.cons.inj hrest
    exact hc rest rfl rfl

theorem wrapRadicands_root (s : List Char) :
    wrapRadicands ("sqrt".toList ++ s) = "sqrt".toList ++ wrapRadicand (wrapRadicands s) := by
  rw [show "sqrt".toList ++ s = 's' :: 'q' :: 'r' :: 't' :: s from rfl, wrapRadicands]
  rfl

theorem wrapRadicands_cons {c : Char} (h : ¬ "sqrt".toList <+: c :: s) :
    wrapRadicands (c :: s) = c :: wrapRadicands s := by
  rw [wrapRadicands]
  rintro rest rfl rfl
  exact h ⟨rest, rfl⟩

/-- No root in the text has a bare radicand. -/
def HasNoBareRadicand (s : List Char) : Prop :=
  ∀ rest, "sqrt".toList ++ rest <:+ s → Stops inBareRadicand (rest.dropWhile isInlineBlank)

theorem HasNoBareRadicand.of_suffix (h : HasNoBareRadicand s) (ht : t <:+ s) : HasNoBareRadicand t :=
  fun rest hrest => h rest (hrest.trans ht)

theorem TidierOrSame.antisymm (hst : TidierOrSame s t) (hts : TidierOrSame t s) : s = t := by
  obtain hsame | hst := hst
  · exact hsame
  · obtain hsame | hts := hts
    · exact hsame.symm
    · exact absurd (hst.trans hts) (Tidier.irrefl s)

theorem wrapRadicand_eq_self_iff :
    wrapRadicand s = s ↔ Stops inBareRadicand (s.dropWhile isInlineBlank) := by
  refine ⟨fun h => ?_, wrapRadicand_eq_self⟩
  have hparenthesis : s.head? = some '(' → Stops inBareRadicand (s.dropWhile isInlineBlank) := by
    intro hhead
    obtain ⟨rest, rfl⟩ := List.head?_eq_some_iff.mp hhead
    exact stops_cons.mpr rfl
  unfold wrapRadicand at h
  split at h
  · next hnone =>
    intro c hc
    obtain ⟨rest, hdrop⟩ := List.head?_eq_some_iff.mp hc
    rw [hdrop, run?] at hnone
    split at hnone
    · cases hnone
    · next hbare => exact Bool.eq_false_iff.mpr hbare
  · -- What is written starts with a parenthesis, and so would the text.
    split at h
    · exact hparenthesis (h ▸ rfl)
    · exact hparenthesis (h ▸ rfl)

/-- A character that no root starts with makes no difference. -/
theorem hasNoBareRadicand_cons_iff {c : Char} (h : ¬ "sqrt".toList <+: c :: s) :
    HasNoBareRadicand (c :: s) ↔ HasNoBareRadicand s := by
  refine ⟨fun hs => hs.of_suffix (List.suffix_cons c s), fun hs rest hrest => ?_⟩
  obtain hself | hrest := List.suffix_cons_iff.mp hrest
  · exact absurd ⟨rest, hself⟩ h
  · exact hs rest hrest

theorem hasNoBareRadicand_root_iff : HasNoBareRadicand ("sqrt".toList ++ s) ↔
    Stops inBareRadicand (s.dropWhile isInlineBlank) ∧ HasNoBareRadicand s := by
  refine ⟨fun hs => ⟨hs s (List.suffix_refl _), hs.of_suffix (List.suffix_append _ s)⟩, ?_⟩
  rintro ⟨hstop, hs⟩ rest hrest
  obtain hself | hrest := List.suffix_cons_iff.mp hrest
  · have hcancel : "sqrt".toList ++ rest = "sqrt".toList ++ s := hself
    obtain rfl := List.append_cancel_left hcancel
    exact hstop
  · -- No root starts within the name of a root.
    have hname : HasNoBareRadicand ('q' :: 'r' :: 't' :: s) := by
      rw [hasNoBareRadicand_cons_iff (by simp), hasNoBareRadicand_cons_iff (by simp),
        hasNoBareRadicand_cons_iff (by simp)]
      exact hs
    exact hname rest hrest

theorem wrapRadicands_eq_self_iff : wrapRadicands s = s ↔ HasNoBareRadicand s := by
  induction s using roots_induction with
  | nil => simp [wrapRadicands, HasNoBareRadicand]
  | root s ih =>
    rw [wrapRadicands_root, List.append_cancel_left_eq, hasNoBareRadicand_root_iff, ← ih,
      ← wrapRadicand_eq_self_iff]
    constructor
    · intro hwrap
      have hs : wrapRadicands s = s := by
        refine (wrapRadicands_tidierOrSame s).antisymm ?_
        have hback := wrapRadicand_tidierOrSame (wrapRadicands s)
        rwa [hwrap] at hback
      exact ⟨by rwa [hs] at hwrap, hs⟩
    · rintro ⟨hwrap, hs⟩
      rw [hs, hwrap]
  | char c s hroot ih =>
    rw [wrapRadicands_cons hroot, List.cons.injEq, and_iff_right rfl, ih, hasNoBareRadicand_cons_iff hroot]

end AnswerCheck.Spelling
