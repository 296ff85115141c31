import AnswerCheck.Proofs.Decimal.ShownNumber
import AnswerCheck.Proofs.Spelling.Shape

/-! # Shown numbers in the ASCII spelling

The texts that show numbers are spelled in ASCII already. A pass looks at digits in one stage only,
and the numerals of that stage are those that numbers are shown with: no zeros at the end of a
mantissa, `E` before the power of ten and no plus sign after it.
-/

set_option autoImplicit false

namespace AnswerCheck.Spelling

open Text Decimal

variable {s t u exponent : List Char} {c : Char} {q : ℚ}

/-! ## Texts that no stage changes -/

/-- A character that no stage but those for numbers and blanks respells. -/
def isSettled (c : Char) : Bool :=
  !"$\\|*q".toList.contains c && (symbolSpelling? c).isNone && !isSuperscript c

theorem not_mem_of_settled (hs : ∀ c ∈ s, isSettled c = true) (hc : isSettled c = false) : c ∉ s := by
  intro hmem
  rw [hs c hmem] at hc
  cases hc

theorem pass_eq_self (hs : ∀ c ∈ s, isSettled c = true) (hblanks : EvenlySpaced s)
    (hnumbers : tidyScientific s = s) : pass s = s := by
  have hbackslash : '\\' ∉ s := not_mem_of_settled hs rfl
  have hq : 'q' ∉ s := not_mem_of_settled hs rfl
  have hstar : '*' ∉ s := not_mem_of_settled hs rfl
  have hsettled {c : Char} (hc : c ∈ s) : symbolSpelling? c = none ∧ isSuperscript c = false := by
    have hself := hs c hc
    simp only [isSettled, Bool.and_eq_true, Option.isNone_iff_eq_none, Bool.not_eq_true'] at hself
    exact ⟨hself.1.2, hself.2⟩
  have hsymbols : replaceSymbols s = s := by
    rw [replaceSymbols, List.flatMap_congr fun c hc => by rw [spellSymbol, (hsettled hc).1],
      List.flatMap_singleton']
  have hstars : s.IsChain NotBothStars := by
    have hchain := isChain_append_of_not_mem hstar List.isChain_nil
    rwa [List.append_nil] at hchain
  rw [pass, stripDelimiters_eq_self (not_mem_of_settled hs rfl) hbackslash, spellCommands_eq_self hbackslash,
    hsymbols, spellBars_eq_self (not_mem_of_settled hs rfl), tidyRoots_eq_self hq, wrapRadicands_eq_self hq,
    replaceSuperscripts_eq_self fun c hc => (hsettled hc).2, replaceStars_eq_self hstars, hnumbers,
    hblanks.tidyBlanks_eq]

theorem asciiText_eq_self (h : pass s = s) : asciiText s = s := by
  rw [asciiText_eq_iterate, Function.iterate_fixed h]

/-! ## Numbers that stay -/

/-- The stage for numbers leaves the text alone, in front of any other that does not go on with a
number. -/
def Kept (t : List Char) : Prop :=
  ∀ s, Stops continuesNumeral s → tidyScientific (t ++ s) = t ++ tidyScientific s

theorem Kept.tidyScientific_eq (h : Kept t) : tidyScientific t = t :=
  tidyScientific_eq_of_append h

theorem Kept.after (ht : ∀ c ∈ t, c.isDigit = false) (hu : Kept u) : Kept (t ++ u) := by
  intro s hs
  rw [List.append_assoc, tidyScientific_append ht, hu s hs, List.append_assoc]

theorem kept_of_not_digits (ht : ∀ c ∈ t, c.isDigit = false) : Kept t :=
  fun s _ => tidyScientific_append ht s

theorem Kept.append (ht : Kept t) (hu : Kept u) (hstop : Stops continuesNumeral u) : Kept (t ++ u) := by
  intro s hs
  rw [List.append_assoc, ht (u ++ s) (stops_append hstop hs), hu s hs, List.append_assoc]

theorem kept_of_isDigits (hds : IsDigits t) (hne : t ≠ []) : Kept t := by
  intro s hs
  have hwhole := tidyScientific_whole hs hds hne Power.none
  rwa [shortExponent, List.append_nil] at hwhole

theorem Kept.signed {numeral : List Char → ℚ → Prop} (hnumeral : ∀ t q, numeral t q → Kept t)
    (h : Signed numeral t q) : Kept t := by
  cases h with
  | plain h => exact hnumeral _ _ h
  | minus h _ =>
    intro s hs
    rw [List.cons_append, tidyScientific_minus, hnumeral _ _ h s hs, List.cons_append]

theorem kept_pointNumeral {kind : List Char → Prop} (h : PointNumeral kind t q) : Kept t := by
  obtain ⟨hwhole, hfraction, -⟩ := h
  rename_i whole fraction
  cases fraction with
  | nil =>
    rw [pointed, List.append_nil]
    exact kept_of_isDigits hwhole.isDigits hwhole.ne_nil
  | cons c ds =>
    intro s hs
    have hkept := tidyScientific_fraction hs hwhole.isDigits hfraction
    rwa [List.append_nil] at hkept

theorem shortExponent_signed {e : Int} (h : Signed WholeNumeral exponent e) :
    shortExponent ('E' :: exponent) = 'E' :: exponent := by
  cases h with
  | plain h =>
    obtain ⟨hds⟩ := h
    exact shortExponent_digits hds.isDigits
  | minus h _ => rfl

theorem shortMantissa_short (whole : List Char) {fraction : List Char} (hfraction : IsDigits fraction)
    (hne : fraction ≠ []) (hshort : IsShort fraction) :
    shortMantissa (whole ++ '.' :: fraction) = whole ++ '.' :: fraction := by
  obtain ⟨front, last, rfl⟩ := List.eq_nil_or_concat' fraction |>.resolve_left hne
  have hlast : last.isDigit = true := hfraction last (by simp)
  have hzero : last ≠ '0' := by
    rintro rfl
    exact hshort (by simp)
  have hstays (p : Char → Bool) (hp : p last = false) :
      dropEndWhile p (whole ++ '.' :: (front ++ [last])) = whole ++ '.' :: (front ++ [last]) := by
    have hdrop := dropEndWhile_append (p := p) (s := whole ++ '.' :: (front ++ [last])) (t := []) ?_ (by simp)
    · rwa [List.append_nil] at hdrop
    · rw [List.reverse_append, List.reverse_cons, List.reverse_append]
      exact stops_cons.mpr hp
  have hpoint : last ≠ '.' := by
    rintro rfl
    cases hlast
  rw [shortMantissa, if_pos (by simp), hstays (· == '0') (beq_eq_false_iff_ne.mpr hzero),
    hstays (· == '.') (beq_eq_false_iff_ne.mpr hpoint)]

theorem kept_adaptiveNumeral (h : AdaptiveNumeral t q) : Kept t := by
  cases h with
  | positional h _ _ => exact kept_pointNumeral h
  | @scientific first fraction exponent e hfirst _ hfraction hshort hexponent _ =>
    intro s hs
    have hdigits : IsDigits [first] := (isWhole_singleton hfirst).isDigits
    have hpower := power_of_signed hexponent
    have hexp := shortExponent_signed hexponent
    cases fraction with
    | nil =>
      have hkept := tidyScientific_whole hs hdigits (List.cons_ne_nil _ _) hpower
      rwa [hexp] at hkept
    | cons c ds =>
      have hmantissa := shortMantissa_short [first] hfraction (List.cons_ne_nil c ds) hshort
      have hkept := tidyScientific_shortened hs hdigits (List.cons_ne_nil _ _) hfraction
        (List.cons_ne_nil c ds) hpower (List.cons_ne_nil _ _) hmantissa
      rwa [hexp] at hkept

/-! ## The texts of numbers -/

/-- What the ASCII spelling leaves alone in any line: no blanks, no characters to respell, and no number
to rewrite. -/
structure Stable (t : List Char) : Prop where
  ne_nil : t ≠ []
  not_blank : ∀ c ∈ t, isBlank c = false
  settled : ∀ c ∈ t, isSettled c = true
  kept : Kept t

theorem stable_words (hne : t ≠ []) (hblank : t.all (!isBlank ·) = true) (hsettled : t.all isSettled = true)
    (hdigits : t.all (!Char.isDigit ·) = true) : Stable t where
  ne_nil := hne
  not_blank c hc := by simpa using List.all_eq_true.mp hblank c hc
  settled := List.all_eq_true.mp hsettled
  kept := kept_of_not_digits fun c hc => by simpa using List.all_eq_true.mp hdigits c hc

theorem isSettled_of_isDigit (h : c.isDigit = true) : isSettled c = true := by
  have hmarks : "$\\|*q".toList.contains c = false := by
    rw [Bool.eq_false_iff]
    intro hmem
    have hnone : "$\\|*q".toList.all (!Char.isDigit ·) = true := rfl
    have hdigit := List.all_eq_true.mp hnone c (List.contains_iff_mem.mp hmem)
    rw [h] at hdigit
    cases hdigit
  rw [isSettled, hmarks, symbolSpelling?_of_isDigit h, isSuperscript_of_isDigit h]
  rfl

theorem kept_calculatorText {x : Float} (hx : x.isFinite = true) (places : Option Nat) :
    Kept (calculatorText x places).toList := by
  cases places with
  | some p => exact Kept.signed (fun _ _ => kept_pointNumeral) (signed_fixedNumeral hx p)
  | none =>
    by_cases hd : (ofFloat x).coefficient = 0
    · have hzero : "0".toList.all Char.isDigit = true := rfl
      rw [calculatorText_zero hx hd]
      exact kept_of_isDigits (List.all_eq_true.mp hzero) (by decide)
    · exact Kept.signed (fun _ _ => kept_adaptiveNumeral) (signed_adaptiveNumeral hx hd)

theorem stable_calculatorText (x : Float) (places : Option Nat) :
    Stable (calculatorText x places).toList := by
  by_cases hx : x.isFinite = true
  · obtain ⟨value, hnumeral⟩ := proseNumeral_calculatorText hx places
    exact ⟨hnumeral.ne_nil, hnumeral.not_blank, hnumeral.all (fun c => isSettled_of_isDigit) rfl,
      kept_calculatorText hx places⟩
  · obtain h | h | h := calculatorText_of_not_isFinite hx places <;> rw [h]
    · exact stable_words (by decide) rfl rfl rfl
    · exact stable_words (by decide) rfl rfl rfl
    · exact stable_words (by decide) rfl rfl rfl

end AnswerCheck.Spelling
