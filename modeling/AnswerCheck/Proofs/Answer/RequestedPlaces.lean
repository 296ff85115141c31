import AnswerCheck.Answer.Places
import AnswerCheck.Proofs.Decimal.Digits
import AnswerCheck.Proofs.Text.Digits
import AnswerCheck.Proofs.Text.Finding
import AnswerCheck.Proofs.Text.Patterns

/-! # Requests with a count

A request for too many places is not honoured, but it is still searched for the names of the places.
The names from one to five are also written with a digit, and the last digit of the count can be read
as one of them.
-/

set_option autoImplicit false

namespace AnswerCheck.Answer

open Text Decimal

variable {ds s t : List Char} {c : Char}

def placesRequest (count : List Char) : List Char :=
  "round to ".toList ++ count ++ " decimal places".toList

theorem placesRequest_eq (count : List Char) :
    placesRequest count = "round".toList ++ ' ' :: ("to".toList ++ ' ' ::
      (count ++ ' ' :: ("decimal".toList ++ ' ' :: "places".toList))) := by
  have hbefore : "round to ".toList = "round".toList ++ (' ' :: "to".toList ++ [' ']) := rfl
  have hafter : " decimal places".toList = ' ' :: ("decimal".toList ++ ' ' :: "places".toList) := rfl
  unfold placesRequest
  rewrite [hbefore, hafter, List.append_assoc, List.append_assoc, List.append_assoc]
  rfl

/-! ## Digits -/

theorem lowerChar_of_isDigit (h : c.isDigit = true) : lowerChar c = [c] := by
  have hne {d : Char} (hd : d.isDigit = false) : c ≠ d := ne_of_kind h hd
  rw [lowerChar, if_neg (hne (by decide)), if_neg (hne (by decide)), if_neg (hne (by decide)),
    if_neg (hne (by decide)), if_neg (hne (by decide)), toLower_of_isDigit h]

theorem lower_append (s t : List Char) : lower (s ++ t) = lower s ++ lower t :=
  List.flatMap_append

theorem lower_digits (hds : IsDigits ds) : lower ds = ds := by
  induction ds with
  | nil => rfl
  | cons c ds ih =>
    rw [lower, List.flatMap_cons, lowerChar_of_isDigit hds.of_cons.1, ← lower, ih hds.of_cons.2]
    rfl

theorem lower_around (hs : lower s = s) (hds : IsDigits ds) (ht : lower t = t) :
    lower (s ++ ds ++ t) = s ++ ds ++ t := by
  rw [lower_append, lower_append, hs, lower_digits hds, ht]

theorem isDecimalDigit_of_isDigit (h : c.isDigit = true) : isDecimalDigit c = true := by
  have hdigit : c.toNat ≤ 57 := (Char.isDigit_iff_toNat.mp h).2
  rw [isDecimalDigit, if_pos (by omega), h]

theorem stops_isBlank_digits (hds : IsDigits ds) (hne : ds ≠ []) (s : List Char) :
    Stops isBlank (ds ++ s) := by
  obtain ⟨c, ds, rfl⟩ := List.exists_cons_of_ne_nil hne
  exact stops_cons.mpr (isBlank_of_isDigit hds.of_cons.1)

/-! ## Counts -/

theorem afterBlanks?_cons (h : Stops isBlank s) : afterBlanks? (' ' :: s) = some s := by
  have hgap : run? isBlank ([' '] ++ s) = some ([' '], s) := run?_append (by simp) (by simp [isBlank]) h
  exact congrArg (Option.map (·.2)) hgap

theorem after?_word (word s : List Char) : after? word (word ++ s) = some s :=
  after?_eq_some.mpr rfl

theorem countedRequest?_append (hds : IsDigits ds) (hne : ds ≠ []) (s : List Char) :
    countedRequest? ("round".toList ++ ' ' :: ("to".toList ++ ' ' :: (ds ++ ' ' :: ("decimal".toList ++ s)))) =
      some (ds, s) := by
  have hnot (s : List Char) : after? "ed".toList (' ' :: s) = none := rfl
  have hto : Stops isBlank ("to".toList ++ ' ' :: (ds ++ ' ' :: ("decimal".toList ++ s))) :=
    stops_cons.mpr rfl
  have hcount : run? isDecimalDigit (ds ++ ' ' :: ("decimal".toList ++ s)) =
      some (ds, ' ' :: ("decimal".toList ++ s)) :=
    run?_append hne (fun c hc => isDecimalDigit_of_isDigit (hds c hc)) (stops_cons.mpr rfl)
  have hdecimal : Stops isBlank ("decimal".toList ++ s) := stops_cons.mpr rfl
  simp only [countedRequest?, Option.bind_eq_bind, Option.bind_eq_some_iff, Prod.exists]
  refine ⟨_, after?_word _ _, _, ?_, _, after?_word _ _, _,
    afterBlanks?_cons (stops_isBlank_digits hds hne _), ds, _, hcount, _, afterBlanks?_cons hdecimal, s,
    after?_word _ _, rfl⟩
  rewrite [hnot, Option.getD_none]
  exact afterBlanks?_cons hto

/-- A count that is not too large is honoured. -/
theorem countedPlaces?_placesRequest (hds : IsDigits ds) (hne : ds ≠ []) :
    countedPlaces? (placesRequest ds) = if valueOf ds ≤ maxPlaces then some (valueOf ds) else none := by
  have hall : ds.all Char.isDigit = true := List.all_eq_true.mpr hds
  have hfound : findFirst? countedRequest? (placesRequest ds) = some ([], ds, " places".toList) := by
    rw [placesRequest_eq]
    exact findFirst?_of_some (List.cons_ne_nil 'r' _) (countedRequest?_append hds hne _)
  simp only [countedPlaces?, hfound, Option.bind_eq_bind, Option.bind_some, hall, Bool.true_and,
    decide_eq_true_eq]

/-! ## Names -/

/-- Apart from the count no word of a request ends with this word. -/
def IsApart (word : List Char) : Prop :=
  word.any isBlank = false ∧ ¬ word <:+ "round".toList ∧ ¬ word <:+ "to".toList ∧
    ¬ word <:+ "decimal".toList

instance (word : List Char) : Decidable (IsApart word) :=
  inferInstanceAs (Decidable (_ ∧ _))

/-- Two words occur in a request only around the blank after its count. -/
theorem occursIn_placesRequest {first second : String} (hfirst : IsApart first.toList)
    (hds : IsDigits ds) (hne : ds ≠ []) :
    (twoWords first second).occursIn (placesRequest ds) = true ↔
      first.toList <:+ ds ∧ second.toList <+: "decimal places".toList := by
  obtain ⟨hblank, hround, hto, hdecimal⟩ := hfirst
  have hblank := of_any_eq_false hblank
  have hcount : ∀ c ∈ ds, isBlank c = false := fun c hc => isBlank_of_isDigit (hds c hc)
  have hspace : isBlank ' ' = true := rfl
  have hround' : ∀ c ∈ "round".toList, isBlank c = false := of_any_eq_false rfl
  have hto' : ∀ c ∈ "to".toList, isBlank c = false := of_any_eq_false rfl
  have hdecimal' : ∀ c ∈ "decimal".toList, isBlank c = false := of_any_eq_false rfl
  have hstop (s : List Char) : Stops isBlank ("to".toList ++ s) := stops_cons.mpr rfl
  have hstop' (s : List Char) : Stops isBlank ("decimal".toList ++ s) := stops_cons.mpr rfl
  have hplaces : Stops isBlank "places".toList := stops_cons.mpr rfl
  have hlast : ¬ Pattern.WordsIn first.toList second.toList "places".toList :=
    Pattern.not_wordsIn (of_any_eq_false rfl)
  rewrite [twoWords, Pattern.occursIn_words_iff, placesRequest_eq,
    Pattern.wordsIn_append hblank hround' hspace (hstop _),
    Pattern.wordsIn_append hblank hto' hspace (stops_isBlank_digits hds hne _),
    Pattern.wordsIn_append hblank hcount hspace (hstop' _),
    Pattern.wordsIn_append hblank hdecimal' hspace hplaces]
  simp only [hround, hto, hdecimal, hlast, false_and, false_or, or_false]
  rfl

/-- A word that is no digit string is not found. -/
theorem name_not_occursIn {first second : String} (hfirst : IsApart first.toList)
    (hname : first.toList.any Char.isDigit = false) (hne' : first.toList ≠ []) (hds : IsDigits ds)
    (hne : ds ≠ []) : (twoWords first second).occursIn (placesRequest ds) = false := by
  rw [Bool.eq_false_iff, Ne, occursIn_placesRequest hfirst hds hne]
  rintro ⟨hsuffix, -⟩
  obtain ⟨c, word, hword⟩ := List.exists_cons_of_ne_nil hne'
  have hmem : c ∈ first.toList := hword ▸ List.mem_cons_self
  have hdigit := hds c (hsuffix.subset hmem)
  rw [of_any_eq_false hname c hmem] at hdigit
  cases hdigit

theorem isApart_digit {d : Char} (h : d.isDigit = true) : IsApart [d] := by
  have hnot {word : List Char} (hword : word.any Char.isDigit = false) : ¬ [d] <:+ word := by
    intro hsuffix
    have hletter := of_any_eq_false hword d (hsuffix.subset List.mem_cons_self)
    rw [h] at hletter
    cases hletter
  exact ⟨by simp [isBlank_of_isDigit h], hnot rfl, hnot rfl, hnot rfl⟩

/-- A digit is found where it is the last one of the count. -/
theorem digit_occursIn {first : String} {d : Char} (hfirst : first.toList = [d]) (hd : d.isDigit = true)
    (hds : IsDigits (ds ++ [c])) :
    (twoWords first "decimal").occursIn (placesRequest (ds ++ [c])) = (digitValue c == digitValue d) := by
  have hapart : IsApart first.toList := hfirst ▸ isApart_digit hd
  have hc : c.isDigit = true := hds c (by simp)
  rw [Bool.eq_iff_iff, occursIn_placesRequest hapart hds (by simp), beq_iff_eq, hfirst]
  constructor
  · rintro ⟨⟨front, hsuffix⟩, -⟩
    rw [List.singleton_inj.mp (List.append_inj' hsuffix rfl).2]
  · intro h
    rw [digit_ext hc hd h]
    exact ⟨List.suffix_append ds [d], " places".toList, rfl⟩

theorem namedRequest_occursIn (hds : IsDigits (ds ++ [c])) : ∀ request ∈ namedRequests,
    request.1.occursIn (placesRequest (ds ++ [c])) = (digitValue c == request.2) := by
  have hname (first second : String) (hfirst : IsApart first.toList)
      (hletters : first.toList.any Char.isDigit = false) (hne : first.toList ≠ []) :
      (twoWords first second).occursIn (placesRequest (ds ++ [c])) = false :=
    name_not_occursIn hfirst hletters hne hds (by simp)
  have hdigit {first : String} {d : Char} (hfirst : first.toList = [d]) (hd : d.isDigit = true) :
      (twoWords first "decimal").occursIn (placesRequest (ds ++ [c])) = (digitValue c == digitValue d) :=
    digit_occursIn hfirst hd hds
  have hnearest (second : String) := hname "nearest" second (by decide) rfl (by decide)
  have hone := hname "one" "decimal" (by decide) rfl (by decide)
  have htwo := hname "two" "decimal" (by decide) rfl (by decide)
  have hthree := hname "three" "decimal" (by decide) rfl (by decide)
  have hfour := hname "four" "decimal" (by decide) rfl (by decide)
  have hfive := hname "five" "decimal" (by decide) rfl (by decide)
  simp only [namedRequests, List.forall_mem_cons, Pattern.anyOf, Pattern.occursIn_either, hnearest, hone,
    htwo, hthree, hfour, hfive, Bool.false_or]
  exact ⟨hdigit (d := '1') rfl rfl, hdigit (d := '2') rfl rfl, hdigit (d := '3') rfl rfl,
    hdigit (d := '4') rfl rfl, hdigit (d := '5') rfl rfl, by simp⟩

/-- The last digit of a count is read as a name if it is one of the five. -/
theorem namedPlaces?_placesRequest (hds : IsDigits ds) (hne : ds ≠ []) :
    namedPlaces? (placesRequest ds) =
      if 1 ≤ valueOf ds % 10 ∧ valueOf ds % 10 ≤ 5 then some (valueOf ds % 10) else none := by
  obtain ⟨ds, c, rfl⟩ := (List.eq_nil_or_concat' ds).resolve_left hne
  have hlt := digitValue_lt (hds c (by simp))
  have hlast : valueOf (ds ++ [c]) % 10 = digitValue c := by
    rw [valueOf_concat, Nat.mul_add_mod, Nat.mod_eq_of_lt hlt]
  have hfind := List.find?_congr (namedRequest_occursIn hds)
  rewrite [namedPlaces?, hfind, hlast]
  generalize digitValue c = n at hlt
  decide +revert

/-! ## Requests -/

/-- A count of up to a hundred places is honoured. For a larger one the answer is its last digit if
that is one to five, and else none. -/
theorem requestedPlaces?_placesRequest (hds : IsDigits ds) (hne : ds ≠ []) :
    requestedPlaces? (placesRequest ds) =
      if valueOf ds ≤ maxPlaces then some (valueOf ds)
      else if 1 ≤ valueOf ds % 10 ∧ valueOf ds % 10 ≤ 5 then some (valueOf ds % 10) else none := by
  have hlower : lower (placesRequest ds) = placesRequest ds := lower_around rfl hds rfl
  simp only [requestedPlaces?, hlower, countedPlaces?_placesRequest hds hne,
    namedPlaces?_placesRequest hds hne]
  split <;> rfl

/-- A count that cannot be honoured and that ends with no such digit. -/
theorem requestedPlaces?_placesRequest_thousand :
    IsDigits "1000".toList ∧ "1000".toList ≠ [] ∧ requestedPlaces? (placesRequest "1000".toList) = none := by
  have hdigits : IsDigits "1000".toList := by simp [IsDigits]
  exact ⟨hdigits, by decide, requestedPlaces?_placesRequest hdigits (by decide)⟩

/-- A count of a hundred and one places is too large, and is read as one place. -/
theorem last_digit_requested :
    maxPlaces < 101 ∧ requestedPlaces? (placesRequest (digits 101)) = some 1 := by
  decide +kernel

end AnswerCheck.Answer
