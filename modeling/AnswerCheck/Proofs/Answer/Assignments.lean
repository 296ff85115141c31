import AnswerCheck.Answer.Candidates
import AnswerCheck.Proofs.Decimal.Prose
import AnswerCheck.Proofs.Text.Digits
import AnswerCheck.Proofs.Text.Finding

/-! # Reading a list of assignments

The claimed roots are read off a text by four searches. Each goes through a list of assignments piece
by piece: the searches for assignments read the pieces with their label, and the search for numbers
reads every piece twice, because it does not tell the number of a label from the number assigned.
-/

set_option autoImplicit false

namespace AnswerCheck.Answer

open Text Decimal

/-! ## One assignment -/

/-- A number that is assigned to the variable with a label, as the line of the final answer writes
it. -/
structure Assignment where
  label : List Char
  shown : List Char
  value : Float
  isDigits : IsDigits label
  numeral : ProseNumeral shown value

def Assignment.text (a : Assignment) : List Char :=
  'x' :: a.label ++ '=' :: a.shown

/-- A character that the name of the variable may start with. -/
def startsVariable (c : Char) : Bool :=
  foldCase c == 'x'

variable {name : String} {ds : List Char}

theorem startsIn_assignment (hname : name.toList = 'x' :: ds) :
    StartsIn startsVariable (assignment? name) := by
  intro c s hc
  have hne : foldCase c ≠ 'x' := by simpa [startsVariable] using hc
  rw [assignment?, hname, afterCaseless?, if_neg hne]
  rfl

theorem startsVariable_of_isDigit {c : Char} (hc : c.isDigit = true) : startsVariable c = false := by
  rw [startsVariable, foldCase_of_isDigit hc, beq_eq_false_iff_ne]
  rintro rfl
  cases hc

theorem Assignment.not_startsVariable (a : Assignment) :
    ∀ c ∈ a.label ++ '=' :: a.shown, startsVariable c = false := by
  intro c hc
  obtain hc | rfl | hc := by simpa only [List.mem_append, List.mem_cons] using hc
  · exact startsVariable_of_isDigit (a.isDigits c hc)
  · rfl
  · obtain hc | rfl | rfl | rfl | rfl | rfl := a.numeral.mem hc
    · exact startsVariable_of_isDigit hc
    all_goals rfl

/-- A name is read off a label digit by digit. -/
theorem afterCaseless?_digits {label t : List Char} (hds : IsDigits ds) (hlabel : IsDigits label) :
    afterCaseless? ds (label ++ '=' :: t) =
      if ds <+: label then some (label.drop ds.length ++ '=' :: t) else none := by
  induction ds generalizing label with
  | nil => simp [afterCaseless?]
  | cons d ds ih =>
    have hd : d.isDigit = true := hds d List.mem_cons_self
    cases label with
    | nil =>
      have hne : foldCase '=' ≠ d := by
        rintro rfl
        cases hd
      rw [List.nil_append, afterCaseless?, if_neg hne, if_neg (by simp)]
    | cons c label =>
      have hfold : foldCase c = c := foldCase_of_isDigit (hlabel c List.mem_cons_self)
      rw [List.cons_append, afterCaseless?, hfold]
      by_cases hcd : c = d
      · subst hcd
        rw [if_pos rfl, ih (fun e he => hds e (List.mem_cons_of_mem c he))
          (fun e he => hlabel e (List.mem_cons_of_mem c he))]
        simp
      · rw [if_neg hcd, if_neg]
        rw [List.cons_prefix_cons]
        exact fun h => hcd h.1.symm

theorem stops_isBlank_shown (a : Assignment) (more : List Char) : Stops isBlank (a.shown ++ more) := by
  intro c hc
  cases hshown : a.shown with
  | nil => exact absurd hshown a.numeral.ne_nil
  | cons d shown =>
    have hd : d ∈ a.shown := by simp [hshown]
    obtain rfl : d = c := by simpa [hshown] using hc
    obtain hd | rfl | rfl | rfl | rfl | rfl := a.numeral.mem hd
    · exact isBlank_of_isDigit hd
    all_goals rfl

/-- An assignment is read for the name that has its label, and for no other. -/
theorem assignment?_text (hname : name.toList = 'x' :: ds) (hds : IsDigits ds) (a : Assignment)
    {more : List Char} (hmore : Stops continuesNumeral more) :
    assignment? name (a.text ++ more) = if a.label = ds then some (a.value, more) else none := by
  have htext : a.text ++ more = 'x' :: (a.label ++ '=' :: (a.shown ++ more)) := by
    simp [Assignment.text]
  have hstart : afterCaseless? name.toList (a.text ++ more) =
      if ds <+: a.label then some (a.label.drop ds.length ++ '=' :: (a.shown ++ more)) else none := by
    rw [hname, htext, ← afterCaseless?_digits hds a.isDigits]
    rfl
  rw [assignment?, hstart]
  by_cases heq : a.label = ds
  · rw [if_pos (heq ▸ List.prefix_refl _), if_pos heq, heq, List.drop_length]
    change signed? ((a.shown ++ more).dropWhile isBlank) = _
    rw [dropWhile_of_stops (stops_isBlank_shown a more), signed?_append a.numeral hmore]
  · rw [if_neg heq]
    split
    · next hprefix =>
      -- The label goes on after the digits of the name.
      obtain ⟨label', hlabel⟩ := hprefix
      cases label' with
      | nil => exact absurd (by simpa using hlabel.symm) heq
      | cons c label' =>
        have hc : c.isDigit = true := a.isDigits c (by simp [← hlabel])
        have hne : c ≠ '=' := by
          rintro rfl
          cases hc
        rw [← hlabel, List.drop_left]
        simp only [Option.bind_eq_bind, Option.bind_some, List.cons_append, List.dropWhile_cons,
          isBlank_of_isDigit hc, Bool.false_eq_true, if_false]
        split
        · next h => exact absurd (List.cons.inj h).1 hne
        · rfl
    · rfl

/-- What the search for assignments to a name finds in an assignment. -/
def Assignment.valueFor (ds : List Char) (a : Assignment) : List Float :=
  if a.label = ds then [a.value] else []

theorem findAll_assignment (hname : name.toList = 'x' :: ds) (hds : IsDigits ds) (a : Assignment)
    {more : List Char} (hmore : Stops continuesNumeral more) :
    findAll (assignment? name) (a.text ++ more) =
      a.valueFor ds ++ findAll (assignment? name) more := by
  have hread := assignment?_text hname hds a hmore
  rw [Assignment.valueFor]
  split at hread
  · next heq =>
    rw [findAll_append_some (by simp [Assignment.text]) hread, if_pos heq]
    rfl
  · next heq =>
    have hskip := (startsIn_assignment hname).findAll_append a.not_startsVariable more
    rw [if_neg heq, List.nil_append, ← hskip]
    exact findAll_cons_none hread

/-- What the search for numbers finds in an assignment: the number of the label, if it has one, and
the number that is assigned. -/
def Assignment.numbers (a : Assignment) : List Float :=
  (if a.label = [] then [] else [(ofParts a.label [] 0).toFloat]) ++ [a.value]

theorem startsIn_signed : StartsIn (fun c => c.isDigit || c = '-') signed? := by
  intro c s hc
  obtain ⟨hdigit, hminus⟩ := by simpa using hc
  exact signed?_of_not_digit hdigit hminus s

theorem findAll_signed (a : Assignment) {more : List Char} (hmore : Stops continuesNumeral more) :
    findAll signed? (a.text ++ more) = a.numbers ++ findAll signed? more := by
  have hvalue : findAll signed? ('=' :: (a.shown ++ more)) = a.value :: findAll signed? more := by
    rw [findAll_cons_none (startsIn_signed '=' _ rfl),
      findAll_append_some a.numeral.ne_nil (signed?_append a.numeral hmore)]
  have htext : a.text ++ more = 'x' :: (a.label ++ '=' :: (a.shown ++ more)) := by
    simp [Assignment.text]
  rw [htext, findAll_cons_none (startsIn_signed 'x' _ rfl), Assignment.numbers]
  split
  · next hlabel =>
    rw [hlabel]
    exact hvalue
  · next hlabel =>
    have hnumeral : ProseNumeral a.label (ofParts a.label [] 0).toFloat := by
      have h := PlainNumeral.mk a.isDigits hlabel .none (fun _ => rfl) .none
      rw [List.append_nil, List.append_nil] at h
      exact .unsigned h
    rw [findAll_append_some hlabel (signed?_append hnumeral (stops_cons.mpr rfl)), hvalue]
    rfl

/-! ## All assignments -/

def listed (as : List Assignment) : List Char :=
  [',', ' '].intercalate (as.map Assignment.text)

/-- A search that goes through each assignment goes through the list. -/
theorem findAll_listed {β : Type} {r : Recognizer β} {p : Char → Bool} {found : Assignment → List β}
    (hr : StartsIn p r) (hseparator : ∀ c ∈ [',', ' '], p c = false)
    (hfound : ∀ a more, Stops continuesNumeral more →
      findAll r (Assignment.text a ++ more) = found a ++ findAll r more) (as : List Assignment) :
    findAll r (listed as) = as.flatMap found := by
  induction as with
  | nil => rfl
  | cons a as ih =>
    cases as with
    | nil =>
      have h := hfound a [] (stops_nil _)
      simpa [listed, findAll, findFrom] using h
    | cons b as =>
      have hlisted : listed (a :: b :: as) = a.text ++ ([',', ' '] ++ listed (b :: as)) := by
        rw [listed, List.map_cons, List.map_cons, List.intercalate_cons_cons, ← List.map_cons,
          List.append_assoc]
        rfl
      have hmore : Stops continuesNumeral ([',', ' '] ++ listed (b :: as)) := stops_cons.mpr rfl
      rw [hlisted, hfound a _ hmore, hr.findAll_append hseparator, ih, ← List.flatMap_cons]

theorem mem_listed {as : List Assignment} {c : Char} (h : c ∈ listed as) :
    c = ',' ∨ c = ' ' ∨ ∃ a ∈ as, c ∈ a.text := by
  induction as with
  | nil => cases h
  | cons a as ih =>
    cases as with
    | nil => exact Or.inr (Or.inr ⟨a, by simp, by simpa [listed] using h⟩)
    | cons b as =>
      rw [listed, List.map_cons, List.map_cons, List.intercalate_cons_cons, ← List.map_cons,
        List.append_assoc, List.mem_append, List.mem_append] at h
      obtain h | h | h := h
      · exact Or.inr (Or.inr ⟨a, by simp, h⟩)
      · obtain rfl | rfl := by simpa using h
        · exact Or.inl rfl
        · exact Or.inr (Or.inl rfl)
      · obtain h | h | ⟨a', ha', h⟩ := ih h
        · exact Or.inl h
        · exact Or.inr (Or.inl h)
        · exact Or.inr (Or.inr ⟨a', List.mem_cons_of_mem a ha', h⟩)

/-- The list stays on its line and has no colon. -/
theorem ne_of_mem_listed {as : List Assignment} {c : Char} (h : c ∈ listed as) : c ≠ ':' ∧ c ≠ '\n' := by
  have hdigit {c : Char} (hc : c.isDigit = true) : c ≠ ':' ∧ c ≠ '\n' := by
    constructor <;>
    · rintro rfl
      cases hc
  obtain rfl | rfl | ⟨a, -, h⟩ := mem_listed h
  · decide
  · decide
  · obtain rfl | h | rfl | h := by
      simpa only [Assignment.text, List.cons_append, List.mem_cons, List.mem_append] using h
    · decide
    · exact hdigit (a.isDigits c h)
    · decide
    · obtain h | rfl | rfl | rfl | rfl | rfl := a.numeral.mem h
      · exact hdigit h
      all_goals decide

theorem afterLastColon?_none {s : List Char} (h : ∀ c ∈ s, c ≠ ':') : afterLastColon? s = none := by
  induction s with
  | nil => rfl
  | cons c s ih =>
    rw [afterLastColon?, ih fun d hd => h d (List.mem_cons_of_mem c hd)]
    simp [h c List.mem_cons_self]

/-- The line with these assignments is one final answer. -/
theorem finalNumbers_listed (as : List Assignment) :
    finalNumbers ("Final Answer: ".toList ++ listed as) = findAll signed? (' ' :: listed as) := by
  have hline : ∀ c ∈ ':' :: ' ' :: listed as, (c != '\n') = true := by
    intro c hc
    obtain rfl | rfl | hc := by simpa only [List.mem_cons] using hc
    · rfl
    · rfl
    · simp [(ne_of_mem_listed hc).2]
  have hcolon : afterLastColon? (' ' :: listed as) = none := by
    refine afterLastColon?_none fun c hc => ?_
    obtain rfl | hc := List.mem_cons.mp hc
    · decide
    · exact (ne_of_mem_listed hc).1
  have hrest : afterCaseless? "final answer".toList ("Final Answer: ".toList ++ listed as) =
      some (':' :: ' ' :: listed as) := rfl
  have hread : finalAnswer? ("Final Answer: ".toList ++ listed as) = some (' ' :: listed as, []) := by
    have htake : (':' :: ' ' :: listed as).takeWhile (· != '\n') = ':' :: ' ' :: listed as :=
      List.takeWhile_eq_self_iff.mpr hline
    have hdrop : (':' :: ' ' :: listed as).dropWhile (· != '\n') = [] :=
      List.dropWhile_eq_nil_iff.mpr hline
    rw [finalAnswer?, hrest]
    simp only [Option.bind_eq_bind, Option.bind_some, htake, hdrop]
    rw [afterLastColon?, hcolon]
    rfl
  rw [finalNumbers, findFirst?_of_some (by simp) hread]

theorem findAll_signed_listed (as : List Assignment) :
    findAll signed? (' ' :: listed as) = as.flatMap Assignment.numbers := by
  rw [findAll_cons_none (startsIn_signed ' ' _ rfl)]
  exact findAll_listed startsIn_signed (of_any_eq_false (by decide +kernel))
    (fun a _ hmore => findAll_signed a hmore) as

/-- What is claimed as roots by the line with these assignments. -/
theorem claims_listed (as : List Assignment) :
    claims ("Final Answer: ".toList ++ listed as) =
      [[], ['1'], ['2']].flatMap (fun ds => as.flatMap (Assignment.valueFor ds)) ++
        as.flatMap Assignment.numbers := by
  have hassigned (ds : List Char) {name : String} (hname : name.toList = 'x' :: ds)
      (hds : IsDigits ds) : findAll (assignment? name) ("Final Answer: ".toList ++ listed as) =
        as.flatMap (Assignment.valueFor ds) := by
    rw [(startsIn_assignment hname).findAll_append (of_any_eq_false (by decide +kernel))]
    exact findAll_listed (startsIn_assignment hname) (of_any_eq_false (by decide +kernel))
      (fun a _ hmore => findAll_assignment hname hds a hmore) as
  rw [claims, finalNumbers_listed, findAll_signed_listed]
  simp only [rootNames, List.flatMap_cons, List.flatMap_nil, List.append_nil]
  rw [hassigned [] rfl (by simp [IsDigits]), hassigned ['1'] rfl (by simp [IsDigits]),
    hassigned ['2'] rfl (by simp [IsDigits])]

end AnswerCheck.Answer
