import AnswerCheck.Proofs.Spelling.Meaning
import AnswerCheck.Proofs.Spelling.Segments
import AnswerCheck.Proofs.Text.Digits

/-! # Powers written with two stars

Two texts that differ only in how powers are written are related segment by segment. The stages other
than the one for stars keep the relation: what they do to a text with stars can be done to the text
with carets as well.
-/

set_option autoImplicit false

namespace AnswerCheck.Spelling

open Text Grammar

variable {s t u v w : List Char} {back : List Char → Prop}

/-! ## Operands -/

/-- The characters that operands of powers end and start with, and the caret. No stage takes them
away or puts others in their place. -/
def isSolid (c : Char) : Bool :=
  c.isAlphanum || c = '(' || c = ')' || c = '-' || c = '^'

theorem isBlank_of_isSolid {c : Char} (h : isSolid c = true) : isBlank c = false := by
  simp only [isSolid, Bool.or_eq_true, decide_eq_true_eq] at h
  obtain (((h | rfl) | rfl) | rfl) | rfl := h
  · exact isBlank_of_isAlphanum h
  all_goals rfl

theorem map_plainMinus_of_solid (ht : ∀ c ∈ t, isSolid c = true) : t.map plainMinus = t := by
  have hself : t.map plainMinus = t.map id :=
    List.map_congr_left fun c hc => plainMinus_eq_self (p := isSolid) (by decide) (ht c hc)
  rw [hself, List.map_id]

theorem eq_of_thinned_solid (h : Thinned w t) (ht : ∀ c ∈ t, isSolid c = true) : w = t :=
  h.eq_of_no_blanks fun c hc => isBlank_of_isSolid (ht c hc)

/-- A letter, a digit or an opening parenthesis. -/
def opensOperand (c : Char) : Bool :=
  c.isAlphanum || c = '('

/-- A letter, a digit or a closing parenthesis. -/
def closesOperand (c : Char) : Bool :=
  c.isAlphanum || c = ')'

/-- What opens an operand, after a minus sign or not. -/
inductive ExponentStart : List Char → Prop
  | plain {c : Char} (hc : opensOperand c = true) : ExponentStart [c]
  | minus {c : Char} (hc : opensOperand c = true) : ExponentStart ['-', c]

/-- What closes an operand. -/
inductive BaseEnd : List Char → Prop
  | mk {c : Char} (hc : closesOperand c = true) : BaseEnd [c]

/-- A caret with an exponent of a single letter or digit. -/
inductive RaisedEnd : List Char → Prop
  | plain {c : Char} (hc : c.isAlphanum = true) : RaisedEnd ['^', c]
  | minus {c : Char} (hc : c.isAlphanum = true) : RaisedEnd ['^', '-', c]

/-- The text starts with an exponent. -/
def StartsExponent (s : List Char) : Prop :=
  ∃ start rest, s = start ++ rest ∧ ExponentStart start

/-- The text ends with such a piece. -/
def EndsIn (back : List Char → Prop) (s : List Char) : Prop :=
  ∃ front t, s = front ++ t ∧ back t

theorem ExponentStart.solid (h : ExponentStart t) : ∀ c ∈ t, isSolid c = true := by
  have hsolid {c : Char} (hc : opensOperand c = true) : isSolid c = true := by
    rw [opensOperand] at hc
    simp only [isSolid, hc, Bool.true_or]
  cases h with
  | plain hc => simp [hsolid hc]
  | minus hc => simp [hsolid hc, show isSolid '-' = true from rfl]

theorem ExponentStart.not_mem (h : ExponentStart t) : '^' ∉ t := by
  have hne {c : Char} (hc : opensOperand c = true) : '^' ≠ c := by
    rintro rfl
    exact absurd hc (by decide)
  cases h with
  | plain hc => simp [hne hc]
  | minus hc => simp [hne hc]

theorem ExponentStart.tidyScientific {start : List Char} (h : ExponentStart start) (rest : List Char) :
    ∃ rest', tidyScientific (start ++ rest) = start ++ rest' := by
  have hfirst (c : Char) : ∃ rest', Spelling.tidyScientific (c :: rest) = c :: rest' :=
    List.head?_eq_some_iff.mp (tidyScientific_sameEnds (c :: rest)).1
  cases h with
  | @plain c hc => exact hfirst c
  | @minus c hc =>
    obtain ⟨rest', htidy⟩ := hfirst c
    exact ⟨rest', (tidyScientific_minus _).trans (congrArg _ htidy)⟩

namespace StartsExponent

theorem map_plainMinus (h : StartsExponent u) : StartsExponent (u.map plainMinus) := by
  obtain ⟨start, rest, rfl, hstart⟩ := h
  exact ⟨start, rest.map plainMinus, by rw [List.map_append, map_plainMinus_of_solid hstart.solid], hstart⟩

theorem thinned (h : StartsExponent u) (ht : Thinned w u) : StartsExponent w := by
  obtain ⟨start, rest, rfl, hstart⟩ := h
  obtain ⟨start', rest', rfl, hstart', -⟩ := ht.of_append
  exact ⟨start, rest', by rw [eq_of_thinned_solid hstart' hstart.solid], hstart⟩

theorem tidyScientific (h : StartsExponent u) : StartsExponent (tidyScientific u) := by
  obtain ⟨start, rest, rfl, hstart⟩ := h
  obtain ⟨rest', htidy⟩ := hstart.tidyScientific rest
  exact ⟨start, rest', htidy, hstart⟩

end StartsExponent

/-! ## Ends of segments -/

/-- Pieces that the segments before powers may end with. -/
structure SegmentEnd (back : List Char → Prop) : Prop where
  base {t : List Char} (h : back t) : EndsIn BaseEnd t
  solid {t : List Char} (h : back t) : ∀ c ∈ t, isSolid c = true
  rest {start s : List Char} (hstart : ExponentStart start) (h : EndsIn back (start ++ s)) (hs : s ≠ []) :
    EndsIn back s
  tidyScientific {s : List Char} (h : EndsIn back s) : EndsIn back (tidyScientific s)

theorem EndsIn.append (h : EndsIn back s) (front : List Char) : EndsIn back (front ++ s) := by
  obtain ⟨front', t, rfl, ht⟩ := h
  exact ⟨front ++ front', t, by rw [List.append_assoc], ht⟩

theorem endsIn_base_iff : EndsIn BaseEnd s ↔ ∃ front c, s = front ++ [c] ∧ closesOperand c = true := by
  constructor
  · rintro ⟨front, _, rfl, @⟨c, hc⟩⟩
    exact ⟨front, c, rfl, hc⟩
  · rintro ⟨front, c, rfl, hc⟩
    exact ⟨front, [c], rfl, .mk hc⟩

theorem segmentEnd_base : SegmentEnd BaseEnd where
  base h := ⟨[], _, rfl, h⟩
  solid h := by
    obtain ⟨hc⟩ := h
    rename_i c
    simp only [closesOperand, Bool.or_eq_true, decide_eq_true_eq] at hc
    obtain hc | rfl := hc
    · simp [isSolid, hc]
    · simp [isSolid]
  rest hstart h hs := by
    obtain ⟨front, c, htext, hc⟩ := endsIn_base_iff.mp h
    obtain ⟨s, d, rfl⟩ := (List.eq_nil_or_concat' _).resolve_left hs
    rw [← List.append_assoc] at htext
    obtain ⟨-, hlast⟩ := List.append_inj' htext rfl
    exact endsIn_base_iff.mpr ⟨s, c, by rw [hlast], hc⟩
  tidyScientific h := by
    obtain ⟨front, c, rfl, hc⟩ := endsIn_base_iff.mp h
    have hlast := (tidyScientific_sameEnds (front ++ [c])).2
    rw [List.getLast?_concat] at hlast
    obtain ⟨front', htidy⟩ := List.getLast?_eq_some_iff.mp hlast
    exact endsIn_base_iff.mpr ⟨front', c, htidy, hc⟩

theorem tidyScientific_singleton (c : Char) : tidyScientific [c] = [c] := by
  by_cases hc : c.isDigit = true
  · have hdigits : Decimal.IsDigits [c] := by simpa [Decimal.IsDigits] using hc
    exact tidyScientific_whole (stops_nil _) hdigits (by simp) Decimal.Power.none
  · exact tidyScientific_cons (Bool.eq_false_iff.mpr hc) []

theorem RaisedEnd.eq_caret (h : RaisedEnd t) : ∃ rest, t = '^' :: rest := by
  cases h with
  | plain hc => exact ⟨_, rfl⟩
  | minus hc => exact ⟨_, rfl⟩

theorem RaisedEnd.tidyScientific_eq (h : RaisedEnd t) : tidyScientific t = t := by
  cases h with
  | plain hc => rw [tidyScientific_cons rfl, tidyScientific_singleton]
  | minus hc => rw [tidyScientific_cons rfl, tidyScientific_minus, tidyScientific_singleton]

theorem segmentEnd_raised : SegmentEnd RaisedEnd where
  base h := by
    have hbase {c : Char} (hc : c.isAlphanum = true) : BaseEnd [c] := .mk (by simp [closesOperand, hc])
    cases h with
    | plain hc => exact ⟨['^'], _, rfl, hbase hc⟩
    | minus hc => exact ⟨['^', '-'], _, rfl, hbase hc⟩
  solid h := by
    cases h with
    | plain hc => simp [isSolid, hc]
    | minus hc => simp [isSolid, hc]
  rest hstart h hs := by
    obtain ⟨front, t, htext, ht⟩ := h
    obtain ⟨m, -, rfl⟩ | ⟨m, rfl, htail⟩ := List.append_eq_append_iff.mp htext
    · exact ⟨m, t, rfl, ht⟩
    · -- The caret cannot be in the start of the exponent.
      cases m with
      | nil => exact ⟨[], t, by simpa using htail.symm, ht⟩
      | cons c m =>
        obtain ⟨rest, rfl⟩ := ht.eq_caret
        obtain ⟨rfl, -⟩ := List.cons.inj htail
        exact absurd (by simp) hstart.not_mem
  tidyScientific h := by
    obtain ⟨front, t, rfl, ht⟩ := h
    have hstop : Stops inNumber t := by
      obtain ⟨rest, rfl⟩ := ht.eq_caret
      exact stops_cons.mpr rfl
    exact ⟨tidyScientific front, t, by rw [tidyScientific_separated hstop, ht.tidyScientific_eq], ht⟩

theorem SegmentEnd.map_plainMinus (hback : SegmentEnd back) (h : EndsIn back s) :
    EndsIn back (s.map plainMinus) := by
  obtain ⟨front, t, rfl, ht⟩ := h
  exact ⟨front.map plainMinus, t, by rw [List.map_append, map_plainMinus_of_solid (hback.solid ht)], ht⟩

theorem SegmentEnd.thinned (hback : SegmentEnd back) (h : EndsIn back s) (ht : Thinned t s) :
    EndsIn back t := by
  obtain ⟨front, last, rfl, hlast⟩ := h
  obtain ⟨front', last', rfl, -, hlast'⟩ := ht.of_append
  exact ⟨front', last, by rw [eq_of_thinned_solid hlast' (hback.solid hlast)], hlast⟩

/-! ## Texts with stars and with carets -/

/-- `Starred back u v`: the text `v` is `u` with two stars for some of its carets. What stands before
such a caret ends with a piece `back`, and an exponent stands after it. -/
inductive Starred (back : List Char → Prop) : List Char → List Char → Prop
  | same (s : List Char) : Starred back s s
  | power {s u v : List Char} (hs : EndsIn back s) (hu : StartsExponent u) (h : Starred back u v) :
      Starred back (s ++ '^' :: u) (s ++ '*' :: '*' :: v)

namespace Starred

theorem mem (h : Starred back u v) {c : Char} (hc : c ∈ v) : c ∈ u ∨ c = '*' := by
  induction h with
  | same s => exact Or.inl hc
  | power hs hu h ih =>
    simp only [List.mem_append, List.mem_cons] at hc ⊢
    obtain hc | hc | hc | hc := hc
    · exact Or.inl (Or.inl hc)
    · exact Or.inr hc
    · exact Or.inr hc
    · exact (ih hc).imp_left fun hu => Or.inr (Or.inr hu)

theorem append (h : Starred back u v) (front : List Char) : Starred back (front ++ u) (front ++ v) := by
  cases h with
  | same s => exact same _
  | power hs hu h =>
    rw [← List.append_assoc, ← List.append_assoc]
    exact power (hs.append front) hu h

/-- At the start of an exponent both texts are the same, and a segment may end there. -/
theorem exponent {start : List Char} (hback : SegmentEnd back) (hstart : ExponentStart start)
    (h : Starred back (start ++ u) v) :
    ∃ rest, v = start ++ rest ∧ (Starred back u rest ∨ EndsIn back start ∧ ∃ u' v',
      u = '^' :: u' ∧ rest = '*' :: '*' :: v' ∧ StartsExponent u' ∧ Starred back u' v') := by
  generalize htext : start ++ u = text at h
  cases h with
  | same s => exact ⟨u, htext.symm, Or.inl (same u)⟩
  | @power s u' v' hs hu h =>
    obtain ⟨m, rfl, hm⟩ | ⟨m, hsplit, hm⟩ := List.append_eq_append_iff.mp htext
    · refine ⟨m ++ '*' :: '*' :: v', by rw [List.append_assoc], ?_⟩
      by_cases hne : m = []
      · subst hne
        rw [List.append_nil] at hs
        exact Or.inr ⟨hs, u', v', hm, rfl, hu, h⟩
      · rw [hm]
        exact Or.inl (power (hback.rest hstart hs hne) hu h)
    · cases m with
      | nil =>
        rw [List.append_nil] at hsplit
        subst hsplit
        exact ⟨'*' :: '*' :: v', rfl, Or.inr ⟨hs, u', v', hm.symm, rfl, hu, h⟩⟩
      | cons c m =>
        obtain ⟨rfl, -⟩ := List.cons.inj hm
        exact absurd (by simp [hsplit]) hstart.not_mem

/-! ### Stages -/

theorem map_plainMinus (hback : SegmentEnd back) (h : Starred back u v) :
    Starred back (u.map plainMinus) (v.map plainMinus) := by
  induction h with
  | same s => exact same _
  | power hs hu h ih =>
    rw [List.map_append, List.map_append]
    exact power (hback.map_plainMinus hs) hu.map_plainMinus ih

theorem thinned (hback : SegmentEnd back) (h : Starred back u v) (hw : Thinned w v) :
    ∃ u', Thinned u' u ∧ Starred back u' w := by
  induction h generalizing w with
  | same s => exact ⟨w, hw, same w⟩
  | power hs hu h ih =>
    obtain ⟨s', w', rfl, hs', hw'⟩ := hw.of_append
    obtain ⟨stars, w'', rfl, hstars, hw''⟩ := Thinned.of_append (s := ['*', '*']) hw'
    obtain rfl := hstars.eq_of_no_blanks fun c hc => by
      obtain rfl : c = '*' := by simpa using hc
      rfl
    obtain ⟨u', hu', hstarred⟩ := ih hw''
    exact ⟨s' ++ '^' :: u', hs'.append (.keep '^' hu'),
      power (hback.thinned hs hs') (hu.thinned hu') hstarred⟩

theorem tidyScientific (hback : SegmentEnd back) (h : Starred back u v) :
    Starred back (tidyScientific u) (tidyScientific v) := by
  induction h with
  | same s => exact same _
  | power hs hu h ih =>
    rw [tidyScientific_separated (stops_cons.mpr rfl), tidyScientific_separated (stops_cons.mpr rfl),
      tidyScientific_cons rfl, tidyScientific_cons rfl, tidyScientific_cons rfl]
    exact power (hback.tidyScientific hs) hu.tidyScientific ih

theorem hasNoBareRadicand (h : Starred back u v) (hu : HasNoBareRadicand u) : HasNoBareRadicand v := by
  induction h with
  | same s => exact hu
  | @power s u v hs _ h ih =>
    rintro rest ⟨front, htext⟩
    obtain ⟨m, rfl, hm⟩ | ⟨m, rfl, hm⟩ := List.append_eq_append_iff.mp htext
    · -- The root stands in the segment, and only what follows it may have changed.
      obtain ⟨gap, rfl, rfl⟩ : ∃ gap, m = "sqrt".toList ++ gap ∧ rest = gap ++ '*' :: '*' :: v := by
        obtain ⟨k, rfl, hk⟩ | ⟨k, hname, hk⟩ := List.append_eq_append_iff.mp hm
        · exact ⟨k, rfl, hk⟩
        · cases k with
          | nil => exact ⟨[], by simpa using hname.symm, hk.symm⟩
          | cons c k =>
            obtain ⟨rfl, -⟩ := List.cons.inj hk
            have hstar : '*' ∈ "sqrt".toList := by simp [hname]
            exact absurd hstar (by decide)
      have hstop := hu (gap ++ '^' :: u) ⟨front, by simp⟩
      rw [dropWhile_append_stops (stops_cons.mpr rfl)] at hstop ⊢
      cases hgap : gap.dropWhile isInlineBlank with
      | nil => exact stops_cons.mpr rfl
      | cons c gap =>
        rw [hgap] at hstop
        exact stops_cons.mpr (stops_cons.mp hstop)
    · -- The root stands after the stars.
      have hv : "sqrt".toList ++ rest <:+ v := by
        match m, hm with
        | [], hm => exact absurd (List.cons.inj hm).1 (by decide)
        | [_], hm => exact absurd (List.cons.inj (List.cons.inj hm).2).1 (by decide)
        | _ :: _ :: m, hm => exact ⟨m, (List.cons.inj (List.cons.inj hm).2).2.symm⟩
      exact ih (hu.of_suffix ⟨s ++ ['^'], by simp⟩) rest hv

end Starred

end AnswerCheck.Spelling
