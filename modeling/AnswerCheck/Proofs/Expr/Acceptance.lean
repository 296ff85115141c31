import AnswerCheck.Proofs.Expr.Completeness

/-! # Which texts are sides of equations

A text is accepted with an expression exactly if it keeps the limits, denotes the expression as a
whole, and the expression is not nested too deeply. Since what is derived is read, no text denotes
two expressions.
-/

set_option autoImplicit false

namespace AnswerCheck

open Text Grammar

/-! ## Reading a whole text -/

theorem read_of_denotes {limit n : Nat} {t : List Char} {e : Expr} (h : Denotes isSpace t e)
    (hroom : Room limit n 0 t) : ∃ ending, sum (readers n) t = .ok ⟨e, ending, []⟩ := by
  obtain ⟨ts, ending, hspelled, hderives⟩ := h
  refine ⟨ending, ?_⟩
  have hread := hderives.reads n t [] hspelled (by rwa [List.append_nil]) (ends_nil .sum)
  rw [List.append_nil] at hread
  exact hread.trans (sumFrom_end (readers_sound n) (by simp [next, skipSpaces])
    (by simp [next, skipSpaces]))

theorem denotes_unique {t : List Char} {e e' : Expr} (h : Denotes isSpace t e)
    (h' : Denotes isSpace t e') : e = e' := by
  -- No text is too long to be read with levels enough.
  have hroom : Room (longestSignRun 0 t)
      ((longestSignRun 0 t + 1) * entries t + longestSignRun 0 t) 0 t :=
    ⟨Nat.le_refl _, Nat.le_refl _⟩
  obtain ⟨ending, hread⟩ := read_of_denotes h hroom
  obtain ⟨ending', hread'⟩ := read_of_denotes h' hroom
  have := Except.ok.inj (hread.symm.trans hread')
  exact congrArg Parsed.expr this

/-- The limits leave levels enough. -/
theorem WithinLimits.room {t : List Char} (h : WithinLimits t) :
    Room maxSignRun maxReaderLevels 0 t := by
  have hentries := Nat.mul_le_mul_left (maxSignRun + 1) (entries_le h)
  have hrun := longestSignRun_zero_le_iff.mpr h.signs
  refine ⟨Nat.le_trans (Nat.add_le_add_right hentries _) ?_, hrun⟩
  decide

theorem blank_of_trim_eq_nil {s : List Char} (h : trim s = []) : ∀ c ∈ s, isBlank c = true := by
  obtain ⟨left, right, hs, hleft, hright⟩ := exists_eq_append_trim s
  rw [h, List.append_nil] at hs
  intro c hc
  rw [hs] at hc
  obtain hc | hc := List.mem_append.mp hc
  · exact hleft c hc
  · exact hright c hc

/-- A trimmed text does not end with blanks. -/
theorem eq_nil_of_trim {s used rest : List Char} (h : trim s = used ++ rest)
    (hrest : ∀ c ∈ rest, isBlank c = true) : rest = [] := by
  have hstop : Stops isBlank (trim s).reverse := by
    rw [trim, trimWhile, dropEndWhile, List.reverse_reverse]
    exact stops_dropWhile isBlank _
  rw [h, List.reverse_append] at hstop
  cases hr : rest.reverse with
  | nil => exact List.reverse_eq_nil_iff.mp hr
  | cons c r =>
    rw [hr, List.cons_append] at hstop
    have hc : c ∈ rest := List.mem_reverse.mp (hr ▸ List.mem_cons_self)
    have := stops_cons.mp hstop
    rw [hrest c hc] at this
    cases this

/-! ## Acceptance -/

theorem ofText_sound {s : List Char} {e : Expr} (h : Expr.ofText s = .ok e) :
    WithinLimits (sideText s) ∧ Denotes isSpace (sideText s) e ∧ e.nesting ≤ maxNesting := by
  unfold Expr.ofText at h
  simp only at h
  split at h
  · cases h
  · next hne =>
    split at h
    · cases h
    · next hlimits =>
      split at h
      · cases h
      · cases h
      · next parsed hparsed =>
        split at h
        · cases h
        · next hconsumed =>
          split at h
          · cases h
          · next hnesting =>
            obtain rfl := Except.ok.inj h
            rw [level_eq_readers] at hparsed
            obtain ⟨ts, used, hside, hspelled, hderives⟩ := (readers_sound _).sum hparsed
            have hblank := blank_of_trim_eq_nil (by simpa using hconsumed)
            have hrest := eq_nil_of_trim hside hblank
            rw [hrest, List.append_nil] at hside
            refine ⟨brokenLimit?_eq_none_iff.mp ⟨by simpa using hne, hlimits⟩, ?_, by omega⟩
            rw [hside]
            exact ⟨ts, parsed.ending, hspelled, hderives⟩

theorem ofText_complete {s : List Char} {e : Expr} (hlimits : WithinLimits (sideText s))
    (hdenotes : Denotes isSpace (sideText s) e) (hnesting : e.nesting ≤ maxNesting) :
    Expr.ofText s = .ok e := by
  obtain ⟨hne, hnone⟩ := brokenLimit?_eq_none_iff.mpr hlimits
  obtain ⟨ending, hread⟩ := read_of_denotes hdenotes hlimits.room
  have hsum : (level maxReaderLevels).sum (sideText s) = .ok ⟨e, ending, []⟩ := by
    rw [level_eq_readers]
    exact hread
  unfold Expr.ofText
  simp only [List.isEmpty_iff, hne, hnone, hsum]
  rw [if_neg (by simp), if_neg (by simp [trim, trimWhile, dropEndWhile]), if_neg (by omega)]

/-- A text is accepted with an expression exactly if, with plain minus signs and without blanks
around it, it keeps the limits and denotes the expression, and the expression is not nested too
deeply; and no text denotes two expressions. -/
theorem accepted_iff (s : List Char) :
    (∀ e, Expr.ofText s = .ok e ↔
      WithinLimits (sideText s) ∧ Denotes isSpace (sideText s) e ∧ e.nesting ≤ maxNesting) ∧
    ∀ e e', Denotes isSpace (sideText s) e → Denotes isSpace (sideText s) e' → e = e' :=
  ⟨fun _ => ⟨ofText_sound, fun ⟨hlimits, hdenotes, hnesting⟩ =>
    ofText_complete hlimits hdenotes hnesting⟩, fun _ _ => denotes_unique⟩

def isAsciiBlank (c : Char) : Bool :=
  c = ' ' || c = '\t' || c = '\n' || c = '\x0c' || c = '\r'

/-- Between tokens the form feed is no blank, although it is ASCII white space: a sum with one after
its first number is not accepted as that sum. -/
theorem form_feed_not_accepted :
    WithinLimits (sideText ['1', '\x0c', '+', '2']) ∧
    Denotes isAsciiBlank (sideText ['1', '\x0c', '+', '2'])
      (.arith .add (.number (Decimal.toFloat ⟨1, 0⟩)) (.number (Decimal.toFloat ⟨2, 0⟩))) ∧
    (Expr.arith .add (.number (Decimal.toFloat ⟨1, 0⟩)) (.number (Decimal.toFloat ⟨2, 0⟩))).nesting ≤
      maxNesting ∧
    Expr.ofText ['1', '\x0c', '+', '2'] = .error (.unconsumed ['+', '2']) := by
  have hside : sideText ['1', '\x0c', '+', '2'] = ['1', '\x0c', '+', '2'] := by decide
  rw [hside]
  refine ⟨brokenLimit?_eq_none_iff.mp ⟨by simp, by decide⟩, ?_, ?_, rfl⟩
  · have hdigit (c : Char) (hc : c.isDigit = true) :
        Derives .factor [.number [c]] (.number (Decimal.ofParts [c] [] 0).toFloat) .digit :=
      .number (@Decimal.Numeral.mk [c] _ _ _ _ (by simpa [Decimal.IsDigits] using hc) .none .none
        (by simp))
    have hterm (c : Char) (hc : c.isDigit = true) :=
      Derives.operand (.unsigned rfl (.base (hdigit c hc)))
    refine ⟨[.number ['1']] ++ .operator .add :: [.number ['2']], .digit, ?_,
      .plus rfl (.term (hterm '1' rfl)) (hterm '2' rfl)⟩
    have hnone : ∀ c ∈ ([] : List Char), isAsciiBlank c = true := by simp
    have hfeed : ∀ c ∈ ['\x0c'], isAsciiBlank c = true := by simp [isAsciiBlank]
    exact .cons (.number ['1']) hnone (.cons (.operator .add) hfeed (.cons (.number ['2']) hnone .nil))
  · simp [Expr.nesting, Expr.nestingIn, maxNesting]

end AnswerCheck
