import AnswerCheck.Proofs.Text.Replacing
import AnswerCheck.Text.Pattern

/-! # Where patterns occur

A pattern fits a piece of text, and the character before the piece matters only at word edges. Words
with blanks between them occur in a text exactly if, somewhere in it, one word of the text ends with
the first and the next one starts with the second.
-/

set_option autoImplicit false

namespace AnswerCheck.Text.Pattern

variable {p q : Pattern} {goal : Goal} {before : Option Char} {s t : List Char}

/-! ## Pieces that fit -/

theorem getLast?_or_cons (c : Char) (s : List Char) (before : Option Char) :
    ((c :: s).getLast?).or before = s.getLast?.or (some c) := by
  rw [List.getLast?_cons]
  cases s.getLast? <;> rfl

theorem reaches_iff {accepts : Char → Bool} :
    reaches accepts goal before s = true ↔ ∃ run rest, s = run ++ rest ∧
      (∀ c ∈ run, accepts c = true) ∧ goal (run.getLast?.or before) rest = true := by
  induction s generalizing before with
  | nil =>
    constructor
    · intro h
      exact ⟨[], [], rfl, by simp, h⟩
    · rintro ⟨run, rest, hs, -, h⟩
      obtain ⟨rfl, rfl⟩ := List.append_eq_nil_iff.mp hs.symm
      exact h
  | cons c s ih =>
    rw [reaches, Bool.or_eq_true, Bool.and_eq_true, ih]
    constructor
    · rintro (h | ⟨hc, run, rest, rfl, hrun, h⟩)
      · exact ⟨[], c :: s, rfl, by simp, h⟩
      · refine ⟨c :: run, rest, rfl, List.forall_mem_cons.mpr ⟨hc, hrun⟩, ?_⟩
        rwa [getLast?_or_cons]
    · rintro ⟨run, rest, hs, hrun, h⟩
      cases run with
      | nil =>
        rw [List.nil_append] at hs
        exact Or.inl (hs ▸ h)
      | cons d run =>
        obtain ⟨rfl, rfl⟩ := List.cons.inj hs
        obtain ⟨hc, hrun⟩ := List.forall_mem_cons.mp hrun
        rw [getLast?_or_cons] at h
        exact Or.inr ⟨hc, run, rest, rfl, hrun, h⟩

theorem fits_inOrder_cons (p : Pattern) (ps : List Pattern) (goal : Goal) :
    (inOrder (p :: ps)).fits goal = p.fits ((inOrder ps).fits goal) := by
  cases ps <;> rfl

/-- Characters that are read up to a folding. -/
theorem fits_folded_iff (fold : Char → Char) (w : List Char) :
    (inOrder (w.map fun c => one (fold · == c))).fits goal before s = true ↔
      ∃ read rest, s = read ++ rest ∧ read.map fold = w ∧ goal (read.getLast?.or before) rest = true := by
  induction w generalizing before s with
  | nil =>
    constructor
    · intro h
      exact ⟨[], s, rfl, rfl, h⟩
    · rintro ⟨read, rest, rfl, hread, h⟩
      obtain rfl := List.map_eq_nil_iff.mp hread
      exact h
  | cons d w ih =>
    rw [List.map_cons, fits_inOrder_cons]
    cases s with
    | nil =>
      refine iff_of_false Bool.false_ne_true ?_
      rintro ⟨read, rest, hs, hread, -⟩
      obtain ⟨rfl, -⟩ := List.append_eq_nil_iff.mp hs.symm
      cases hread
    | cons c s =>
      simp only [fits, Bool.and_eq_true, beq_iff_eq, ih]
      constructor
      · rintro ⟨rfl, read, rest, rfl, rfl, h⟩
        exact ⟨c :: read, rest, rfl, rfl, (getLast?_or_cons c read before).symm ▸ h⟩
      · rintro ⟨read, rest, hs, hread, h⟩
        obtain ⟨d', read, rfl, hd, hmore⟩ := List.map_eq_cons_iff.mp hread
        obtain ⟨rfl, rfl⟩ := List.cons.inj hs
        exact ⟨hd, read, rest, rfl, hmore, getLast?_or_cons c read before ▸ h⟩

theorem fits_word_iff {w : String} :
    (word w).fits goal before s = true ↔
      ∃ rest, s = w.toList ++ rest ∧ goal (w.toList.getLast?.or before) rest = true := by
  refine (fits_folded_iff id w.toList).trans ⟨?_, ?_⟩
  · rintro ⟨read, rest, rfl, hread, h⟩
    obtain rfl : read = w.toList := by rwa [List.map_id] at hread
    exact ⟨rest, rfl, h⟩
  · rintro ⟨rest, rfl, h⟩
    exact ⟨w.toList, rest, rfl, List.map_id _, h⟩

theorem fits_wordCaseless_iff {w : String} :
    (wordCaseless w).fits goal before s = true ↔
      ∃ read rest, s = read ++ rest ∧ read.map foldCase = w.toList ∧
        goal (read.getLast?.or before) rest = true :=
  fits_folded_iff foldCase w.toList

theorem fits_someBlanks_iff :
    someBlanks.fits goal before s = true ↔ ∃ gap rest, s = gap ++ rest ∧ gap ≠ [] ∧
      (∀ c ∈ gap, isBlank c = true) ∧ goal gap.getLast? rest = true := by
  cases s with
  | nil => simp [someBlanks, oneOrMore, fits]
  | cons c s =>
    have hlast (gap : List Char) : gap.getLast?.or (some c) = (c :: gap).getLast? := by
      rw [← getLast?_or_cons c gap none, Option.or_none]
    simp only [someBlanks, oneOrMore, fits, Bool.and_eq_true, reaches_iff, hlast]
    constructor
    · rintro ⟨hc, gap, rest, rfl, hgap, h⟩
      exact ⟨c :: gap, rest, rfl, by simp, List.forall_mem_cons.mpr ⟨hc, hgap⟩, h⟩
    · rintro ⟨gap, rest, hs, hne, hgap, h⟩
      cases gap with
      | nil => exact absurd rfl hne
      | cons d gap =>
        obtain ⟨rfl, rfl⟩ := List.cons.inj hs
        obtain ⟨hc, hgap⟩ := List.forall_mem_cons.mp hgap
        exact ⟨hc, gap, rest, rfl, hgap, h⟩

/-! ## Occurrences -/

theorem occursFrom_iff :
    p.occursFrom before s = true ↔ ∃ front rest, s = front ++ rest ∧
      p.fits (fun _ _ => true) (front.getLast?.or before) rest = true := by
  induction s generalizing before with
  | nil => simp [occursFrom]
  | cons c s ih =>
    rw [occursFrom, Bool.or_eq_true, ih]
    have hlast (front : List Char) := getLast?_or_cons c front before
    constructor
    · rintro (h | ⟨front, rest, rfl, h⟩)
      · exact ⟨[], c :: s, rfl, h⟩
      · exact ⟨c :: front, rest, rfl, (hlast front).symm ▸ h⟩
    · rintro ⟨front, rest, hs, h⟩
      cases front with
      | nil =>
        rw [List.nil_append] at hs
        exact Or.inl (hs ▸ h)
      | cons d front =>
        obtain ⟨rfl, rfl⟩ := List.cons.inj hs
        exact Or.inr ⟨front, rest, rfl, hlast front ▸ h⟩

theorem occursIn_either : (either p q).occursIn s = (p.occursIn s || q.occursIn s) := by
  rw [Bool.eq_iff_iff, Bool.or_eq_true, occursIn, occursIn, occursIn, occursFrom_iff, occursFrom_iff,
    occursFrom_iff]
  constructor
  · rintro ⟨front, rest, hs, h⟩
    exact (Bool.or_eq_true_iff.mp h).imp (⟨front, rest, hs, ·⟩) (⟨front, rest, hs, ·⟩)
  · rintro (⟨front, rest, hs, h⟩ | ⟨front, rest, hs, h⟩)
    · exact ⟨front, rest, hs, Bool.or_eq_true_iff.mpr (Or.inl h)⟩
    · exact ⟨front, rest, hs, Bool.or_eq_true_iff.mpr (Or.inr h)⟩

/-! ## Two words -/

def WordsIn (first second s : List Char) : Prop :=
  ∃ front gap rest, s = front ++ first ++ gap ++ second ++ rest ∧ gap ≠ [] ∧ ∀ c ∈ gap, isBlank c = true

theorem occursIn_words_iff {first second : String} :
    (inOrder [word first, someBlanks, word second]).occursIn s = true ↔
      WordsIn first.toList second.toList s := by
  simp only [occursIn, occursFrom_iff, fits_inOrder_cons, fits_word_iff, fits_someBlanks_iff]
  constructor
  · rintro ⟨front, _, rfl, _, rfl, gap, _, rfl, hne, hgap, rest, rfl, -⟩
    exact ⟨front, gap, rest, by simp, hne, hgap⟩
  · rintro ⟨front, gap, rest, rfl, hne, hgap⟩
    exact ⟨front, _, by simp, _, rfl, gap, _, rfl, hne, hgap, rest, rfl, rfl⟩

/-- A word that ends a text does not reach back over a blank. -/
theorem exists_front_of_blank {front first piece more : List Char} {c : Char}
    (hfirst : ∀ d ∈ first, isBlank d = false) (hc : isBlank c = true)
    (h : front ++ first = piece ++ c :: more) : ∃ front', more = front' ++ first := by
  rw [List.append_cons] at h
  obtain ⟨w, hw, rfl⟩ | ⟨w, -, rfl⟩ := List.append_eq_append_iff.mp h
  · obtain rfl | ⟨w, d, rfl⟩ := List.eq_nil_or_concat' w
    · exact ⟨[], rfl⟩
    · rw [← List.append_assoc] at hw
      obtain ⟨-, hd⟩ := List.append_inj' hw rfl
      have hblank := hfirst d (by simp)
      rw [← List.singleton_inj.mp hd, hc] at hblank
      cases hblank
  · exact ⟨w, rfl⟩

/-- Blanks at the start of a text with a single blank in front are this blank. -/
theorem eq_of_single_blank {gap rest : List Char} {c : Char} (ht : Stops isBlank t) (hne : gap ≠ [])
    (hgap : ∀ d ∈ gap, isBlank d = true) (h : c :: t = gap ++ rest) : t = rest := by
  obtain ⟨d, gap, rfl⟩ := List.exists_cons_of_ne_nil hne
  obtain ⟨-, rfl⟩ := List.cons.inj h
  cases gap with
  | nil => rfl
  | cons e gap =>
    have he := stops_cons.mp ht
    rw [hgap e (by simp)] at he
    cases he

/-- A text starts with a word. Either this word is the first of the two, or both come later. -/
theorem wordsIn_append {first second piece : List Char} {c : Char} (hfirst : ∀ d ∈ first, isBlank d = false)
    (hpiece : ∀ d ∈ piece, isBlank d = false) (hc : isBlank c = true) (ht : Stops isBlank t) :
    WordsIn first second (piece ++ c :: t) ↔ first <:+ piece ∧ second <+: t ∨ WordsIn first second t := by
  constructor
  · rintro ⟨front, gap, rest, heq, hgap, hblanks⟩
    rw [List.append_assoc, List.append_assoc (front ++ first)] at heq
    obtain ⟨more, hword, htail⟩ | ⟨more, hword, htail⟩ := List.append_eq_append_iff.mp heq
    · cases more with
      | nil =>
        have hfront : front ++ first = piece := by simpa using hword
        exact Or.inl ⟨⟨front, hfront⟩, rest, (eq_of_single_blank ht hgap hblanks htail).symm⟩
      | cons e more =>
        obtain ⟨rfl, rfl⟩ := List.cons.inj htail
        obtain ⟨front', rfl⟩ := exists_front_of_blank hfirst hc hword
        exact Or.inr ⟨front', gap, rest, by simp, hgap, hblanks⟩
    · cases more with
      | nil =>
        have hfront : front ++ first = piece := by simpa using hword.symm
        exact Or.inl ⟨⟨front, hfront⟩, rest, (eq_of_single_blank ht hgap hblanks htail.symm).symm⟩
      | cons e more =>
        -- The gap would start inside the first word of the text.
        obtain ⟨d, gap, rfl⟩ := List.exists_cons_of_ne_nil hgap
        obtain ⟨rfl, -⟩ := List.cons.inj htail
        have hd := hpiece d (by simp [hword])
        rw [hblanks d List.mem_cons_self] at hd
        cases hd
  · rintro (⟨⟨front, rfl⟩, rest, rfl⟩ | ⟨front, gap, rest, rfl, hgap, hblank⟩)
    · exact ⟨front, [c], rest, by simp, by simp, by simpa using hc⟩
    · exact ⟨piece ++ c :: front, gap, rest, by simp, hgap, hblank⟩

theorem not_wordsIn {first second : List Char} (hs : ∀ d ∈ s, isBlank d = false) :
    ¬ WordsIn first second s := by
  rintro ⟨front, gap, rest, rfl, hgap, hblank⟩
  obtain ⟨d, gap, rfl⟩ := List.exists_cons_of_ne_nil hgap
  have hd := hs d (by simp)
  rw [hblank d List.mem_cons_self] at hd
  cases hd

end AnswerCheck.Text.Pattern
