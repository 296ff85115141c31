import AnswerCheck.Proofs.Expr.Acceptance
import AnswerCheck.Proofs.Spelling.Sizes
import AnswerCheck.Proofs.Spelling.Tokens

/-! # What a text means stays through the stages

A text means an expression if it denotes it, apart from blanks around it. In such a text only blanks
and numbers are rewritten, and what comes out means the same. Since it is smaller as well, it keeps
the limits that the text kept.
-/

set_option autoImplicit false

namespace AnswerCheck.Spelling

open Text Grammar Decimal

/-- A property of texts that goes over to smaller texts. -/
class Inherited (keeps : List Char → Prop) : Prop where
  smaller {t s : List Char} (h : Smaller t s) (hne : t ≠ []) (hs : keeps s) : keeps t

instance : Inherited WithinLimits :=
  ⟨fun h hne hs => h.withinLimits hs hne⟩

instance (ps : List Char) : Inherited fun s => parentheses s = ps :=
  ⟨fun h _ hs => h.parentheses.trans hs⟩

variable {keeps : List Char → Prop} {s t rest : List Char} {e : Expr}

/-- Apart from blanks around it, the text denotes the expression and has the property. -/
inductive Means (keeps : List Char → Prop) : List Char → Expr → Prop
  | mk {left formula right : List Char} {e : Expr} (hleft : ∀ c ∈ left, isBlank c = true)
      (hright : ∀ c ∈ right, isBlank c = true) (hkeeps : keeps formula)
      (hdenotes : Denotes isSpace formula e) : Means keeps (left ++ formula ++ right) e

theorem Means.blank (h : Means keeps s e) : Means keeps (' ' :: s) e := by
  obtain ⟨hleft, hright, hkeeps, hdenotes⟩ := h
  rename_i left formula right
  have hblanks : ∀ c ∈ ' ' :: left, isBlank c = true := List.forall_mem_cons.mpr ⟨rfl, hleft⟩
  exact .mk hblanks hright hkeeps hdenotes

/-! ## Characters -/

theorem spelled_all {ts : List Token} (h : Spelled isSpace ts s) (hvalid : ∀ token ∈ ts, token.Valid)
    {p : Char → Bool} (hblank : ∀ c, isBlank c = true → p c = true)
    (hdigit : ∀ c, c.isDigit = true → p c = true) (hsymbols : symbols.all p = true) :
    ∀ c ∈ s, p c = true := by
  induction h with
  | nil => simp
  | cons token hgap _ ih =>
    obtain ⟨htoken, hvalid⟩ := List.forall_mem_cons.mp hvalid
    intro c hc
    rw [List.append_assoc, List.mem_append, List.mem_append] at hc
    obtain hc | hc | hc := hc
    · exact hblank c (isBlank_of_isSpace (hgap c hc))
    · exact htoken.all hdigit hsymbols c hc
    · exact ih hvalid c hc

/-- What holds of blanks, of digits and of the other characters of tokens holds of the text. -/
theorem Means.all (h : Means keeps s e) {p : Char → Bool} (hblank : ∀ c, isBlank c = true → p c = true)
    (hdigit : ∀ c, c.isDigit = true → p c = true) (hsymbols : symbols.all p = true) :
    ∀ c ∈ s, p c = true := by
  obtain ⟨hleft, hright, -, ts, ending, hspelled, hderives⟩ := h
  intro c hc
  rw [List.append_assoc, List.mem_append, List.mem_append] at hc
  obtain hc | hc | hc := hc
  · exact hblank c (hleft c hc)
  · exact spelled_all hspelled hderives.valid hblank hdigit hsymbols c hc
  · exact hblank c (hright c hc)

theorem Means.not_mem (h : Means keeps s e) {c : Char} (hblank : isBlank c = false)
    (hdigit : c.isDigit = false) (hsymbols : symbols.contains c = false) : c ∉ s := by
  have hne (p : Char → Bool) (hp : p c = false) (d : Char) (hd : p d = true) : (d != c) = true :=
    bne_iff_ne.mpr (ne_of_kind hd hp)
  intro hc
  have hself := h.all (p := (· != c)) (hne isBlank hblank) (hne Char.isDigit hdigit) ?_ c hc
  · simp at hself
  · rw [List.all_eq_true]
    exact fun d hd => hne symbols.contains hsymbols d (by simpa using hd)

theorem symbolSpelling?_of_isDigit {c : Char} (h : c.isDigit = true) : symbolSpelling? c = none := by
  unfold symbolSpelling?
  split <;> first | rfl | exact absurd h (by decide)

theorem Means.symbolSpelling? (h : Means keeps s e) : ∀ c ∈ s, symbolSpelling? c = none := by
  have hall := h.all (p := fun c => (Spelling.symbolSpelling? c).isNone)
    (fun c hc => by rw [symbolSpelling?_of_isBlank hc]; rfl)
    (fun c hc => by rw [symbolSpelling?_of_isDigit hc]; rfl) (by decide)
  simpa using hall

theorem isSuperscript_of_isDigit {c : Char} (h : c.isDigit = true) : isSuperscript c = false := by
  unfold isSuperscript superscriptSpelling?
  split <;> first | rfl | exact absurd h (by decide)

theorem Means.isSuperscript (h : Means keeps s e) : ∀ c ∈ s, isSuperscript c = false := by
  have hall := h.all (p := fun c => !Spelling.isSuperscript c) (fun c hc => ?_) (fun c hc => ?_)
    (by decide)
  · simpa using hall
  · rw [Spelling.isSuperscript, superscriptSpelling?_of_isBlank hc]
    rfl
  · rw [isSuperscript_of_isDigit hc]
    rfl

/-! ## Stages that find nothing to do -/

theorem Means.wrapRadicands_append (h : Means keeps s e) (rest : List Char) :
    wrapRadicands (s ++ rest) = s ++ wrapRadicands rest := by
  obtain ⟨hleft, hright, -, ts, ending, hspelled, hderives⟩ := h
  have hjoined := hderives.joined
  rw [List.append_assoc, List.append_assoc, Spelling.wrapRadicands_append (not_mem_of_blanks hleft rfl),
    spelled_wrapRadicands hspelled hderives.valid hjoined.chain (fun f hf => ?_),
    Spelling.wrapRadicands_append (not_mem_of_blanks hright rfl), List.append_assoc, List.append_assoc]
  exact EndsWith.not_function (hjoined.last _ hf)

theorem Means.wrapRadicands_eq (h : Means keeps s e) : wrapRadicands s = s := by
  have hself := h.wrapRadicands_append []
  have hnil : wrapRadicands [] = [] := rfl
  rwa [hnil, List.append_nil] at hself

theorem Means.isChain_append (h : Means keeps s e) (hrest : rest.IsChain NotBothStars)
    (hstop : Stops (· == '*') rest) : (s ++ rest).IsChain NotBothStars := by
  obtain ⟨hleft, hright, -, ts, ending, hspelled, hderives⟩ := h
  rename_i left formula right
  have hblanks : Stops (· == '*') right :=
    stops_of_blanks hright fun c hc => by simpa using ne_of_kind hc (d := '*') rfl
  rw [List.append_assoc, List.append_assoc]
  exact isChain_append_of_not_mem (not_mem_of_blanks hleft rfl)
    (spelled_isChain hspelled hderives.valid hderives.joined.chain
      (isChain_append_of_not_mem (not_mem_of_blanks hright rfl) hrest) (stops_append hblanks hstop))

theorem Means.isChain (h : Means keeps s e) : s.IsChain NotBothStars := by
  have hchain := h.isChain_append List.isChain_nil (stops_nil _)
  rwa [List.append_nil] at hchain

theorem Means.replaceStars_eq (h : Means keeps s e) : replaceStars s = s :=
  replaceStars_eq_self h.isChain

/-! ## Dashes -/

/-- The dashes that are read as minus signs. -/
def minusSigns : List Char := ['\u2212', '\u2013', '\u2014', '\u2012']

theorem plainMinus_cases (c : Char) : plainMinus c = c ∨ c ∈ minusSigns ∧ plainMinus c = '-' := by
  unfold plainMinus
  split
  · next hdash =>
    refine Or.inr ⟨?_, rfl⟩
    simpa [minusSigns, or_assoc] using hdash
  · exact Or.inl rfl

theorem plainMinus_eq_self {c : Char} {p : Char → Bool} (hp : minusSigns.any p = false)
    (h : p c = true) : plainMinus c = c := by
  obtain hsame | ⟨hdash, -⟩ := plainMinus_cases c
  · exact hsame
  · exact absurd h (List.any_eq_false.mp hp c hdash)

theorem Means.map_plainMinus (h : Means keeps s e) : s.map plainMinus = s := by
  have hall := h.all (p := fun c => plainMinus c == c)
    (fun c hc => by simpa using plainMinus_eq_self (p := isBlank) (by decide) hc)
    (fun c hc => by simpa using plainMinus_eq_self (p := Char.isDigit) (by decide) hc) (by decide)
  have hself : s.map plainMinus = s.map id := List.map_congr_left fun c hc => eq_of_beq (hall c hc)
  rw [hself, List.map_id]

/-! ## Stages that rewrite -/

variable [Inherited keeps]

theorem Means.thinned (h : Means keeps s e) (ht : Thinned t s) : Means keeps t e := by
  obtain ⟨hleft, hright, hkeeps, ts, ending, hspelled, hderives⟩ := h
  obtain ⟨t', right', rfl, ht', hthin⟩ := ht.of_append
  obtain ⟨left', formula', rfl, hthin', hformula⟩ := ht'.of_append
  have hspelled' := spelled_of_thinned hspelled hderives.valid hformula
  refine Means.mk (hthin'.blanks rfl hleft) (hthin.blanks rfl hright)
    (Inherited.smaller hformula.smaller ?_ hkeeps) ⟨ts, ending, hspelled', hderives⟩
  exact hspelled'.ne_nil hderives.valid hderives.ne_nil

/-- The stage for numbers keeps what a text means, and what follows does not matter to it. -/
theorem Means.tidyScientific_append (h : Means keeps s e) :
    Means keeps (tidyScientific s) e ∧ ∀ rest, Stops continuesNumeral rest →
      tidyScientific (s ++ rest) = tidyScientific s ++ tidyScientific rest := by
  obtain ⟨hleft, hright, hkeeps, ts, ending, hspelled, hderives⟩ := h
  rename_i left formula right
  have hderives' := derives_tidyToken hderives
  have hblanks : Stops continuesNumeral right :=
    stops_of_blanks hright fun c hc => continuesNumeral_of_isBlank hc
  have htidy (rest : List Char) (hrest : Stops continuesNumeral rest) :=
    spelled_tidyScientific hspelled hderives.valid hderives.joined.chain (stops_append hblanks hrest)
  have happend (rest : List Char) (hrest : Stops continuesNumeral rest) :
      tidyScientific (left ++ formula ++ right ++ rest) =
        left ++ tidyScientific formula ++ right ++ tidyScientific rest := by
    rw [List.append_assoc, List.append_assoc,
      Spelling.tidyScientific_append (not_digit_of_blanks hleft), (htidy rest hrest).1,
      Spelling.tidyScientific_append (not_digit_of_blanks hright), List.append_assoc, List.append_assoc]
  have hself := tidyScientific_eq_of_append happend
  have hspelled' := (htidy [] (stops_nil _)).2
  refine ⟨?_, fun rest hrest => by rw [happend rest hrest, hself]⟩
  rw [hself]
  exact Means.mk hleft hright (Inherited.smaller (tidyScientific_smaller _)
    (hspelled'.ne_nil hderives'.valid hderives'.ne_nil) hkeeps) ⟨_, ending, hspelled', hderives'⟩

/-- The stages after the mathematical characters keep what a text means. -/
theorem Means.stages (h : Means keeps s e) :
    Means keeps (tidyBlanks (Spelling.tidyScientific (replaceStars (replaceSuperscripts
      (wrapRadicands (tidyRoots (spellBars s))))))) e := by
  have hroots := h.thinned (tidyRoots_thinned s)
  rw [spellBars_eq_self (h.not_mem rfl rfl rfl), hroots.wrapRadicands_eq,
    replaceSuperscripts_eq_self hroots.isSuperscript, hroots.replaceStars_eq]
  exact hroots.tidyScientific_append.1.thinned (tidyBlanks_thinned _)

/-! ## Acceptance -/

theorem Means.denotes_sideText (h : Means keeps s e) :
    keeps (sideText s) ∧ Denotes isSpace (sideText s) e := by
  have hside : Means keeps (sideText s) e := by
    rw [sideText, h.map_plainMinus]
    exact h.thinned (trim_thinned s)
  generalize htrim : sideText s = side at hside
  obtain ⟨hleft, hright, hkeeps, hdenotes⟩ := hside
  rename_i left formula right
  obtain rfl := eq_nil_of_trim htrim hright
  cases left with
  | nil =>
    rw [List.nil_append, List.append_nil]
    exact ⟨hkeeps, hdenotes⟩
  | cons c left =>
    have hstop := stops_trim (s.map plainMinus)
    rw [← sideText, htrim] at hstop
    have hc := hleft c List.mem_cons_self
    rw [stops_cons.mp hstop] at hc
    cases hc

theorem Means.ofText (h : Means WithinLimits s e) (hnesting : e.nesting ≤ maxNesting) :
    Expr.ofText s = .ok e :=
  ofText_complete h.denotes_sideText.1 h.denotes_sideText.2 hnesting

theorem means_of_ofText (h : Expr.ofText s = .ok e) :
    Means WithinLimits (s.map plainMinus) e ∧ e.nesting ≤ maxNesting := by
  obtain ⟨hlimits, hdenotes, hnesting⟩ := ofText_sound h
  obtain ⟨left, right, hs, hleft, hright⟩ := exists_eq_append_trim (s.map plainMinus)
  rw [hs]
  exact ⟨Means.mk hleft hright hlimits hdenotes, hnesting⟩

end AnswerCheck.Spelling
