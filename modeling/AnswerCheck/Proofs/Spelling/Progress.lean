import AnswerCheck.Proofs.Spelling.Thinning

/-! # Every change is progress

Three counts order the texts: the marks that the ASCII spelling does away with, then the opening
parentheses, of which more are better, then the bulk that is left. Each stage of a pass returns its
text or one that stands lower in this order. So no pass can lead back to an earlier text.
-/

set_option autoImplicit false

namespace AnswerCheck.Spelling

open Text

/-! ## Three counts -/

/-- A character that no stage writes: delimiters, bars, and all that has another spelling. -/
def isMark (c : Char) : Bool :=
  c = '\\' || c = '$' || c = '|' || (symbolSpelling? c).isSome || isSuperscript c

/-- A blank on one line other than a space. -/
def isWideBlank (c : Char) : Bool :=
  isInlineBlank c && c != ' '

/-- Number of marks. -/
def marks (s : List Char) : Nat := s.countP isMark

/-- Number of opening parentheses. -/
def opened (s : List Char) : Nat := s.count '('

/-- Number of characters, where blanks other than spaces and small exponent marks count twice. -/
def bulk (s : List Char) : Nat := s.length + s.count 'e' + s.countP isWideBlank

theorem marks_append (s t : List Char) : marks (s ++ t) = marks s + marks t :=
  List.countP_append

theorem opened_append (s t : List Char) : opened (s ++ t) = opened s + opened t :=
  List.count_append

theorem bulk_append (s t : List Char) : bulk (s ++ t) = bulk s + bulk t := by
  simp only [bulk, List.length_append, List.count_append, List.countP_append]
  omega

theorem marks_cons (c : Char) (s : List Char) : marks (c :: s) = marks [c] + marks s :=
  marks_append [c] s

theorem opened_cons (c : Char) (s : List Char) : opened (c :: s) = opened [c] + opened s :=
  opened_append [c] s

theorem isMark_of_isBlank {c : Char} (h : isBlank c = true) : isMark c = false := by
  simp [isMark, isSuperscript, symbolSpelling?_of_isBlank h, superscriptSpelling?_of_isBlank h,
    ne_of_kind h (d := '\\') rfl, ne_of_kind h (d := '$') rfl, ne_of_kind h (d := '|') rfl]

/-! ## The order -/

/-- `Tidier t s`: the text `t` stands lower than `s`. -/
def Tidier (t s : List Char) : Prop :=
  marks t < marks s ∨ marks t = marks s ∧
    (opened s < opened t ∨ opened t = opened s ∧ bulk t < bulk s)

/-- The text is the same or stands lower. -/
def TidierOrSame (t s : List Char) : Prop :=
  t = s ∨ Tidier t s

theorem Tidier.trans {s t u : List Char} (hst : Tidier s t) (htu : Tidier t u) : Tidier s u := by
  unfold Tidier at *
  omega

theorem Tidier.irrefl (s : List Char) : ¬ Tidier s s := by
  unfold Tidier
  omega

theorem congruence_tidierOrSame : Congruence TidierOrSame where
  refl s := Or.inl rfl
  trans {s t u} hst htu := by
    obtain rfl | hst := hst
    · exact htu
    · obtain rfl | htu := htu
      · exact Or.inr hst
      · exact Or.inr (hst.trans htu)
  append {s s' t t'} hs ht := by
    obtain rfl | hs := hs
    · obtain rfl | ht := ht
      · exact Or.inl rfl
      · refine Or.inr ?_
        simp only [Tidier, marks_append, opened_append, bulk_append] at ht ⊢
        omega
    · refine Or.inr ?_
      obtain rfl | ht := ht
      · simp only [Tidier, marks_append, opened_append, bulk_append] at hs ⊢
        omega
      · simp only [Tidier, marks_append, opened_append, bulk_append] at hs ht ⊢
        omega

/-- Losing a mark is progress. -/
theorem tidier_of_marks_lt {t s : List Char} (h : marks t < marks s) : TidierOrSame t s :=
  Or.inr (Or.inl h)

/-! ## Delimiters -/

theorem rewrites_displayed : Rewrites TidierOrSame displayed? := by
  intro s out rest h
  refine ⟨['$', '$'] ++ out ++ ['$', '$'], by simp, by simp [displayed?_eq_some h],
    tidier_of_marks_lt ?_⟩
  have hdollars : marks ['$', '$'] = 2 := rfl
  simp only [marks_append]
  omega

theorem rewrites_inlined : Rewrites TidierOrSame inlined? := by
  intro s out rest h
  refine ⟨['$'] ++ out ++ ['$'], by simp, by simp [inlined?_eq_some h], tidier_of_marks_lt ?_⟩
  have hdollar : marks ['$'] = 1 := rfl
  simp only [marks_append]
  omega

theorem rewrites_bracket : Rewrites TidierOrSame bracket? := by
  intro s out rest h
  obtain ⟨c, -, rfl, rfl⟩ := bracket?_eq_some h
  refine ⟨['\\', c], by simp, rfl, tidier_of_marks_lt ?_⟩
  have hbackslash : marks ['\\'] = 1 := rfl
  have hnone : marks [] = 0 := rfl
  rw [marks_cons]
  omega

theorem stripDelimiters_tidierOrSame (s : List Char) : TidierOrSame (stripDelimiters s) s := by
  refine congruence_tidierOrSame.settle (fun s => ?_) _ s
  exact congruence_tidierOrSame.trans (congruence_tidierOrSame.replaceAll rewrites_bracket _)
    (congruence_tidierOrSame.trans (congruence_tidierOrSame.replaceAll rewrites_inlined _)
      (congruence_tidierOrSame.replaceAll rewrites_displayed s))

/-! ## Commands -/

theorem rewrites_fraction : Rewrites TidierOrSame fraction? := by
  intro s out rest h
  obtain ⟨gap, numerator, gap', denominator, hs, rfl⟩ := fraction?_eq_some h
  refine ⟨_, by simp, hs, tidier_of_marks_lt ?_⟩
  have hword : marks "\\frac".toList = 1 := by decide
  have hbetween : marks [')', '/', '('] = 0 := rfl
  have hopen : marks ['('] = 0 := rfl
  have hclose : marks [')'] = 0 := rfl
  simp only [marks_append, marks_cons '(' numerator]
  omega

theorem rewrites_radical : Rewrites TidierOrSame radical? := by
  intro s out rest h
  obtain ⟨gap, radicand, hs, rfl⟩ := radical?_eq_some h
  refine ⟨_, by simp, hs, tidier_of_marks_lt ?_⟩
  have hword : marks "\\sqrt".toList = 1 := by decide
  have hcall : marks "sqrt(".toList = 0 := by decide
  have hclose : marks [')'] = 0 := rfl
  simp only [marks_append]
  omega

/-- A size command is a word with a backslash. -/
theorem afterSize?_eq_some {s rest : List Char} (h : afterSize? s = some rest) :
    ∃ word, s = word ++ rest ∧ marks word = 1 := by
  obtain h | ⟨-, h⟩ := Option.or_eq_some_iff.mp h
  · exact ⟨_, after?_eq_some.mp h, by decide⟩
  · exact ⟨_, after?_eq_some.mp h, by decide⟩

theorem rewrites_sized : Rewrites TidierOrSame sized? := by
  intro s out rest h
  simp only [sized?, Option.bind_eq_bind, Option.bind_eq_some_iff] at h
  obtain ⟨s₁, hsize, hout⟩ := h
  obtain ⟨word, rfl, hword⟩ := afterSize?_eq_some hsize
  split at hout
  · next c rest' hdelimiter =>
    split at hout
    · obtain ⟨rfl, rfl⟩ := Prod.mk.inj (Option.some.inj hout)
      refine ⟨word ++ s₁.takeWhile isBlank ++ [c], by simp,
        (congrArg (word ++ ·) (eq_takeWhile_append hdelimiter)).trans (by simp),
        tidier_of_marks_lt ?_⟩
      simp only [marks_append]
      omega
    · cases hout
  · cases hout

theorem rewrites_hidden : Rewrites TidierOrSame hidden? := by
  intro s out rest h
  simp only [hidden?, Option.bind_eq_bind, Option.bind_eq_some_iff] at h
  obtain ⟨s₁, hsize, hout⟩ := h
  obtain ⟨word, rfl, hword⟩ := afterSize?_eq_some hsize
  split at hout
  · obtain ⟨rfl, rfl⟩ := Prod.mk.inj (Option.some.inj hout)
    refine ⟨word ++ ['.'], by simp, by simp, tidier_of_marks_lt ?_⟩
    have hnone : marks [] = 0 := rfl
    rw [marks_append]
    omega
  · cases hout

theorem rewrites_command {table : List (String × String)} {ends : List Char → Bool}
    (htable : ∀ entry ∈ table, marks entry.2.toList = 0) :
    Rewrites TidierOrSame (command? table ends) := by
  intro s out rest h
  obtain ⟨⟨name, spelling⟩, hentry, h⟩ := List.exists_of_findSome?_eq_some h
  simp only at h
  split at h
  · next rest' hafter =>
    split at h
    · obtain ⟨rfl, rfl⟩ := Prod.mk.inj (Option.some.inj h)
      refine ⟨'\\' :: name.toList, by simp, after?_eq_some.mp hafter, tidier_of_marks_lt ?_⟩
      have hbackslash : marks ['\\'] = 1 := rfl
      rw [marks_cons, htable _ hentry]
      omega
    · cases h
  · cases h

theorem spellCommands_tidierOrSame (s : List Char) : TidierOrSame (spellCommands s) s := by
  have harguments : TidierOrSame (spellArguments s) s :=
    congruence_tidierOrSame.settle (fun s =>
      congruence_tidierOrSame.trans (congruence_tidierOrSame.replaceAll rewrites_radical _)
        (congruence_tidierOrSame.replaceAll rewrites_fraction s)) _ s
  have hsymbols : Rewrites TidierOrSame symbol? := rewrites_command (by decide)
  have hoperators : Rewrites TidierOrSame operator? := rewrites_command (by decide)
  refine congruence_tidierOrSame.trans (congruence_tidierOrSame.replaceAll hsymbols _) ?_
  refine congruence_tidierOrSame.trans (congruence_tidierOrSame.replaceAll hoperators _) ?_
  refine congruence_tidierOrSame.trans (congruence_tidierOrSame.replaceAll rewrites_hidden _) ?_
  exact congruence_tidierOrSame.trans (congruence_tidierOrSame.replaceAll rewrites_sized _)
    harguments

/-! ## Symbols, bars and superscripts -/

theorem marks_of_symbolSpelling? {c : Char} {spelling : String}
    (h : symbolSpelling? c = some spelling) : marks spelling.toList = 0 := by
  unfold symbolSpelling? at h
  split at h <;> first | cases h; decide | cases h

theorem spellSymbol_tidierOrSame (c : Char) : TidierOrSame (spellSymbol c) [c] := by
  unfold spellSymbol
  split
  · next spelling h =>
    refine tidier_of_marks_lt ?_
    have hmark : marks [c] = 1 := by simp [marks, isMark, h]
    rw [marks_of_symbolSpelling? h, hmark]
    omega
  · exact Or.inl rfl

theorem replaceSymbols_tidierOrSame (s : List Char) : TidierOrSame (replaceSymbols s) s := by
  induction s with
  | nil => exact Or.inl rfl
  | cons c s ih => exact congruence_tidierOrSame.append (spellSymbol_tidierOrSame c) ih

theorem rewrites_barred : Rewrites TidierOrSame barred? := by
  intro s out rest h
  unfold barred? at h
  split at h
  · split at h
    · next inside rest' hrun =>
      obtain ⟨rfl, rfl⟩ := Prod.mk.inj (Option.some.inj h)
      refine ⟨['|'] ++ inside ++ ['|'], by simp, by simp [(run?_eq_some hrun).1],
        tidier_of_marks_lt ?_⟩
      have hbar : marks ['|'] = 1 := rfl
      have hcall : marks "abs(".toList = 0 := by decide
      have hclose : marks [')'] = 0 := rfl
      simp only [marks_append]
      omega
    · cases h
  · cases h

theorem spellBars_tidierOrSame (s : List Char) : TidierOrSame (spellBars s) s :=
  congruence_tidierOrSame.settle (congruence_tidierOrSame.replaceAll rewrites_barred) _ s

/-- A raised character is one mark; what it raises is none. -/
theorem marks_superscripts {s : List Char} (h : ∀ c ∈ s, isSuperscript c = true) :
    marks s = s.length ∧ marks (s.filterMap superscriptSpelling?) = 0 := by
  constructor
  · rw [marks, List.countP_eq_length]
    intro c hc
    simp [isMark, h c hc]
  · rw [marks, List.countP_eq_zero]
    intro c hc
    obtain ⟨d, -, hd⟩ := List.mem_filterMap.mp hc
    unfold superscriptSpelling? at hd
    split at hd <;> first | cases hd; decide | cases hd

theorem marks_powerText (base : Char) (exponent : List Char) :
    marks (powerText base exponent) = marks [base] + marks exponent := by
  have hcaret : marks ['^'] = 0 := rfl
  have hopen : marks ['('] = 0 := rfl
  have hclose : marks [')'] = 0 := rfl
  unfold powerText
  split
  · rw [marks_cons, marks_cons '^']
    omega
  · simp only [marks_append, marks_cons base ('^' :: _), marks_cons '^' ('(' :: _),
      marks_cons '(' exponent]
    omega

theorem rewrites_superscripted : Rewrites TidierOrSame superscripted? := by
  intro s out rest h
  cases s with
  | nil => cases h
  | cons base s =>
    rw [superscripted?] at h
    split at h
    · split at h
      · next raised rest' hrun =>
        obtain ⟨rfl, rfl⟩ := Prod.mk.inj (Option.some.inj h)
        obtain ⟨rfl, hne, hall, -⟩ := run?_eq_some hrun
        refine ⟨base :: raised, by simp, rfl, tidier_of_marks_lt ?_⟩
        obtain ⟨hraised, hspelled⟩ := marks_superscripts hall
        have := List.length_pos_iff.mpr hne
        rw [marks_powerText, marks_cons base raised, hraised, hspelled]
        omega
      · cases h
    · cases h

/-! ## Blanks and roots -/

/-- Progress without a change of marks and parentheses. -/
theorem tidier_of_bulk_lt {t s : List Char} (hmarks : marks t = marks s)
    (hopened : opened t = opened s) (hbulk : bulk t < bulk s) : TidierOrSame t s :=
  Or.inr (Or.inr ⟨hmarks, Or.inr ⟨hopened, hbulk⟩⟩)

theorem marks_of_isBlank {c : Char} (h : isBlank c = true) : marks [c] = 0 := by
  rw [marks, List.countP_cons_of_neg (by simp [isMark_of_isBlank h]), List.countP_nil]

theorem opened_of_isBlank {c : Char} (h : isBlank c = true) : opened [c] = 0 := by
  rw [opened, List.count_cons_of_ne (ne_of_kind h (d := '(') rfl), List.count_nil]

theorem drop_tidierOrSame {c : Char} (h : isBlank c = true) : TidierOrSame [] [c] := by
  refine tidier_of_bulk_lt (marks_of_isBlank h).symm (opened_of_isBlank h).symm ?_
  have hnone : bulk [] = 0 := rfl
  rw [hnone, bulk, List.length_singleton]
  omega

theorem space_tidierOrSame {c : Char} (h : isInlineBlank c = true) : TidierOrSame [' '] [c] := by
  have hblank := isBlank_of_isInlineBlank h
  by_cases hc : c = ' '
  · rw [hc]
    exact Or.inl rfl
  · have hwide : isWideBlank c = true := by simp [isWideBlank, h, hc]
    have hspace : bulk [' '] = 1 := rfl
    refine tidier_of_bulk_lt (marks_of_isBlank hblank).symm (opened_of_isBlank hblank).symm ?_
    rw [hspace, bulk, List.length_singleton, List.countP_cons_of_pos hwide]
    omega

/-- Taking blanks away is progress. -/
theorem Thinned.tidierOrSame {t s : List Char} (h : Thinned t s) : TidierOrSame t s := by
  induction h with
  | nil => exact Or.inl rfl
  | keep c _ ih => exact congruence_tidierOrSame.append (congruence_tidierOrSame.refl [c]) ih
  | drop hc _ ih => exact congruence_tidierOrSame.append (drop_tidierOrSame hc) ih
  | space hc _ ih => exact congruence_tidierOrSame.append (space_tidierOrSame hc) ih

/-! ## Radicands -/

theorem closing?_eq_some {n : Nat} {s inside rest : List Char}
    (h : closing? n s = some (inside, rest)) : s = inside ++ rest := by
  induction s generalizing n inside with
  | nil => cases h
  | cons c s ih =>
    unfold closing? at h
    split at h
    · split at h
      · obtain ⟨rfl, rfl⟩ := Prod.mk.inj (Option.some.inj h)
        rfl
      · obtain ⟨⟨inside', rest'⟩, hclosing, heq⟩ := Option.map_eq_some_iff.mp h
        obtain ⟨rfl, rfl⟩ := Prod.mk.inj heq
        rw [ih hclosing, List.cons_append]
    · obtain ⟨⟨inside', rest'⟩, hclosing, heq⟩ := Option.map_eq_some_iff.mp h
      obtain ⟨rfl, rfl⟩ := Prod.mk.inj heq
      rw [ih hclosing, List.cons_append]

theorem parenthesis?_eq_some {s arguments rest : List Char}
    (h : parenthesis? s = some (arguments, rest)) : s = arguments ++ rest := by
  unfold parenthesis? at h
  split at h
  · obtain ⟨⟨inside', rest'⟩, hclosing, heq⟩ := Option.map_eq_some_iff.mp h
    obtain ⟨rfl, rfl⟩ := Prod.mk.inj heq
    rw [closing?_eq_some hclosing, List.cons_append]
  · cases h

/-- Parentheses around a part of a text are progress. -/
theorem parenthesized_tidierOrSame (s t : List Char) :
    TidierOrSame ('(' :: s ++ ')' :: t) (s ++ t) := by
  have hmarks : marks ['('] = 0 ∧ marks [')'] = 0 := ⟨rfl, rfl⟩
  have hopened : opened ['('] = 1 ∧ opened [')'] = 0 := ⟨rfl, rfl⟩
  refine Or.inr (Or.inr ⟨?_, Or.inl ?_⟩)
  · rw [marks_append, marks_append, marks_cons '(' s, marks_cons ')' t]
    omega
  · rw [opened_append, opened_append, opened_cons '(' s, opened_cons ')' t]
    omega

theorem wrapRadicand_tidierOrSame (s : List Char) : TidierOrSame (wrapRadicand s) s := by
  have hgap : TidierOrSame (s.dropWhile isInlineBlank) s := by
    have hblanks : ∀ c ∈ s.takeWhile isInlineBlank, isBlank c = true := by
      intro c hc
      exact isBlank_of_isInlineBlank (List.mem_takeWhile_imp hc)
    have hthin := (Thinned.of_blanks hblanks).append (Thinned.refl (s.dropWhile isInlineBlank))
    rw [List.takeWhile_append_dropWhile] at hthin
    exact hthin.tidierOrSame
  unfold wrapRadicand
  split
  · exact Or.inl rfl
  · next run rest hrun =>
    refine congruence_tidierOrSame.trans ?_ hgap
    rw [(run?_eq_some hrun).1]
    split
    · next arguments rest' harguments =>
      rw [parenthesis?_eq_some harguments, ← List.append_assoc]
      exact parenthesized_tidierOrSame (run ++ arguments) rest'
    · exact parenthesized_tidierOrSame run rest

theorem wrapRadicands_tidierOrSame (s : List Char) : TidierOrSame (wrapRadicands s) s := by
  fun_induction wrapRadicands s with
  | case1 => exact Or.inl rfl
  | case2 s ih =>
    exact congruence_tidierOrSame.append (congruence_tidierOrSame.refl "sqrt".toList)
      (congruence_tidierOrSame.trans (wrapRadicand_tidierOrSame _) ih)
  | case3 c s _ ih => exact congruence_tidierOrSame.append (congruence_tidierOrSame.refl [c]) ih

/-! ## Powers and numbers -/

theorem rewrites_starred {base gap exponent : Char → Bool}
    (hgap : ∀ c, gap c = true → isBlank c = true) :
    Rewrites TidierOrSame (starred? base gap exponent) := by
  intro s out rest h
  obtain ⟨c, left, right, start, rfl, hleft, hright, -, rfl⟩ := starred?_eq_some h
  have hgone {t : List Char} (ht : ∀ d ∈ t, gap d = true) : TidierOrSame [] t :=
    (Thinned.of_blanks fun d hd => hgap d (ht d hd)).tidierOrSame
  have hstars : TidierOrSame ['^'] ['*', '*'] := tidier_of_bulk_lt rfl rfl (by decide)
  refine ⟨[c] ++ left ++ ['*', '*'] ++ right ++ start, by simp, by simp, ?_⟩
  exact congruence_tidierOrSame.append (s := [c] ++ [] ++ ['^'] ++ [])
    (congruence_tidierOrSame.append (congruence_tidierOrSame.append
      (congruence_tidierOrSame.append (congruence_tidierOrSame.refl [c]) (hgone hleft)) hstars)
      (hgone hright)) (congruence_tidierOrSame.refl start)

theorem replaceStars_tidierOrSame (s : List Char) : TidierOrSame (replaceStars s) s := by
  have htight : Rewrites TidierOrSame tightPower? := rewrites_starred (by simp)
  have hspaced : Rewrites TidierOrSame spacedPower? :=
    rewrites_starred fun c => isBlank_of_isInlineBlank
  exact congruence_tidierOrSame.trans (congruence_tidierOrSame.replaceAll hspaced _)
    (congruence_tidierOrSame.replaceAll htight s)

/-- Dropping characters that are neither marks nor opening parentheses is progress. -/
theorem dropEndWhile_tidierOrSame {p : Char → Bool}
    (hp : ∀ c, p c = true → marks [c] = 0 ∧ opened [c] = 0) (s : List Char) :
    TidierOrSame (dropEndWhile p s) s := by
  obtain ⟨dropped, hs, hdropped⟩ := exists_eq_append_dropEndWhile p s
  have hcounts : marks dropped = 0 ∧ opened dropped = 0 := by
    clear hs
    induction dropped with
    | nil => exact ⟨rfl, rfl⟩
    | cons c dropped ih =>
      have hc := hp c (hdropped c List.mem_cons_self)
      have := ih fun d hd => hdropped d (List.mem_cons_of_mem c hd)
      rw [marks_cons, opened_cons]
      omega
  cases dropped with
  | nil => exact Or.inl (by simpa using hs.symm)
  | cons c dropped =>
    have hpos : 0 < bulk (c :: dropped) := by
      rw [bulk, List.length_cons]
      omega
    refine tidier_of_bulk_lt ?_ ?_ ?_
    · rw [hs, marks_append, ← hs]
      omega
    · rw [hs, opened_append, ← hs]
      omega
    · rw [hs, bulk_append, ← hs]
      omega

theorem shortMantissa_tidierOrSame (s : List Char) : TidierOrSame (shortMantissa s) s := by
  unfold shortMantissa
  split
  · refine congruence_tidierOrSame.trans (dropEndWhile_tidierOrSame ?_ _)
      (dropEndWhile_tidierOrSame ?_ s)
    · intro c hc
      rw [eq_of_beq hc]
      exact ⟨rfl, rfl⟩
    · intro c hc
      rw [eq_of_beq hc]
      exact ⟨rfl, rfl⟩
  · exact Or.inl rfl

theorem rewrites_scientific : Rewrites TidierOrSame scientific? := by
  intro s out rest h
  obtain ⟨sign, mantissa, mark, powerSign, power, hs, hmark, -, -, rfl⟩ := scientific?_eq_some h
  have hletter : TidierOrSame ['E'] [mark] := by
    obtain rfl | rfl := hmark
    · exact tidier_of_bulk_lt rfl rfl (by decide)
    · exact Or.inl rfl
  have hsign : TidierOrSame (if powerSign = ['+'] then [] else powerSign) powerSign := by
    split
    · next hplus =>
      rw [hplus]
      exact tidier_of_bulk_lt rfl rfl (by decide)
    · exact Or.inl rfl
  refine ⟨sign ++ mantissa ++ [mark] ++ powerSign ++ power, by simp, hs, ?_⟩
  exact congruence_tidierOrSame.append (congruence_tidierOrSame.append
    (congruence_tidierOrSame.append (congruence_tidierOrSame.append
      (congruence_tidierOrSame.refl sign) (shortMantissa_tidierOrSame mantissa)) hletter) hsign)
    (congruence_tidierOrSame.refl power)

/-! ## Passes -/

/-- A pass returns its text or a tidier one. -/
theorem pass_tidierOrSame (s : List Char) : TidierOrSame (pass s) s := by
  have trans {s t u : List Char} := @(congruence_tidierOrSame.trans (s := s) (t := t) (u := u))
  refine trans (tidyBlanks_thinned _).tidierOrSame ?_
  refine trans (congruence_tidierOrSame.replaceAll rewrites_scientific _) ?_
  refine trans (replaceStars_tidierOrSame _) ?_
  refine trans (congruence_tidierOrSame.replaceAll rewrites_superscripted _) ?_
  refine trans (wrapRadicands_tidierOrSame _) ?_
  refine trans (tidyRoots_thinned _).tidierOrSame ?_
  refine trans (spellBars_tidierOrSame _) ?_
  refine trans (replaceSymbols_tidierOrSame _) ?_
  exact trans (spellCommands_tidierOrSame _) (stripDelimiters_tidierOrSame s)

end AnswerCheck.Spelling
