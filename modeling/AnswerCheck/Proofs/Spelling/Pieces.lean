import AnswerCheck.Proofs.Spelling.Meaning

/-! # Roots and blanks in pieces of a text

The stages for roots and for blanks look ahead in the text: a root reads up to its parenthesis, and a
run of blanks up to the next character. In a piece that closes its parentheses they read no further
than the piece, unless a run of blanks goes on after it.
-/

set_option autoImplicit false

namespace AnswerCheck.Spelling

open Text Grammar

variable {keeps : List Char → Prop} {s t rest : List Char} {e : Expr}

/-! ## Blanks -/

theorem replaceAll_blankRun_append (hrest : Stops isInlineBlank rest) (s : List Char) :
    replaceAll blankRun? (s ++ rest) = replaceAll blankRun? s ++ replaceAll blankRun? rest := by
  refine ReadsWithin.replaceAll_append thinned_blankRun fun t hne _ => ?_
  rw [blankRun?, run?_append_stops hrest hne, blankRun?, Option.map_map, Option.map_map]
  rfl

/-- A piece without line feeds may lose a space at its end when a line feed follows. -/
theorem exists_spaceAtEnd (h : '\n' ∉ s) :
    ∃ t, (s = t ∨ s = t ++ [' ']) ∧ ∀ rest,
      replaceAll spaceAtEnd? (s ++ '\n' :: rest) = t ++ '\n' :: replaceAll spaceAtEnd? rest := by
  induction s with
  | nil => exact ⟨[], Or.inl rfl, fun rest => replaceAll_cons_none rfl⟩
  | cons c s ih =>
    obtain ⟨hc, hs⟩ := not_or.mp (List.mem_cons.not.mp h)
    obtain ⟨t, ht, hreplace⟩ := ih hs
    by_cases hspace : c = ' ' ∧ s = []
    · obtain ⟨rfl, rfl⟩ := hspace
      refine ⟨[], Or.inr rfl, fun rest => ?_⟩
      have hend : spaceAtEnd? ([' ', '\n'] ++ rest) = some (['\n'], rest) := rfl
      have hreplace := replaceAll_append_some (by simp) hend
      exact hreplace
    · refine ⟨c :: t, ht.imp (congrArg _) (congrArg _), fun rest => ?_⟩
      have hnone : spaceAtEnd? (c :: (s ++ '\n' :: rest)) = none := by
        cases hfound : spaceAtEnd? (c :: (s ++ '\n' :: rest)) with
        | none => rfl
        | some found =>
          obtain ⟨heq, -⟩ := spaceAtEnd?_eq_some hfound
          obtain ⟨hc, heq⟩ := List.cons.inj heq
          cases s with
          | nil => exact absurd ⟨hc, rfl⟩ hspace
          | cons d s =>
            obtain ⟨rfl, -⟩ := List.cons.inj heq
            exact absurd List.mem_cons_self hs
      rw [List.cons_append, replaceAll_cons_none hnone, hreplace, List.cons_append]

/-- What holds of the characters that a rule writes and of those that it passes over holds of the
whole output. -/
theorem mem_replaceAll {R : List Char → List Char → Prop} {rule : Recognizer (List Char)} {p : Char → Prop}
    (hrule : Rewrites R rule) (hnone : ∀ c s, rule (c :: s) = none → p c)
    (hout : ∀ s out rest, rule s = some (out, rest) → ∀ c ∈ out, p c) (s : List Char) :
    ∀ c ∈ replaceAll rule s, p c := by
  refine replaceAll_induction (P := fun out used _ => R out used) (motive := fun _ written => ∀ c ∈ written, p c)
    (fun t out rest _ hmatch => hrule t out rest hmatch) (by simp) ?pass ?write
  case pass =>
    intro c t _ hmatch ih
    exact List.forall_mem_cons.mpr ⟨hnone c t hmatch, ih⟩
  case write =>
    intro used out rest _ _ hmatch _ ih
    exact List.forall_mem_append.mpr ⟨hout _ _ _ hmatch, ih⟩

/-- The only blanks left after the last stage are spaces and the ends of lines. -/
theorem blank_of_mem_tidyBlanks {c : Char} (hc : c ∈ tidyBlanks s) (hblank : isBlank c = true) :
    c = ' ' ∨ c = '\n' ∨ c = '\r' := by
  have hruns : ∀ c ∈ replaceAll blankRun? s, (!isInlineBlank c || c == ' ') = true := by
    refine mem_replaceAll thinned_blankRun (fun c s hnone => ?_) (fun s out rest h => ?_) s
    · have hinline : ¬ isInlineBlank c = true := by
        intro hinline
        simp [blankRun?, run?, hinline] at hnone
      simp [hinline]
    · obtain ⟨run, -, rfl, -⟩ := blankRun?_eq_some h
      simp
  have hthin := (trim_thinned _).trans (Thinned.congruence.replaceAll thinned_spaceAtEnd
    (replaceAll blankRun? s))
  have htidy := hthin.blanks (by simp) hruns c hc
  simp only [isInlineBlank, hblank, Bool.true_and, Bool.or_eq_true, Bool.not_eq_true', Bool.and_eq_false_iff,
    bne_eq_false_iff_eq, beq_iff_eq] at htidy
  tauto

/-! ## Line feeds -/

theorem Thinned.not_mem {c : Char} (h : Thinned t s) (hc : c ≠ ' ') (hs : c ∉ s) : c ∉ t := by
  intro hmem
  have hself : (c != c) = true := h.blanks (by simpa using hc.symm) (bne_of_not_mem hs) c hmem
  simp at hself

/-- The stage for numbers writes no new characters but the mark of the exponent. -/
theorem not_mem_tidyScientific {c : Char} (hc : c ≠ 'E') (hs : c ∉ s) : c ∉ tidyScientific s := by
  refine mt ((congruence_mem c).replaceAll (fun s out rest h => ?_) s) hs
  obtain ⟨sign, mantissa, mark, powerSign, power, hs, -, -, -, rfl⟩ := scientific?_eq_some h
  refine ⟨sign ++ mantissa ++ [mark] ++ powerSign ++ power, by simp, hs, fun hmem => ?_⟩
  simp only [List.mem_append, List.mem_singleton] at hmem ⊢
  obtain (((hmem | hmem) | hmem) | hmem) | hmem := hmem
  · simp [hmem]
  · simp [mem_of_mem_shortMantissa hmem]
  · exact absurd hmem hc
  · split at hmem
    · cases hmem
    · simp [hmem]
  · simp [hmem]

/-! ## Parentheses -/

/-- After every opening element comes a closing one. -/
def Closes {α : Type} (opening closing : α) : List α → Prop
  | [] => True
  | a :: as => (a = opening → closing ∈ as) ∧ Closes opening closing as

section Closes

variable {α : Type} {opening closing : α} {as bs : List α}

theorem closes_of_not_mem (h : opening ∉ as) : Closes opening closing as := by
  induction as with
  | nil => trivial
  | cons a as ih =>
    obtain ⟨ha, has⟩ := not_or.mp (List.mem_cons.not.mp h)
    exact ⟨fun heq => absurd heq.symm ha, ih has⟩

theorem Closes.append (has : Closes opening closing as) (hbs : Closes opening closing bs) :
    Closes opening closing (as ++ bs) := by
  induction as with
  | nil => exact hbs
  | cons a as ih =>
    obtain ⟨ha, has⟩ := has
    exact ⟨fun heq => List.mem_append_left bs (ha heq), ih has⟩

theorem Closes.cons {a : α} (h : Closes opening closing as) (ha : a ≠ opening) :
    Closes opening closing (a :: as) :=
  ⟨fun heq => absurd heq ha, h⟩

theorem Closes.group (h : Closes opening closing as) (hne : closing ≠ opening) :
    Closes opening closing (opening :: as ++ [closing]) :=
  ⟨fun _ => by simp, h.append (Closes.cons trivial hne)⟩

theorem Closes.of_suffix (h : Closes opening closing as) (hbs : bs <:+ as) :
    Closes opening closing bs := by
  obtain ⟨front, rfl⟩ := hbs
  induction front with
  | nil => exact h
  | cons a front ih => exact ih h.2

end Closes

/-- A derivation closes its parentheses. -/
theorem derives_closes {category : Category} {ts : List Token} {ending : Ending}
    (h : Derives category ts e ending) : Closes Token.opening .closing ts := by
  induction h with
  | number h => exact closes_of_not_mem (by simp)
  | var => exact closes_of_not_mem (by simp)
  | pi => exact closes_of_not_mem (by simp)
  | group _ ih => exact ih.group (by simp)
  | call f _ ih => exact (ih.group (by simp)).cons (by simp)
  | base _ ih => exact ih
  | raised _ _ ihbase ihexponent => exact ihbase.append (ihexponent.cons (by simp))
  | unsigned _ _ ih => exact ih
  | negated _ _ ih => exact ih.cons (by simp)
  | affirmed _ _ ih => exact ih.cons (by simp)
  | operand _ ih => exact ih
  | times _ _ _ ihleft ihright => exact ihleft.append (ihright.cons (by simp))
  | implicit _ _ _ ihleft ihright => exact ihleft.append ihright
  | term _ ih => exact ih
  | plus _ _ _ ihleft ihright => exact ihleft.append (ihright.cons (by simp))

theorem mem_of_spelled {ts : List Token} {token : Token} (h : Spelled isSpace ts s) (htoken : token ∈ ts) :
    ∀ c ∈ token.text, c ∈ s := by
  induction h with
  | nil => cases htoken
  | cons next _ _ ih =>
    intro c hc
    rw [List.append_assoc, List.mem_append, List.mem_append]
    obtain rfl | htoken := List.mem_cons.mp htoken
    · exact Or.inr (Or.inl hc)
    · exact Or.inr (Or.inr (ih htoken c hc))

theorem opening_not_mem {token : Token} (hvalid : token.Valid) (h : token ≠ .opening) :
    '(' ∉ token.text := by
  cases token with
  | number text =>
    obtain ⟨d, hd⟩ := hvalid
    exact not_mem_number hd rfl
  | function f => cases f <;> decide
  | operator op => cases op <;> decide
  | opening => exact absurd rfl h
  | _ => decide

theorem spelled_closes {ts : List Token} (h : Spelled isSpace ts s) (hvalid : ∀ token ∈ ts, token.Valid)
    (hcloses : Closes Token.opening .closing ts) : Closes '(' ')' s := by
  induction h with
  | nil => trivial
  | cons token hgap hs ih =>
    obtain ⟨htoken, hvalid⟩ := List.forall_mem_cons.mp hvalid
    obtain ⟨hclosing, hcloses⟩ := hcloses
    have hrest := ih hvalid hcloses
    have hgap' := not_mem_of_blanks (fun c hc => isBlank_of_isSpace (hgap c hc)) (d := '(') rfl
    rw [List.append_assoc]
    refine (closes_of_not_mem hgap').append ?_
    by_cases hopening : token = .opening
    · subst hopening
      exact ⟨fun _ => mem_of_spelled hs (hclosing rfl) ')' List.mem_cons_self, hrest⟩
    · exact (closes_of_not_mem (opening_not_mem htoken hopening)).append hrest

theorem Means.closes (h : Means keeps s e) : Closes '(' ')' s := by
  obtain ⟨hleft, hright, -, ts, ending, hspelled, hderives⟩ := h
  have hformula := spelled_closes hspelled hderives.valid (derives_closes hderives)
  exact ((closes_of_not_mem (not_mem_of_blanks hleft rfl)).append hformula).append
    (closes_of_not_mem (not_mem_of_blanks hright rfl))

theorem Means.ne_nil (h : Means keeps s e) : s ≠ [] := by
  obtain ⟨-, -, -, ts, ending, hspelled, hderives⟩ := h
  simp [hspelled.ne_nil hderives.valid hderives.ne_nil]

/-! ## Stars -/

/-- A side neither starts nor ends with a star. -/
theorem stops_star_of_spelled {ts : List Token} {ending : Ending} (h : Spelled isSpace ts s)
    (hvalid : ∀ token ∈ ts, token.Valid) (hjoined : Joined ts ending) :
    Stops (· == '*') s ∧ Stops (· == '*') s.reverse := by
  constructor
  · have hstop := stops_spelled (p := (· == '*')) h (stops_nil _)
      (fun c hc => by simpa using ne_of_kind hc (d := '*') rfl) fun token htoken =>
        stops_star (hvalid token (List.mem_of_mem_head? htoken)) (hjoined.head token htoken)
    rwa [List.append_nil] at hstop
  · obtain rfl | ⟨ts, token, rfl⟩ := List.eq_nil_or_concat' ts
    · cases h
      exact stops_nil _
    · obtain ⟨front, back, rfl, -, hback⟩ := h.of_append
      obtain ⟨gap, rest, rfl, -, hrest⟩ := hback.of_cons
      cases hrest
      have hend := hjoined.last token (by simp)
      have htoken : token.Valid := hvalid token (by simp)
      have hstar : '*' ∉ token.text := by
        refine star_not_mem htoken ?_
        rintro rfl
        cases ending <;> simp [EndsWith] at hend
      obtain ⟨c, more, htext, -⟩ := htoken.head
      rw [List.append_nil, ← List.append_assoc]
      refine stops_reverse_append (by simp [htext]) (fun d hd => ?_) _
      rw [beq_eq_false_iff_ne]
      rintro rfl
      exact hstar hd

theorem Means.stops_star (h : Means keeps s e) :
    Stops (· == '*') s ∧ Stops (· == '*') s.reverse := by
  obtain ⟨hleft, hright, -, ts, ending, hspelled, hderives⟩ := h
  have hblank (c : Char) (hc : isBlank c = true) : (c == '*') = false := by
    simpa using ne_of_kind hc (d := '*') rfl
  obtain ⟨hstop, hstop'⟩ := stops_star_of_spelled hspelled hderives.valid hderives.joined
  constructor
  · rw [List.append_assoc]
    exact stops_append (stops_of_blanks hleft hblank) (stops_append hstop (stops_of_blanks hright hblank))
  · rw [List.reverse_append, List.reverse_append]
    exact stops_append (stops_of_blanks (by simpa using hright) hblank)
      (stops_append hstop' (stops_of_blanks (by simpa using hleft) hblank))

/-! ## Roots -/

/-- A root after its name and the blanks behind it. -/
def looseRadicand? : Recognizer (List Char)
  | '(' :: inside =>
    match run? (· != ')') inside with
    | some (radicand, ')' :: rest) => some ("sqrt(".toList ++ trim radicand ++ [')'], rest)
    | _ => none
  | _ => none

theorem looseRoot?_eq (s : List Char) :
    looseRoot? s = (after? "sqrt".toList s).bind fun t => looseRadicand? (t.dropWhile isBlank) := rfl

theorem looseRadicand?_eq_none (hs : Stops (· == '(') s) : looseRadicand? s = none := by
  unfold looseRadicand?
  split
  · exact absurd (stops_cons.mp hs) (by decide)
  · rfl

/-- In a piece that closes its parentheses the radicand ends with the piece at the latest. -/
theorem looseRadicand?_append (hcloses : Closes '(' ')' s) (hne : s ≠ []) (rest : List Char) :
    looseRadicand? (s ++ rest) = (looseRadicand? s).map fun m => (m.1, m.2 ++ rest) := by
  obtain ⟨c, inside, rfl⟩ := List.exists_cons_of_ne_nil hne
  by_cases hc : c = '('
  · subst hc
    obtain ⟨radicand, more, rfl, hradicand⟩ := List.eq_append_cons_of_mem (hcloses.1 rfl)
    simp only [looseRadicand?, List.append_assoc, List.cons_append]
    cases radicand with
    | nil => rfl
    | cons d radicand =>
      have hrun (v : List Char) : run? (· != ')') (d :: radicand ++ ')' :: v) =
          some (d :: radicand, ')' :: v) :=
        run?_append (by simp) (bne_of_not_mem hradicand) (stops_cons.mpr rfl)
      rw [hrun, hrun]
      rfl
  · have hstops (t : List Char) : Stops (· == '(') (c :: t) := stops_cons.mpr (by simpa using hc)
    rw [List.cons_append, looseRadicand?_eq_none (hstops _), looseRadicand?_eq_none (hstops _)]
    rfl

/-- In a piece that closes its parentheses a root reads no further than the piece, if the text after it
neither goes on with the name of the root nor opens a parenthesis. -/
theorem readsWithin_looseRoot (hcloses : Closes '(' ')' s) (hword : Stops "qrt".toList.contains rest)
    (hopening : Stops (· == '(') (rest.dropWhile isBlank)) : ReadsWithin looseRoot? s rest := by
  intro t hne ht
  have hafter : after? "sqrt".toList (t ++ rest) = _ := after?_append hne hword
  rw [looseRoot?_eq, looseRoot?_eq, hafter]
  cases hfound : after? "sqrt".toList t with
  | none => rfl
  | some u =>
    simp only [Option.map_some, Option.bind_some]
    have hu : u.dropWhile isBlank <:+ s := by
      refine (List.dropWhile_suffix isBlank).trans (List.IsSuffix.trans ?_ ht)
      exact after?_eq_some.mp hfound ▸ List.suffix_append _ u
    rw [List.dropWhile_append]
    by_cases hblank : u.dropWhile isBlank = []
    · rw [hblank, List.isEmpty_nil, if_pos rfl, looseRadicand?_eq_none hopening]
      rfl
    · rw [if_neg (by simpa using hblank)]
      exact looseRadicand?_append (hcloses.of_suffix hu) hblank rest

theorem tidyRoots_append (hcloses : Closes '(' ')' s) (hword : Stops "qrt".toList.contains rest)
    (hopening : Stops (· == '(') (rest.dropWhile isBlank)) :
    tidyRoots (s ++ rest) = tidyRoots s ++ tidyRoots rest :=
  (readsWithin_looseRoot hcloses hword hopening).replaceAll_append thinned_looseRoot

theorem needs_looseRoot : Needs 's' looseRoot? :=
  needs_of_after? ['q', 'r', 't'] fun _ => rfl

/-- A text without a `q` has no roots in it. -/
theorem tidyRoots_eq_self (h : 'q' ∉ s) : tidyRoots s = s := by
  refine replaceAll_eq_self fun t ht => ?_
  cases hfound : looseRoot? t with
  | none => rfl
  | some found =>
    obtain ⟨gap, radicand, rfl, -⟩ := looseRoot?_eq_some hfound
    exact absurd (ht.subset (by simp)) h

theorem wrapRadicands_eq_self (h : 'q' ∉ s) : wrapRadicands s = s := by
  induction s with
  | nil => rfl
  | cons c s ih =>
    obtain ⟨-, hs⟩ := not_or.mp (List.mem_cons.not.mp h)
    rw [wrapRadicands, ih hs]
    rintro _ - rfl
    exact hs List.mem_cons_self

end AnswerCheck.Spelling
