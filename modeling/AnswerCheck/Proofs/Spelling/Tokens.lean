import AnswerCheck.Proofs.Expr.Neighbours
import AnswerCheck.Proofs.Spelling.Scientific
import AnswerCheck.Proofs.Spelling.Thinning
import AnswerCheck.Proofs.Spelling.Untouched

/-! # Texts spelled by tokens

In a text that is spelled by the tokens of a derivation, the stage for numbers rewrites one token
after the other, and the stages for radicands and for stars find nothing to do.
-/

set_option autoImplicit false

namespace AnswerCheck.Spelling

open Text Grammar Decimal

variable {ts : List Token} {token : Token} {s right : List Char}

/-! ## Blanks -/

theorem no_blanks_of_valid {token : Token} (h : token.Valid) : ∀ c ∈ token.text, isBlank c = false := by
  have hall := h.all (p := fun c => !isBlank c) (fun c hc => by rw [isBlank_of_isDigit hc]; rfl)
    (by decide)
  intro c hc
  simpa using hall c hc

theorem spelled_of_thinned {ts : List Token} {s t : List Char} (hs : Spelled isSpace ts s)
    (hvalid : ∀ token ∈ ts, token.Valid) (ht : Thinned t s) : Spelled isSpace ts t := by
  induction hs generalizing t with
  | nil =>
    cases ht
    exact Spelled.nil
  | cons token hgap _ ih =>
    obtain ⟨u, t', rfl, hu, ht'⟩ := ht.of_append
    obtain ⟨gap, text, rfl, hgap', htext⟩ := hu.of_append
    obtain ⟨htoken, hvalid⟩ := List.forall_mem_cons.mp hvalid
    rw [htext.eq_of_no_blanks (no_blanks_of_valid htoken)]
    exact Spelled.cons token (hgap'.blanks rfl hgap) (ih hvalid ht')

/-! ## Numbers in derivations -/

/-- A token after the stage for numbers. -/
def tidyToken : Token → Token
  | .number text => .number (tidyScientific text)
  | token => token

theorem numeral_tidyScientific {text : List Char} {d : Decimal} (h : Numeral text d) :
    (∃ d', Numeral (tidyScientific text) d' ∧ d'.value = d.value) ∧
      (tidyScientific text).head? = text.head? ∧
      ∀ s, Stops continuesNumeral s →
        tidyScientific (text ++ s) = tidyScientific text ++ tidyScientific s := by
  obtain ⟨text', d', hnumeral, hvalue, hhead, htidy⟩ := tidyScientific_numeral h
  rw [tidyScientific_eq_of_append htidy]
  exact ⟨⟨d', hnumeral, hvalue⟩, hhead, htidy⟩

theorem follows_tidyToken {ending : Ending} (h : Follows ending ts) (hvalid : ∀ token ∈ ts, token.Valid) :
    Follows ending (ts.map tidyToken) := by
  cases ts with
  | nil => exact h
  | cons token ts =>
    cases token with
    | number text =>
      cases ending with
      | closing =>
        obtain ⟨c, rest, htext, hc⟩ := h
        obtain ⟨d, hd⟩ := hvalid _ List.mem_cons_self
        have hhead := (numeral_tidyScientific hd).2.1
        rw [htext, List.head?_cons, ← htext] at hhead
        obtain ⟨rest', htidy⟩ := List.head?_eq_some_iff.mp hhead
        exact ⟨c, rest', htidy, hc⟩
      | _ => exact h
    | _ => cases ending <;> exact h

/-- Tokens derive the same expression after the stage for numbers. -/
theorem derives_tidyToken {category : Category} {e : Expr} {ending : Ending}
    (h : Derives category ts e ending) : Derives category (ts.map tidyToken) e ending := by
  induction h with
  | number h =>
    obtain ⟨d', hnumeral, hvalue⟩ := (numeral_tidyScientific h).1
    rw [← toFloat_congr hvalue]
    exact Derives.number hnumeral
  | var => exact Derives.var
  | pi => exact Derives.pi
  | group _ ih =>
    rw [List.map_append]
    exact Derives.group ih
  | call f _ ih =>
    rw [List.map_append]
    exact Derives.call f ih
  | base _ ih => exact Derives.base ih
  | raised _ _ ihbase ihexponent =>
    rw [List.map_append]
    exact Derives.raised ihbase ihexponent
  | unsigned hc _ ih => exact Derives.unsigned hc ih
  | negated hc _ ih => exact Derives.negated hc ih
  | affirmed hc _ ih => exact Derives.affirmed hc ih
  | operand _ ih => exact Derives.operand ih
  | times hop _ _ ihleft ihright =>
    rw [List.map_append]
    exact Derives.times hop ihleft ihright
  | implicit _ hfollows hright ihleft ihright =>
    rw [List.map_append]
    exact Derives.implicit ihleft (follows_tidyToken hfollows hright.valid) ihright
  | term _ ih => exact Derives.term ih
  | plus hop _ _ ihleft ihright =>
    rw [List.map_append]
    exact Derives.plus hop ihleft ihright

/-! ## Numbers in texts -/

theorem continuesNumeral_of_isBlank {c : Char} (h : isBlank c = true) : continuesNumeral c = false := by
  have hdigit : c.isDigit = false := by
    rw [Bool.eq_false_iff]
    intro hdigit
    rw [isBlank_of_isDigit hdigit] at h
    cases h
  simp [continuesNumeral, hdigit, ne_of_kind h (d := '.') rfl, ne_of_kind h (d := 'e') rfl,
    ne_of_kind h (d := 'E') rfl]

/-- What a spelled text starts with is a blank, the start of its first token or of what follows. -/
theorem stops_spelled {p : Char → Bool} (h : Spelled isSpace ts s) (hright : Stops p right)
    (hblank : ∀ c, isBlank c = true → p c = false)
    (hhead : ∀ token ∈ ts.head?, ∀ t, Stops p (token.text ++ t)) : Stops p (s ++ right) := by
  cases h with
  | nil => exact hright
  | cons token hgap _ =>
    rw [List.append_assoc, List.append_assoc]
    exact stops_append (stops_of_blanks (fun c hc => isBlank_of_isSpace (hgap c hc)) hblank)
      (hhead token rfl _)

theorem stops_token (h : ∀ text, token ≠ .number text) (s : List Char) :
    Stops continuesNumeral (token.text ++ s) := by
  cases token with
  | number text => exact absurd rfl (h text)
  | function f => cases f <;> exact stops_cons.mpr rfl
  | operator op => cases op <;> exact stops_cons.mpr rfl
  | _ => exact stops_cons.mpr rfl

theorem tidyScientific_token (hvalid : token.Valid)
    (h : ∀ text, token = .number text → Stops continuesNumeral s) :
    tidyScientific (token.text ++ s) = (tidyToken token).text ++ tidyScientific s := by
  have hplain {t : List Char} (ht : (t.all fun c => !c.isDigit) = true) :
      tidyScientific (t ++ s) = t ++ tidyScientific s :=
    tidyScientific_append (fun c hc => by simpa using List.all_eq_true.mp ht c hc) s
  cases token with
  | number text =>
    obtain ⟨d, hd⟩ := hvalid
    exact (numeral_tidyScientific hd).2.2 s (h text rfl)
  | function f => cases f <;> exact hplain (by decide)
  | operator op => cases op <;> exact hplain (by decide)
  | _ => exact hplain (by decide)

theorem not_digit_of_blanks {gap : List Char} (h : ∀ c ∈ gap, isBlank c = true) :
    ∀ c ∈ gap, c.isDigit = false := by
  intro c hc
  have hstop := continuesNumeral_of_isBlank (h c hc)
  simp only [continuesNumeral, Bool.or_eq_false_iff] at hstop
  exact hstop.1.1.1

/-- The stage for numbers rewrites a spelled text token by token, whatever stands after it. -/
theorem spelled_tidyScientific (h : Spelled isSpace ts s) (hvalid : ∀ token ∈ ts, token.Valid)
    (hjoins : ts.IsChain Joins) (hright : Stops continuesNumeral right) :
    tidyScientific (s ++ right) = tidyScientific s ++ tidyScientific right ∧
      Spelled isSpace (ts.map tidyToken) (tidyScientific s) := by
  induction h with
  | nil => exact ⟨rfl, Spelled.nil⟩
  | cons token hgap hs ih =>
    rename_i gap s ts
    obtain ⟨htoken, hvalid⟩ := List.forall_mem_cons.mp hvalid
    obtain ⟨hblanks, hspelled⟩ := ih hvalid hjoins.of_cons
    have hgap' := not_digit_of_blanks fun c hc => isBlank_of_isSpace (hgap c hc)
    have hnext (right : List Char) (hright : Stops continuesNumeral right) :
        tidyScientific (gap ++ token.text ++ s ++ right) =
          gap ++ (tidyToken token).text ++ tidyScientific (s ++ right) := by
      rw [List.append_assoc, List.append_assoc, tidyScientific_append hgap',
        tidyScientific_token htoken, List.append_assoc]
      rintro text rfl
      exact stops_spelled hs hright (fun c hc => continuesNumeral_of_isBlank hc)
        fun next hhead => stops_token (hjoins.rel_head? hhead)
    have halone := hnext [] (stops_nil _)
    rw [List.append_nil, List.append_nil] at halone
    refine ⟨?_, ?_⟩
    · rw [hnext right hright, halone, hblanks, List.append_assoc _ (tidyScientific s)]
    · rw [halone, List.map_cons]
      exact Spelled.cons (tidyToken token) hgap hspelled

/-! ## Radicands -/

theorem wrapRadicands_append {t : List Char} (h : 's' ∉ t) (s : List Char) :
    wrapRadicands (t ++ s) = t ++ wrapRadicands s := by
  induction t with
  | nil => rfl
  | cons c t ih =>
    obtain ⟨hc, ht⟩ := not_or.mp (List.mem_cons.not.mp h)
    rw [List.cons_append, List.cons_append, ← ih ht, wrapRadicands]
    rintro _ rfl
    exact absurd rfl hc

theorem wrapRadicand_eq_self (h : Stops inBareRadicand (s.dropWhile isInlineBlank)) :
    wrapRadicand s = s := by
  have hnone : run? inBareRadicand (s.dropWhile isInlineBlank) = none := by
    cases hrun : s.dropWhile isInlineBlank with
    | nil => rfl
    | cons c rest =>
      rw [hrun] at h
      simp [run?, stops_cons.mp h]
  rw [wrapRadicand, hnone]

/-- After a function comes its parenthesis, so that there is no bare radicand. -/
theorem stops_parenthesis {gap : List Char} (hgap : ∀ c ∈ gap, isSpace c = true) (rest : List Char) :
    Stops inBareRadicand ((gap ++ '(' :: rest).dropWhile isInlineBlank) := by
  induction gap with
  | nil => exact stops_cons.mpr rfl
  | cons c gap ih =>
    rw [List.cons_append, List.dropWhile_cons]
    split
    · exact ih fun d hd => hgap d (List.mem_cons_of_mem c hd)
    · have hspace := hgap c List.mem_cons_self
      simp only [isSpace, Bool.or_eq_true, decide_eq_true_eq] at hspace
      obtain ((rfl | rfl) | rfl) | rfl := hspace <;> exact stops_cons.mpr rfl

theorem wrapRadicands_function (f : Function) {gap rest rest' : List Char}
    (hgap : ∀ c ∈ gap, isSpace c = true)
    (hself : wrapRadicands (gap ++ '(' :: rest) = gap ++ '(' :: rest') :
    wrapRadicands (f.name.toList ++ (gap ++ '(' :: rest)) = f.name.toList ++ (gap ++ '(' :: rest') := by
  cases f with
  | sqrt =>
    show wrapRadicands ('s' :: 'q' :: 'r' :: 't' :: (gap ++ '(' :: rest)) = _
    rw [wrapRadicands, hself, wrapRadicand_eq_self (stops_parenthesis hgap rest')]
    rfl
  | abs =>
    have hstop := stops_parenthesis hgap rest
    show wrapRadicands (['a', 'b'] ++ 's' :: (gap ++ '(' :: rest)) = _
    rw [wrapRadicands_append (by decide), wrapRadicands, hself]
    · rfl
    · -- A text that went on with `qrt` would start with a bare radicand.
      rintro rest' - hroot
      rw [hroot] at hstop
      exact absurd (stops_cons.mp hstop) (by decide)

/-- A number holds only digits and the characters of its point and exponent. -/
theorem not_mem_number {text : List Char} {d : Decimal} (h : Numeral text d) {c : Char}
    (hc : (c.isDigit || ".eE+-".toList.contains c) = false) : c ∉ text := by
  intro hmem
  obtain hdigit | rfl | rfl | rfl | rfl | rfl := h.mem hmem
  · rw [hdigit, Bool.true_or] at hc
    cases hc
  all_goals exact absurd hc (by decide)

theorem spelled_wrapRadicands (h : Spelled isSpace ts s) (hvalid : ∀ token ∈ ts, token.Valid)
    (hjoins : ts.IsChain Joins) (hlast : ∀ f, .function f ∉ ts.getLast?) (right : List Char) :
    wrapRadicands (s ++ right) = s ++ wrapRadicands right := by
  induction h with
  | nil => rfl
  | cons token hgap hs ih =>
    rename_i gap s ts
    obtain ⟨htoken, hvalid⟩ := List.forall_mem_cons.mp hvalid
    have hself : wrapRadicands (s ++ right) = s ++ wrapRadicands right := by
      refine ih hvalid hjoins.of_cons fun f hf => ?_
      refine hlast f ?_
      rwa [List.getLast?_cons_of_ne_nil (by rintro rfl; cases hf)]
    rw [List.append_assoc, List.append_assoc, List.append_assoc, List.append_assoc,
      wrapRadicands_append (not_mem_of_blanks (fun c hc => isBlank_of_isSpace (hgap c hc)) rfl)]
    congr 1
    have hplain (htext : 's' ∉ token.text) :
        wrapRadicands (token.text ++ (s ++ right)) = token.text ++ (s ++ wrapRadicands right) := by
      rw [wrapRadicands_append htext, hself]
    cases token with
    | number text =>
      obtain ⟨d, hd⟩ := htoken
      exact hplain (not_mem_number hd rfl)
    | operator op => exact hplain (by cases op <;> decide)
    | function f =>
      cases ts with
      | nil => exact absurd rfl (hlast f)
      | cons next ts =>
        obtain rfl : next = .opening := hjoins.rel_head? rfl
        obtain ⟨gap', rest, rfl, hgap', -⟩ := hs.of_cons
        simp only [List.append_assoc] at hself ⊢
        exact wrapRadicands_function f hgap' hself
    | _ => exact hplain (by decide)

/-! ## Stars -/

theorem isChain_append_of_not_mem {t : List Char} (ht : '*' ∉ t) (hs : s.IsChain NotBothStars) :
    (t ++ s).IsChain NotBothStars := by
  induction t with
  | nil => exact hs
  | cons c t ih =>
    obtain ⟨hc, ht⟩ := not_or.mp (List.mem_cons.not.mp ht)
    exact (ih ht).cons fun d _ hstar => absurd hstar.symm hc

theorem star_not_mem (hvalid : token.Valid) (h : token ≠ .operator .mul) : '*' ∉ token.text := by
  cases token with
  | number text =>
    obtain ⟨d, hd⟩ := hvalid
    exact not_mem_number hd rfl
  | function f => cases f <;> decide
  | operator op =>
    cases op with
    | mul => exact absurd rfl h
    | _ => decide
  | _ => decide

theorem stops_star (hvalid : token.Valid) (h : token ≠ .operator .mul) (s : List Char) :
    Stops (· == '*') (token.text ++ s) := by
  obtain ⟨c, rest, htext, -⟩ := hvalid.head
  have hstar := star_not_mem hvalid h
  rw [htext] at hstar ⊢
  refine stops_cons.mpr ?_
  rw [beq_eq_false_iff_ne]
  rintro rfl
  exact hstar List.mem_cons_self

/-- No two stars stand side by side in a text whose tokens can stand side by side. -/
theorem spelled_isChain (h : Spelled isSpace ts s) (hvalid : ∀ token ∈ ts, token.Valid)
    (hjoins : ts.IsChain Joins) (hright : right.IsChain NotBothStars)
    (hstop : Stops (· == '*') right) : (s ++ right).IsChain NotBothStars := by
  induction h with
  | nil => exact hright
  | cons token hgap hs ih =>
    rename_i gap s ts
    obtain ⟨htoken, hmore⟩ := List.forall_mem_cons.mp hvalid
    have hrest := ih hmore hjoins.of_cons
    have hgap' : '*' ∉ gap := not_mem_of_blanks (fun c hc => isBlank_of_isSpace (hgap c hc)) rfl
    rw [List.append_assoc, List.append_assoc]
    refine isChain_append_of_not_mem hgap' ?_
    by_cases hmul : token = .operator .mul
    · subst hmul
      have hnext : Stops (· == '*') (s ++ right) := by
        refine stops_spelled hs hstop (fun c hc => by simpa using ne_of_kind hc (d := '*') rfl) ?_
        intro next hhead
        exact stops_star (hmore next (List.mem_of_mem_head? hhead)) (hjoins.rel_head? hhead)
      refine hrest.cons fun d hd _ => ?_
      simpa using hnext d hd
    · exact isChain_append_of_not_mem (star_not_mem htoken hmul) hrest

end AnswerCheck.Spelling
