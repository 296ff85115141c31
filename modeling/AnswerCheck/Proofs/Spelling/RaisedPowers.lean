import AnswerCheck.Proofs.Spelling.Pieces
import AnswerCheck.Proofs.Spelling.Respelling
import AnswerCheck.Proofs.Spelling.Segments
import AnswerCheck.Proofs.Spelling.Superscripts
import AnswerCheck.Proofs.Text.Finding

/-! # Superscripts mean powers

The first pass writes a base with superscripts as a power. In front of the superscripts it does what
it would do to the base alone, and the exponent that it writes holds nothing that a later stage
rewrites. From then on the text is the side of an equation.
-/

set_option autoImplicit false

namespace AnswerCheck.Spelling

open Text Grammar Decimal

variable {s t rest raised digits : List Char} {b e n : Expr}

/-! ## Bases -/

/-- What superscripts can stand after: the variable, or a side of an equation in parentheses. -/
inductive Base : List Char → Expr → Prop
  | var : Base ['x'] .var
  | group {s : List Char} {e : Expr} (h : Expr.ofText s = .ok e) : Base ('(' :: s ++ [')']) e

/-- A base as the stages after the mathematical characters find it. -/
inductive BaseText : List Char → Expr → Prop
  | var : BaseText ['x'] .var
  | group {s : List Char} {e : Expr} (h : Means WithinLimits s e) : BaseText ('(' :: s ++ [')']) e

theorem Base.map_plainMinus (h : Base t b) : BaseText (t.map plainMinus) b := by
  cases h with
  | var => exact .var
  | group h =>
    rw [List.map_append, List.map_cons]
    exact .group (means_of_ofText h).1

namespace BaseText

theorem mem (h : BaseText t b) {c : Char} (hc : c ∈ t) :
    c ∈ "x()".toList ∨ ∃ s e, Means WithinLimits s e ∧ c ∈ s := by
  cases h with
  | var => exact Or.inl (by simp [List.mem_singleton.mp hc])
  | group h =>
    simp only [List.cons_append, List.mem_cons, List.mem_append, List.not_mem_nil, or_false] at hc
    obtain rfl | hc | rfl := hc
    · exact Or.inl (by simp)
    · exact Or.inr ⟨_, _, h, hc⟩
    · exact Or.inl (by simp)

theorem not_mem (h : BaseText t b) {c : Char} (hc : "x()".toList.contains c = false)
    (hblank : isBlank c = false) (hdigit : c.isDigit = false) (hsymbols : symbols.contains c = false) :
    c ∉ t := by
  intro hmem
  obtain hmem | ⟨s, e, hmeans, hmem⟩ := h.mem hmem
  · rw [List.contains_iff_mem.mpr hmem] at hc
    cases hc
  · exact hmeans.not_mem hblank hdigit hsymbols hmem

theorem symbolSpelling? (h : BaseText t b) : ∀ c ∈ t, symbolSpelling? c = none := by
  intro c hc
  obtain hc | ⟨s, e, hmeans, hc⟩ := h.mem hc
  · have hall : ("x()".toList.all fun c => (Spelling.symbolSpelling? c).isNone) = true := by decide
    simpa using List.all_eq_true.mp hall c hc
  · exact hmeans.symbolSpelling? c hc

theorem isSuperscript (h : BaseText t b) : ∀ c ∈ t, isSuperscript c = false := by
  intro c hc
  obtain hc | ⟨s, e, hmeans, hc⟩ := h.mem hc
  · exact of_any_eq_false (t := "x()".toList) (by decide) c hc
  · exact hmeans.isSuperscript c hc

theorem exists_last (h : BaseText t b) : ∃ front c, t = front ++ [c] ∧ carriesSuperscript c = true := by
  cases h with
  | var => exact ⟨[], 'x', rfl, rfl⟩
  | group h => exact ⟨_, ')', rfl, rfl⟩

theorem thinned (h : BaseText t b) (ht : Thinned s t) : BaseText s b := by
  cases h with
  | var =>
    obtain rfl := ht.eq_of_no_blanks fun c hc => by
      obtain rfl := List.mem_singleton.mp hc
      rfl
    exact .var
  | group h =>
    obtain ⟨front, last, rfl, hfront, hlast⟩ := ht.of_append
    obtain ⟨first, inside, rfl, hfirst, hinside⟩ := Thinned.of_append (s := ['(']) hfront
    have hplain {c : Char} (hc : isBlank c = false) {u : List Char} (hu : Thinned u [c]) : u = [c] :=
      hu.eq_of_no_blanks fun d hd => by rwa [List.mem_singleton.mp hd]
    rw [hplain rfl hfirst, hplain rfl hlast]
    exact .group (h.thinned hinside)

theorem wrapRadicands_append (h : BaseText t b) (rest : List Char) :
    wrapRadicands (t ++ rest) = t ++ wrapRadicands rest := by
  cases h with
  | var => exact Spelling.wrapRadicands_append (by decide) rest
  | group h =>
    have hopening (u : List Char) : wrapRadicands ('(' :: u) = '(' :: wrapRadicands u :=
      Spelling.wrapRadicands_append (t := ['(']) (by decide) u
    have hclosing (u : List Char) : wrapRadicands (')' :: u) = ')' :: wrapRadicands u :=
      Spelling.wrapRadicands_append (t := [')']) (by decide) u
    rw [List.cons_append, List.cons_append, hopening, List.append_assoc, List.singleton_append,
      h.wrapRadicands_append, hclosing]
    simp

theorem isChain_append (h : BaseText t b) (hrest : '*' ∉ rest) : (t ++ rest).IsChain NotBothStars := by
  have hplain {u : List Char} (hu : '*' ∉ u) : u.IsChain NotBothStars := by
    have hchain := isChain_append_of_not_mem hu List.isChain_nil
    rwa [List.append_nil] at hchain
  cases h with
  | var => exact isChain_append_of_not_mem (by decide) (hplain hrest)
  | group h =>
    have hclosing : '*' ∉ ')' :: rest := by simp [hrest]
    have hinside := h.isChain_append (hplain hclosing) (stops_cons.mpr rfl)
    have hopening := isChain_append_of_not_mem (t := ['(']) (by decide) hinside
    simpa using hopening

theorem tidyScientific_append (h : BaseText t b) (hrest : Stops inNumber rest) :
    BaseText (tidyScientific t) b ∧
      tidyScientific (t ++ rest) = tidyScientific t ++ tidyScientific rest := by
  refine ⟨?_, tidyScientific_separated hrest t⟩
  cases h with
  | var => exact .var
  | @group s e h =>
    have hself : tidyScientific ('(' :: s ++ [')']) = '(' :: tidyScientific s ++ [')'] := by
      rw [List.cons_append, tidyScientific_cons rfl, tidyScientific_separated (stops_cons.mpr rfl)]
      rfl
    rw [hself]
    exact .group h.tidyScientific_append.1

/-- Where only spaces and the ends of lines are blank, a base is a factor. -/
theorem derives (h : BaseText t b) (hblank : ∀ c ∈ t, isBlank c = true → isSpace c = true) :
    ∃ ts ending, Spelled isSpace ts t ∧ Derives .factor ts b ending := by
  cases h with
  | var => exact ⟨[.var], _, .only .var, .var⟩
  | group h =>
    obtain ⟨hleft, hright, -, ts, ending, hspelled, hderives⟩ := h
    rename_i left formula right
    have hleft' : ∀ c ∈ left, isSpace c = true := fun c hc => hblank c (by simp [hc]) (hleft c hc)
    have hright' : ∀ c ∈ right, isSpace c = true := fun c hc => hblank c (by simp [hc]) (hright c hc)
    have hinside := hspelled.gap_append hderives.ne_nil hleft'
    have hgroup := Spelled.token .opening (hinside.append (.singleton .closing hright'))
    refine ⟨_, _, ?_, .group hderives⟩
    simpa [Token.text] using hgroup

end BaseText

/-! ## Exponents -/

/-- The exponents that superscripts raise: digits, with a minus sign or without. -/
inductive Exponent : List Char → Expr → Prop
  | plain {ds : List Char} (hds : IsDigits ds) (hne : ds ≠ []) :
      Exponent ds (.number (ofParts ds [] 0).toFloat)
  | minus {ds : List Char} (hds : IsDigits ds) (hne : ds ≠ []) :
      Exponent ('-' :: ds) (.neg (.number (ofParts ds [] 0).toFloat))

theorem tidyScientific_of_isDigits {ds : List Char} (hds : IsDigits ds) : tidyScientific ds = ds := by
  by_cases hne : ds = []
  · rw [hne]
    rfl
  · have hwhole := tidyScientific_whole (stops_nil _) hds hne Power.none
    have hnil : tidyScientific [] = [] := rfl
    rwa [shortExponent, hnil, List.append_nil, List.append_nil] at hwhole

namespace Exponent

theorem ne_nil (h : Exponent digits n) : digits ≠ [] := by
  cases h with
  | plain _ hne => exact hne
  | minus _ _ => simp

theorem mem (h : Exponent digits n) {c : Char} (hc : c ∈ exponentText digits) :
    c.isDigit = true ∨ c ∈ "-()".toList := by
  have hdigits : ∀ c ∈ digits, c.isDigit = true ∨ c = '-' := by
    cases h with
    | plain hds _ => exact fun c hc => Or.inl (hds c hc)
    | minus hds _ => exact List.forall_mem_cons.mpr ⟨Or.inr rfl, fun c hc => Or.inl (hds c hc)⟩
  obtain hc | rfl | rfl := mem_exponentText hc
  · obtain hdigit | rfl := hdigits c hc
    · exact Or.inl hdigit
    · simp
  · simp
  · simp

theorem not_blank (h : Exponent digits n) : ∀ c ∈ '^' :: exponentText digits, isBlank c = false := by
  refine List.forall_mem_cons.mpr ⟨rfl, fun c hc => ?_⟩
  obtain hdigit | hc := h.mem hc
  · exact isBlank_of_isDigit hdigit
  · exact of_any_eq_false (t := "-()".toList) (by decide) c hc

theorem star_not_mem (h : Exponent digits n) : '*' ∉ '^' :: exponentText digits := by
  intro hc
  obtain hc | hc := List.mem_cons.mp hc
  · cases hc
  · obtain hdigit | hc := h.mem hc
    · cases hdigit
    · exact absurd hc (by decide)

theorem tidyScientific_eq (h : Exponent digits n) :
    tidyScientific (exponentText digits) = exponentText digits := by
  have hdigits : tidyScientific digits = digits := by
    cases h with
    | plain hds _ => exact tidyScientific_of_isDigits hds
    | minus hds _ => rw [tidyScientific_minus, tidyScientific_of_isDigits hds]
  unfold exponentText
  split
  · exact hdigits
  · rw [List.cons_append, tidyScientific_cons rfl, tidyScientific_separated (stops_cons.mpr rfl), hdigits]
    rfl

theorem derives (h : Exponent digits n) :
    ∃ us ending, Spelled isSpace us (exponentText digits) ∧ Derives .exponent us n ending := by
  have hnumber {ds : List Char} (hds : IsDigits ds) (hne : ds ≠ []) :
      Derives .factor [.number ds] (.number (ofParts ds [] 0).toFloat) .digit := by
    have hnumeral : Numeral (ds ++ [] ++ []) (ofParts ds [] 0) := .mk hds .none .none (by simpa using hne)
    rw [List.append_nil, List.append_nil] at hnumeral
    exact .number hnumeral
  -- Between parentheses the exponent is a sum of its own.
  have hgroup {us : List Token} {ending : Ending} (hspelled : Spelled isSpace us digits)
      (hderives : Derives .signed us n ending) :
      Spelled isSpace (.opening :: us ++ [.closing]) ('(' :: digits ++ [')']) ∧
        Derives .exponent (.opening :: us ++ [.closing]) n .closing :=
    ⟨.token .opening (hspelled.append (.only .closing)),
      .unsigned rfl (.base (.group (.term (.operand hderives))))⟩
  cases h with
  | plain hds hne =>
    unfold exponentText
    split
    · exact ⟨_, _, .only (.number _), .unsigned rfl (.base (hnumber hds hne))⟩
    · obtain ⟨hspelled, hderives⟩ := hgroup (.only (.number _)) (.unsigned rfl (.base (hnumber hds hne)))
      exact ⟨_, _, hspelled, hderives⟩
  | @minus ds hds hne =>
    obtain ⟨hspelled, hderives⟩ := hgroup (.token (.operator .sub) (.only (.number ds)))
      (.negated rfl (.unsigned rfl (.base (hnumber hds hne))))
    obtain ⟨d, ds, rfl⟩ := List.exists_cons_of_ne_nil hne
    exact ⟨_, _, hspelled, hderives⟩

end Exponent

/-! ## Passes -/

instance : Inherited fun _ => True :=
  ⟨fun _ _ _ => trivial⟩

/-- The superscript digits and signs. -/
def superscripts : List Char :=
  ['\u2070', '\u00b9', '\u00b2', '\u00b3', '\u2074', '\u2075', '\u2076', '\u2077', '\u2078', '\u2079',
    '\u207a', '\u207b']

theorem Raises.all (h : Raises raised digits) {p : Char → Bool} (hp : superscripts.all p = true) :
    ∀ c ∈ raised, p c = true := by
  intro c hc
  refine List.all_eq_true.mp hp c ?_
  have hraised := h.isSuperscript c hc
  unfold Spelling.isSuperscript superscriptSpelling? at hraised
  split at hraised <;> first | decide | cases hraised

theorem Raises.not_mem (h : Raises raised digits) {c : Char} (hc : superscripts.all (· != c) = true) :
    c ∉ raised := by
  intro hmem
  simpa using h.all hc c hmem

/-- The stages before the one for superscripts leave them alone. -/
theorem stages_before_superscripts (hbase : Base t b) (h : Raises raised digits) :
    ∃ t', BaseText t' b ∧ wrapRadicands (tidyRoots (spellBars (replaceSymbols (spellCommands
      (stripDelimiters (t ++ raised)))))) = t' ++ raised := by
  have hplain := hbase.map_plainMinus
  have hraised : raised.map plainMinus = raised := by
    have hall : superscripts.all (fun c => plainMinus c == c) = true := by decide
    have hself : raised.map plainMinus = raised.map id :=
      List.map_congr_left fun c hc => eq_of_beq (h.all hall c hc)
    rw [hself, List.map_id]
  have hmap : (t ++ raised).map plainMinus = t.map plainMinus ++ raised := by
    rw [List.map_append, hraised]
  have hmark {c : Char} (hself : plainMinus c = c) (ht : c ∉ t.map plainMinus) (hr : c ∉ raised) :
      c ∉ t ++ raised := by
    intro hc
    have hmem : c ∈ t.map plainMinus ++ raised := hmap ▸ hself ▸ List.mem_map_of_mem hc
    obtain hmem | hmem := List.mem_append.mp hmem
    · exact ht hmem
    · exact hr hmem
  have hdollar : '$' ∉ t ++ raised := hmark rfl (hplain.not_mem rfl rfl rfl rfl) (h.not_mem rfl)
  have hbackslash : '\\' ∉ t ++ raised := hmark rfl (hplain.not_mem rfl rfl rfl rfl) (h.not_mem rfl)
  have hbar : '|' ∉ t.map plainMinus ++ raised := by
    rw [List.mem_append, not_or]
    exact ⟨hplain.not_mem rfl rfl rfl rfl, h.not_mem rfl⟩
  have hsymbols : replaceSymbols (t ++ raised) = t.map plainMinus ++ raised := by
    rw [← hmap]
    refine (Respelled.refl _).replaceSymbols_eq ?_
    rw [hmap, List.forall_mem_append]
    refine ⟨hplain.symbolSpelling?, fun c hc => ?_⟩
    have hall : superscripts.all (fun c => (symbolSpelling? c).isNone) = true := by decide
    simpa using h.all hall c hc
  obtain ⟨t', raised', hroots, ht', hthin⟩ := (tidyRoots_thinned (t.map plainMinus ++ raised)).of_append
  obtain rfl : raised' = raised := by
    have hall : superscripts.all (fun c => !isBlank c) = true := by decide
    exact hthin.eq_of_no_blanks fun c hc => by simpa using h.all hall c hc
  have hbase' := hplain.thinned ht'
  refine ⟨t', hbase', ?_⟩
  rw [stripDelimiters_eq_self hdollar hbackslash, spellCommands_eq_self hbackslash, hsymbols,
    spellBars_eq_self hbar, hroots, hbase'.wrapRadicands_append, wrapRadicands_eq_self (h.not_mem rfl)]

/-- After the first pass the text denotes the power. -/
theorem pass_raised (hbase : Base t b) (hexponent : Exponent digits n) (h : Raises raised digits) :
    Means (fun _ => True) (pass (t ++ raised)) (.power b n) := by
  obtain ⟨t', ht', hstages⟩ := stages_before_superscripts hbase h
  obtain ⟨front, c, rfl, hc⟩ := ht'.exists_last
  have hfront : ∀ d ∈ front, isSuperscript d = false := fun d hd => ht'.isSuperscript d (by simp [hd])
  have hpower : replaceSuperscripts (front ++ [c] ++ raised) =
      front ++ [c] ++ '^' :: exponentText digits := by
    rw [List.append_assoc, List.singleton_append, replaceSuperscripts_raised hfront hc h hexponent.ne_nil,
      List.append_assoc, List.singleton_append]
  generalize front ++ [c] = t' at ht' hstages hpower
  have hchain := ht'.isChain_append hexponent.star_not_mem
  have hstop : Stops inNumber ('^' :: exponentText digits) := stops_cons.mpr rfl
  obtain ⟨ht'', htidy⟩ := ht'.tidyScientific_append hstop
  rw [tidyScientific_cons rfl, hexponent.tidyScientific_eq] at htidy
  rw [pass, hstages, hpower, replaceStars_eq_self hchain, htidy]
  generalize tidyScientific t' = t'' at ht''
  have hthin := tidyBlanks_thinned (t'' ++ '^' :: exponentText digits)
  obtain ⟨u, exponent, hblanks, hu, hexp⟩ := hthin.of_append
  obtain rfl := hexp.eq_of_no_blanks hexponent.not_blank
  -- Now the blanks of the base are such as may stand between tokens.
  have hspaces : ∀ c ∈ u, isBlank c = true → isSpace c = true := by
    intro c hc hblank
    have hmem : c ∈ tidyBlanks (t'' ++ '^' :: exponentText digits) := hblanks ▸ List.mem_append_left _ hc
    obtain rfl | rfl | rfl := blank_of_mem_tidyBlanks hmem hblank <;> rfl
  obtain ⟨ts, ending, hspelled, hderives⟩ := (ht''.thinned hu).derives hspaces
  obtain ⟨us, ending', hspelled', hderives'⟩ := hexponent.derives
  have hdenotes : Denotes isSpace (u ++ '^' :: exponentText digits) (.power b n) :=
    ⟨ts ++ .caret :: us, ending', hspelled.append (.token .caret hspelled'),
      .term (.operand (.unsigned rfl (.raised hderives hderives')))⟩
  have hmeans : Means (fun _ => True) ([] ++ (u ++ '^' :: exponentText digits) ++ []) (.power b n) :=
    .mk (by simp) (by simp) trivial hdenotes
  rwa [hblanks, ← List.append_nil (u ++ _)]

/-! ## Sides of equations -/

theorem ofText_asciiText_raised (hbase : Base t b) (hexponent : Exponent digits n)
    (h : Raises raised digits)
    (hlimits : brokenLimit? (sideText (asciiText (t ++ raised))) = none)
    (hnesting : (Expr.power b n).nesting ≤ maxNesting) :
    Expr.ofText (asciiText (t ++ raised)) = .ok (.power b n) := by
  have hpasses : maxPasses = maxPasses - 1 + 1 := rfl
  have hmeans : Means (fun _ => True) (asciiText (t ++ raised)) (.power b n) := by
    rw [asciiText_eq_iterate, hpasses, Function.iterate_succ_apply]
    exact (pass_raised hbase hexponent h).iterate_pass _
  have hdenotes := hmeans.denotes_sideText.2
  obtain ⟨ts, ending, hspelled, hderives⟩ := hdenotes
  have hne := hspelled.ne_nil hderives.valid hderives.ne_nil
  have hwithin := brokenLimit?_eq_none_iff.mp ⟨hne, hlimits⟩
  exact ofText_complete hwithin ⟨ts, ending, hspelled, hderives⟩ hnesting

/-- A base with the superscripts of a decimal number, or of its negation, is read as a power if the text
that it is rewritten to and the power itself keep the limits; and superscripts are written as powers in
one go, so that none is left after a character that can carry it. -/
theorem superscripts_mean_powers :
    (∀ t b digits raised, Base t b → IsDigits digits → digits ≠ [] → Raises raised digits →
      (brokenLimit? (sideText (asciiText (t ++ raised))) = none →
        (Expr.power b (.number (ofParts digits [] 0).toFloat)).nesting ≤ maxNesting →
        Expr.ofText (asciiText (t ++ raised)) = .ok (.power b (.number (ofParts digits [] 0).toFloat))) ∧
      (brokenLimit? (sideText (asciiText (t ++ '\u207b' :: raised))) = none →
        (Expr.power b (.neg (.number (ofParts digits [] 0).toFloat))).nesting ≤ maxNesting →
        Expr.ofText (asciiText (t ++ '\u207b' :: raised)) =
          .ok (.power b (.neg (.number (ofParts digits [] 0).toFloat))))) ∧
    ∀ s, replaceSuperscripts (replaceSuperscripts s) = replaceSuperscripts s ∧
      ∀ c d, carriesSuperscript c = true → [c, d] <:+: replaceSuperscripts s → isSuperscript d = false := by
  constructor
  · intro t b digits raised hbase hdigits hne h
    have hminus : Raises ('\u207b' :: raised) ('-' :: digits) := congrArg (some '-' :: ·) h
    exact ⟨ofText_asciiText_raised hbase (.plain hdigits hne) h,
      ofText_asciiText_raised hbase (.minus hdigits hne) hminus⟩
  · intro s
    exact ⟨replaceSuperscripts_replaceSuperscripts s, fun _ _ hc => isSuperscript_of_carried hc⟩

/-- A sum in parentheses to the tenth power, and to its negation. -/
theorem superscripts_mean_powers_ten :
    Expr.ofText (asciiText "(x + 1)¹⁰".toList) =
        .ok (.power (.arith .add .var (.number (Decimal.toFloat ⟨1, 0⟩)))
          (.number (Decimal.toFloat ⟨10, 0⟩))) ∧
      Expr.ofText (asciiText "(x + 1)⁻¹⁰".toList) =
        .ok (.power (.arith .add .var (.number (Decimal.toFloat ⟨1, 0⟩)))
          (.neg (.number (Decimal.toFloat ⟨10, 0⟩)))) ∧
      replaceSuperscripts (replaceSuperscripts "x²³ ²".toList) = replaceSuperscripts "x²³ ²".toList ∧
      ([')', ' '] <:+: replaceSuperscripts "x²³ ²".toList ∧ isSuperscript ' ' = false) := by
  have hside : Expr.ofText "x + 1".toList = .ok (.arith .add .var (.number (Decimal.toFloat ⟨1, 0⟩))) := rfl
  have hraises : Raises "¹⁰".toList "10".toList := rfl
  have hdigits : IsDigits "10".toList := List.all_eq_true.mp rfl
  obtain ⟨hplain, hminus⟩ := superscripts_mean_powers.1 _ _ _ _ (Base.group hside) hdigits (by simp) hraises
  obtain ⟨hidempotent, hcarried⟩ := superscripts_mean_powers.2 "x²³ ²".toList
  have hinfix : [')', ' '] <:+: replaceSuperscripts "x²³ ²".toList := ⟨"x^(23".toList, "²".toList, by decide⟩
  refine ⟨hplain ?_ ?_, hminus ?_ ?_, hidempotent, hinfix, hcarried _ _ rfl hinfix⟩
  · decide +kernel
  · decide +kernel
  · decide +kernel
  · decide +kernel

end AnswerCheck.Spelling
