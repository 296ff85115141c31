import AnswerCheck.Proofs.Expr.Loops

/-! # What the readers of one level do with a text

Each reader takes a piece that has the shape of one of its rules, if it takes the parts, and if the
text after it cannot continue the piece.
-/

set_option autoImplicit false

namespace AnswerCheck.Grammar

open Text

variable {below : Level} {gap rest : List Char} {c : Char} {ending : Ending}

/-! ## What may stand after a derivation -/

/-- A character that could continue the last token. -/
def continues : Ending → Char → Bool
  | .digit, c => Decimal.continuesNumeral c
  | .closing, _ => false
  | _, c => continuesName c

/-- The last token ends where the text starts. -/
def Fits (ending : Ending) (rest : List Char) : Prop :=
  Stops (continues ending) rest

/-- What has to stand after a member of the category for it to end there. -/
def Ends : Category → Ending → List Char → Prop
  | .factor, ending, rest => Fits ending rest
  | .sum, ending, rest =>
    Fits ending rest ∧ next rest ≠ some '^' ∧ next rest ≠ some '*' ∧ next rest ≠ some '/' ∧
      mayFollow ending (rest.dropWhile isBlank).head? = false
  | _, ending, rest => Fits ending rest ∧ next rest ≠ some '^'

theorem isSpace_of_not_isBlank (h : isBlank c = false) : isSpace c = false := by
  rw [Bool.eq_false_iff]
  intro hspace
  rw [isBlank_of_isSpace hspace] at h
  cases h

theorem skipSpaces_gap (hgap : ∀ d ∈ gap, isSpace d = true) (hc : isBlank c = false) :
    skipSpaces (gap ++ c :: rest) = c :: rest :=
  dropWhile_append hgap (stops_cons.mpr (isSpace_of_not_isBlank hc))

theorem next_gap (hgap : ∀ d ∈ gap, isSpace d = true) (hc : isBlank c = false) :
    next (gap ++ c :: rest) = some c := by
  rw [next, skipSpaces_gap hgap hc]
  rfl

theorem head?_gap (hgap : ∀ d ∈ gap, isSpace d = true) (hc : isBlank c = false) :
    ((gap ++ c :: rest).dropWhile isBlank).head? = some c := by
  rw [dropWhile_append (fun d hd => isBlank_of_isSpace (hgap d hd)) (stops_cons.mpr hc)]
  rfl

theorem continues_of_isSpace (h : isSpace c = true) : continues ending c = false := by
  simp only [isSpace, Bool.or_eq_true, decide_eq_true_eq] at h
  obtain ((rfl | rfl) | rfl) | rfl := h <;> cases ending <;> rfl

theorem continues_of_mayFollow (h : mayFollow ending (some c) = true) : continues ending c = false := by
  cases ending with
  | digit =>
    simp only [mayFollow, Bool.or_eq_true, decide_eq_true_eq] at h
    obtain rfl | rfl := h <;> rfl
  | var =>
    simp only [mayFollow, decide_eq_true_eq] at h
    obtain rfl := h
    rfl
  | closing => rfl
  | other => cases h

theorem fits_gap (hgap : ∀ d ∈ gap, isSpace d = true) (hc : continues ending c = false) :
    Fits ending (gap ++ c :: rest) := by
  refine stops_append (fun d hd => ?_) (stops_cons.mpr hc)
  exact continues_of_isSpace (hgap d (List.mem_of_mem_head? hd))

/-- A member of a product ends where an operator stands. -/
theorem ends_operator {category : Category} (hcategory : category ≠ .sum) (op : Operator)
    (hgap : ∀ d ∈ gap, isSpace d = true) : Ends category ending (gap ++ op.symbol :: rest) := by
  have hfits : Fits ending (gap ++ op.symbol :: rest) :=
    fits_gap hgap (by cases op <;> cases ending <;> rfl)
  have hnext : next (gap ++ op.symbol :: rest) ≠ some '^' := by
    rw [next_gap hgap (by cases op <;> rfl)]
    cases op <;> decide
  cases category with
  | sum => exact absurd rfl hcategory
  | factor => exact hfits
  | _ => exact ⟨hfits, hnext⟩

/-- A sum ends at a closing parenthesis, and where another member follows. -/
theorem ends_sum (hgap : ∀ d ∈ gap, isSpace d = true) (hc : c = ')' ∨ c = '+' ∨ c = '-') :
    Ends .sum ending (gap ++ c :: rest) := by
  have hblank : isBlank c = false := by obtain rfl | rfl | rfl := hc <;> rfl
  have hfits : continues ending c = false := by obtain rfl | rfl | rfl := hc <;> cases ending <;> rfl
  have hmay : mayFollow ending (some c) = false := by
    obtain rfl | rfl | rfl := hc <;> cases ending <;> rfl
  refine ⟨fits_gap hgap hfits, ?_⟩
  rw [next_gap hgap hblank, head?_gap hgap hblank]
  refine ⟨?_, ?_, ?_, hmay⟩ <;> obtain rfl | rfl | rfl := hc <;> decide

theorem ends_nil (category : Category) : Ends category ending [] := by
  cases category <;> simp [Ends, Fits, stops_nil, next, skipSpaces, mayFollow]

/-- A member of a product ends where a sum would end. -/
theorem Ends.of_sum {category : Category} (h : Ends .sum ending rest) : Ends category ending rest := by
  obtain ⟨hfits, hcaret, hrest⟩ := h
  cases category with
  | sum => exact ⟨hfits, hcaret, hrest⟩
  | factor => exact hfits
  | _ => exact ⟨hfits, hcaret⟩

/-! ## Names -/

theorem readName_append (name : List Char) (hname : ∃ c more, name = c :: more ∧ startsName c = true)
    (hmore : name.all continuesName = true) (hrest : Stops continuesName rest) :
    readName (name ++ rest) = (name, rest) := by
  obtain ⟨c, more, rfl, hc⟩ := hname
  have htail : ∀ d ∈ more, continuesName d = true :=
    fun d hd => List.all_eq_true.mp hmore d (List.mem_cons_of_mem c hd)
  rw [List.cons_append, readName, if_pos hc, takeWhile_append htail hrest, dropWhile_append htail hrest]

theorem exists_name (f : Function) :
    ∃ c more, f.name.toList = c :: more ∧ (c = 'x' ∨ c = 'p' ∨ c = 's' ∨ c = 'a') := by
  cases f with
  | sqrt => exact ⟨'s', ['q', 'r', 't'], by decide, by simp⟩
  | abs => exact ⟨'a', ['b', 's'], by decide, by simp⟩

theorem readName_function (f : Function) (hrest : Stops continuesName rest) :
    readName (f.name.toList ++ rest) = (f.name.toList, rest) := by
  refine readName_append _ ?_ ?_ hrest
  · obtain ⟨c, more, hname, hc⟩ := exists_name f
    exact ⟨c, more, hname, by obtain rfl | rfl | rfl | rfl := hc <;> rfl⟩
  · cases f <;> decide

theorem ofName?_name (f : Function) : Function.ofName? f.name.toList = some f := by
  cases f <;> decide

/-! ## Factors -/

theorem factor_other {s t : List Char} (h : skipSpaces s = c :: t) (hc : c ≠ '(') :
    factor below s =
      match Decimal.unsigned? (c :: t) with
      | some (d, rest) => .ok ⟨.number d.toFloat, .digit, rest⟩
      | none => failAt (c :: t) (named below (c :: t)) := by
  unfold factor
  simp only [h]
  split
  · next inside heq => exact absurd (List.cons.inj heq).1 hc
  · rfl

theorem factor_number {text : List Char} {d : Decimal} (hgap : ∀ d ∈ gap, isSpace d = true)
    (h : Decimal.Numeral text d) (hrest : Fits .digit rest) :
    factor below (gap ++ (text ++ rest)) = .ok ⟨.number d.toFloat, .digit, rest⟩ := by
  have hread := Decimal.unsigned?_append h hrest
  obtain ⟨c, t, rfl, hc⟩ := h.head
  have hblank : isBlank c = false := by
    obtain hc | rfl := hc
    · exact isBlank_of_isDigit hc
    · rfl
  have hopening : c ≠ '(' := by
    rintro rfl
    simp at hc
  rw [List.cons_append] at hread ⊢
  rw [factor_other (skipSpaces_gap hgap hblank) hopening, hread]

theorem factor_named {s : List Char} {p : Parsed} (hgap : ∀ d ∈ gap, isSpace d = true)
    (hs : ∃ c t, s = c :: t ∧ (c = 'x' ∨ c = 'p' ∨ c = 's' ∨ c = 'a')) (h : named below s = .ok p) :
    factor below (gap ++ s) = .ok p := by
  obtain ⟨c, t, rfl, hc⟩ := hs
  have hblank : isBlank c = false := by obtain rfl | rfl | rfl | rfl := hc <;> rfl
  have hopening : c ≠ '(' := by obtain rfl | rfl | rfl | rfl := hc <;> decide
  have hnumeral : Decimal.unsigned? (c :: t) = none := by obtain rfl | rfl | rfl | rfl := hc <;> rfl
  rw [factor_other (skipSpaces_gap hgap hblank) hopening, hnumeral]
  exact failAt_eq_ok.mpr h

theorem factor_var (hgap : ∀ d ∈ gap, isSpace d = true) (hrest : Fits .var rest) :
    factor below (gap ++ 'x' :: rest) = .ok ⟨.var, .var, rest⟩ := by
  have hname := readName_append ['x'] ⟨_, _, rfl, rfl⟩ (by decide) hrest
  refine factor_named hgap ⟨_, _, rfl, by simp⟩ ?_
  rw [named, ← List.singleton_append, hname]
  rfl

theorem factor_pi (hgap : ∀ d ∈ gap, isSpace d = true) (hrest : Fits .other rest) :
    factor below (gap ++ 'p' :: 'i' :: rest) = .ok ⟨.pi, .other, rest⟩ := by
  have hname := readName_append ['p', 'i'] ⟨_, _, rfl, rfl⟩ (by decide) hrest
  refine factor_named hgap ⟨_, _, rfl, by simp⟩ ?_
  rw [named, show 'p' :: 'i' :: rest = ['p', 'i'] ++ rest from rfl, hname]
  rfl

/-- A sum between parentheses is read if the readers below read the sum. -/
theorem group_read {s : List Char} {e : Expr} (hgap : ∀ d ∈ gap, isSpace d = true)
    (h : below.sum s = .ok ⟨e, ending, gap ++ ')' :: rest⟩) :
    group below s = .ok ⟨e, .closing, rest⟩ := by
  refine bind_eq_ok.mpr ⟨_, h, ?_⟩
  simp only [skipSpaces_gap hgap (c := ')') rfl]

theorem factor_group {s : List Char} {p : Parsed} (hgap : ∀ d ∈ gap, isSpace d = true)
    (h : group below s = .ok p) : factor below (gap ++ '(' :: s) = .ok p := by
  unfold factor
  simp only [skipSpaces_gap hgap (c := '(') rfl]
  exact h

theorem factor_call {gap' s : List Char} {p : Parsed} (f : Function)
    (hgap : ∀ d ∈ gap, isSpace d = true) (hgap' : ∀ d ∈ gap', isSpace d = true)
    (h : group below s = .ok p) :
    factor below (gap ++ (f.name.toList ++ (gap' ++ '(' :: s))) =
      .ok { p with expr := .call f p.expr } := by
  have hstop : Fits .var (gap' ++ '(' :: s) := fits_gap hgap' rfl
  refine factor_named hgap ?_ ?_
  · obtain ⟨c, more, hname, hc⟩ := exists_name f
    exact ⟨c, _, by rw [hname]; rfl, hc⟩
  · have hvar : f.name.toList ≠ ['x'] := by cases f <;> decide
    have hpi : f.name.toList ≠ ['p', 'i'] := by cases f <;> decide
    rw [named, readName_function f hstop]
    simp only [if_neg hvar, if_neg hpi, ofName?_name, skipSpaces_gap hgap' (c := '(') rfl]
    exact bind_eq_ok.mpr ⟨p, h, rfl⟩

/-! ## Powers and signs -/

theorem power_base {s : List Char} {p : Parsed} (h : factor below s = .ok p)
    (hrest : next p.rest ≠ some '^') : power below s = .ok p := by
  refine bind_eq_ok.mpr ⟨p, h, ?_⟩
  split
  · next rest hcaret => exact absurd (by rw [next, hcaret]; rfl) hrest
  · rfl

theorem power_raised {s t : List Char} {b : Expr} {q : Parsed} (hgap : ∀ d ∈ gap, isSpace d = true)
    (hbase : factor below s = .ok ⟨b, ending, gap ++ '^' :: t⟩) (hexponent : below.exponent t = .ok q) :
    power below s = .ok { q with expr := .power b q.expr } := by
  refine bind_eq_ok.mpr ⟨_, hbase, ?_⟩
  simp only [skipSpaces_gap hgap (c := '^') rfl]
  exact bind_eq_ok.mpr ⟨q, hexponent, rfl⟩

theorem withSigns_negated {operand : Reader} {s : List Char} {p : Parsed}
    (hgap : ∀ d ∈ gap, isSpace d = true) (h : operand s = .ok p) :
    withSigns below operand (gap ++ '-' :: s) = .ok { p with expr := .neg p.expr } := by
  unfold withSigns
  simp only [skipSpaces_gap hgap (c := '-') rfl]
  exact bind_eq_ok.mpr ⟨p, failAt_eq_ok.mpr h, rfl⟩

theorem withSigns_affirmed {operand : Reader} {s : List Char} {p : Parsed}
    (hgap : ∀ d ∈ gap, isSpace d = true) (h : operand s = .ok p) :
    withSigns below operand (gap ++ '+' :: s) = .ok p := by
  unfold withSigns
  simp only [skipSpaces_gap hgap (c := '+') rfl]
  exact failAt_eq_ok.mpr h

theorem skipSpaces_skipSpaces (s : List Char) : skipSpaces (skipSpaces s) = skipSpaces s :=
  dropWhile_of_stops (stops_dropWhile isSpace s)

theorem power_skipSpaces (s : List Char) : power below (skipSpaces s) = power below s := by
  unfold power factor
  rw [skipSpaces_skipSpaces]

theorem withSigns_unsigned {operand : Reader} {s : List Char} {p : Parsed} (h : power below s = .ok p)
    (hminus : next s ≠ some '-') (hplus : next s ≠ some '+') : withSigns below operand s = .ok p := by
  unfold withSigns
  simp only
  split
  · next rest heq => exact absurd (by rw [next, heq]; rfl) hminus
  · next rest heq => exact absurd (by rw [next, heq]; rfl) hplus
  · rw [power_skipSpaces, h]

/-! ## Products and sums -/

theorem skipSpaces_ne {s : List Char} (h : next s ≠ some c) (rest : List Char) :
    skipSpaces s ≠ c :: rest := by
  intro heq
  rw [next, heq] at h
  exact h rfl

theorem product_operand {s : List Char} {p : Parsed} (h : signed below s = .ok p) :
    product below s = productFrom below p := by
  rw [product, h]
  rfl

theorem productFrom_times (hbelow : below.Sound) {op : Operator} (hop : op.binding = 2)
    {p q : Parsed} {s : List Char} (hgap : ∀ d ∈ gap, isSpace d = true)
    (hrest : p.rest = gap ++ op.symbol :: s) (h : signed below s = .ok q) :
    productFrom below p = productFrom below (p.extend op q) := by
  have hskip : skipSpaces p.rest = op.symbol :: s := by
    rw [hrest, skipSpaces_gap hgap (by cases op <;> rfl)]
  rw [productFrom_eq hbelow, productStep_times hop hskip, h]
  rfl

theorem productFrom_implicit (hbelow : below.Sound) {p q : Parsed}
    (hmul : next p.rest ≠ some '*') (hdiv : next p.rest ≠ some '/')
    (hmay : mayFollow p.ending (p.rest.dropWhile isBlank).head? = true)
    (h : power below p.rest = .ok q) : productFrom below p = productFrom below (p.extend .mul q) := by
  rw [productFrom_eq hbelow, productStep_other (skipSpaces_ne hmul) (skipSpaces_ne hdiv), if_pos hmay, h]
  rfl

theorem productFrom_end (hbelow : below.Sound) {p : Parsed} (h : Ends .sum p.ending p.rest) :
    productFrom below p = .ok p := by
  obtain ⟨-, -, hmul, hdiv, hmay⟩ := h
  rw [productFrom_eq hbelow, productStep_other (skipSpaces_ne hmul) (skipSpaces_ne hdiv), hmay]
  rfl

theorem sum_term {s : List Char} {p : Parsed} (h : product below s = .ok p) :
    sum below s = sumFrom below p := by
  rw [sum, h]
  rfl

theorem sumFrom_plus (hbelow : below.Sound) {op : Operator} (hop : op.binding = 1)
    {p q : Parsed} {s : List Char} (hgap : ∀ d ∈ gap, isSpace d = true)
    (hrest : p.rest = gap ++ op.symbol :: s) (h : product below s = .ok q) :
    sumFrom below p = sumFrom below (p.extend op q) := by
  have hskip : skipSpaces p.rest = op.symbol :: s := by
    rw [hrest, skipSpaces_gap hgap (by cases op <;> rfl)]
  rw [sumFrom_eq hbelow, sumStep_plus hop hskip, h]
  rfl

theorem sumFrom_end (hbelow : below.Sound) {p : Parsed} (hadd : next p.rest ≠ some '+')
    (hsub : next p.rest ≠ some '-') : sumFrom below p = .ok p := by
  rw [sumFrom_eq hbelow, sumStep_other (skipSpaces_ne hadd) (skipSpaces_ne hsub)]

end AnswerCheck.Grammar
