import AnswerCheck.Proofs.Expr.Limits
import AnswerCheck.Proofs.Expr.Reading

/-! # What is derived is read

A reader takes a derivation whole, whatever stands after it, as long as that cannot continue the
derivation and there are levels enough. The levels are bounded by the text that is left: an entry
into a parenthesis or an exponent uses one entry of the text up, and between two entries lies at
most one run of signs.
-/

set_option autoImplicit false

namespace AnswerCheck.Grammar

open Text

variable {gap rest s : List Char} {c : Char} {ending : Ending} {limit n signs : Nat}

/-! ## Pieces of a spelling -/

theorem Spelled.of_singleton {blank : Char → Bool} {token : Token} (h : Spelled blank [token] s) :
    ∃ gap, s = gap ++ token.text ∧ ∀ d ∈ gap, blank d = true := by
  obtain ⟨gap, t, rfl, hgap, ht⟩ := h.of_cons
  cases ht
  exact ⟨gap, by simp, hgap⟩

theorem Spelled.of_group {blank : Char → Bool} {ts : List Token} (h : Spelled blank (ts ++ [.closing]) s) :
    ∃ inside gap, s = inside ++ (gap ++ [')']) ∧ Spelled blank ts inside ∧ ∀ d ∈ gap, blank d = true := by
  obtain ⟨inside, s', rfl, hinside, hclosing⟩ := h.of_append
  obtain ⟨gap, rfl, hgap⟩ := hclosing.of_singleton
  exact ⟨inside, gap, rfl, hinside, hgap⟩

theorem Spelled.of_infix {blank : Char → Bool} {ts us : List Token} {token : Token}
    (h : Spelled blank (ts ++ token :: us) s) :
    ∃ left gap right, s = left ++ (gap ++ (token.text ++ right)) ∧ Spelled blank ts left ∧
      (∀ d ∈ gap, blank d = true) ∧ Spelled blank us right := by
  obtain ⟨left, s', rfl, hleft, hs'⟩ := h.of_append
  obtain ⟨gap, right, rfl, hgap, hright⟩ := hs'.of_cons
  exact ⟨left, gap, right, rfl, hleft, hgap, hright⟩

/-! ## Derivations are balanced -/

theorem not_parenthesis_of_isSpace (h : isSpace c = true) : c ≠ '(' ∧ c ≠ ')' :=
  ⟨ne_of_kind h rfl, ne_of_kind h rfl⟩

theorem balanced_gap (hgap : ∀ d ∈ gap, isSpace d = true) : Balanced gap :=
  balanced_of_no_parentheses fun d hd => not_parenthesis_of_isSpace (hgap d hd)

theorem balanced_token {token : Token} (hvalid : token.Valid) (hopening : token ≠ .opening)
    (hclosing : token ≠ .closing) : Balanced token.text := by
  have hsome (h : (token.text.all fun c => c != '(' && c != ')') = true) : Balanced token.text :=
    balanced_of_no_parentheses fun c hc => by simpa using List.all_eq_true.mp h c hc
  cases token with
  | number text =>
    obtain ⟨d, hd⟩ := hvalid
    refine balanced_of_no_parentheses fun c hc => ?_
    have := hd.mem hc
    constructor <;>
    · rintro rfl
      simp at this
  | opening => exact absurd rfl hopening
  | closing => exact absurd rfl hclosing
  | function f => exact hsome (by cases f <;> decide)
  | operator op => exact hsome (by cases op <;> decide)
  | _ => exact hsome rfl

theorem balanced_group {inside : List Char} (h : Balanced inside)
    (hgap : ∀ d ∈ gap, isSpace d = true) : Balanced ('(' :: (inside ++ (gap ++ [')']))) := by
  have := (h.append (balanced_gap hgap)).parenthesized
  rwa [List.cons_append, List.append_assoc] at this

theorem balanced_infix {left right : List Char} {token : Token} (hleft : Balanced left)
    (hgap : ∀ d ∈ gap, isSpace d = true) (hvalid : token.Valid) (hopening : token ≠ .opening)
    (hclosing : token ≠ .closing) (hright : Balanced right) :
    Balanced (left ++ (gap ++ (token.text ++ right))) :=
  hleft.append ((balanced_gap hgap).append ((balanced_token hvalid hopening hclosing).append hright))

theorem balanced_single (token : Token) (hvalid : token.Valid) (hopening : token ≠ .opening)
    (hclosing : token ≠ .closing) (h : Spelled isSpace [token] s) : Balanced s := by
  obtain ⟨gap, rfl, hgap⟩ := h.of_singleton
  exact (balanced_gap hgap).append (balanced_token hvalid hopening hclosing)

theorem Derives.balanced {category : Category} {ts : List Token} {e : Expr}
    (h : Derives category ts e ending) {used : List Char} (hs : Spelled isSpace ts used) :
    Balanced used := by
  have hnil : Balanced [] := balanced_of_no_parentheses (by simp)
  induction h generalizing used with
  | number h => exact balanced_single (.number _) ⟨_, h⟩ (by simp) (by simp) hs
  | var => exact balanced_single .var trivial (by simp) (by simp) hs
  | pi => exact balanced_single .pi trivial (by simp) (by simp) hs
  | group h ih =>
    obtain ⟨gap, t, rfl, hgap, ht⟩ := hs.of_cons
    obtain ⟨inside, gap', rfl, hinside, hgap'⟩ := ht.of_group
    exact (balanced_gap hgap).append (balanced_group (ih hinside) hgap')
  | call f h ih =>
    obtain ⟨gap, t, rfl, hgap, ht⟩ := hs.of_cons
    obtain ⟨gap', t', rfl, hgap', ht'⟩ := ht.of_cons
    obtain ⟨inside, gap'', rfl, hinside, hgap''⟩ := ht'.of_group
    have hf : Balanced (Token.function f).text := balanced_token trivial (by simp) (by simp)
    exact (balanced_gap hgap).append
      (hf.append ((balanced_gap hgap').append (balanced_group (ih hinside) hgap'')))
  | base h ih => exact ih hs
  | raised hbase hexponent ihbase ihexponent =>
    obtain ⟨left, gap, right, rfl, hleft, hgap, hright⟩ := hs.of_infix
    exact balanced_infix (ihbase hleft) hgap trivial (by simp) (by simp) (ihexponent hright)
  | unsigned hc h ih => exact ih hs
  | negated hc h ih =>
    obtain ⟨gap, right, rfl, hgap, hright⟩ := hs.of_cons
    exact balanced_infix hnil hgap trivial (by simp) (by simp) (ih hright)
  | affirmed hc h ih =>
    obtain ⟨gap, right, rfl, hgap, hright⟩ := hs.of_cons
    exact balanced_infix hnil hgap trivial (by simp) (by simp) (ih hright)
  | operand h ih => exact ih hs
  | times hop hleft hright ihleft ihright =>
    obtain ⟨left, gap, right, rfl, hsleft, hgap, hsright⟩ := hs.of_infix
    exact balanced_infix (ihleft hsleft) hgap trivial (by simp) (by simp) (ihright hsright)
  | implicit hleft hfollows hright ihleft ihright =>
    obtain ⟨left, right, rfl, hsleft, hsright⟩ := hs.of_append
    exact (ihleft hsleft).append (ihright hsright)
  | term h ih => exact ih hs
  | plus hop hleft hright ihleft ihright =>
    obtain ⟨left, gap, right, rfl, hsleft, hgap, hsright⟩ := hs.of_infix
    exact balanced_infix (ihleft hsleft) hgap trivial (by simp) (by simp) (ihright hsright)

/-! ## Levels enough -/

/-- Levels enough for a text in front of which no sign can stand. -/
def Tight (limit n : Nat) (s : List Char) : Prop :=
  (limit + 1) * entries s ≤ n ∧ longestSignRun 0 s ≤ limit

/-- Levels enough for a text with one more run of signs in front of its entries, of which some signs
stand before the text. -/
def Room (limit n signs : Nat) (s : List Char) : Prop :=
  (limit + 1) * entries s + limit ≤ n + signs ∧ longestSignRun signs s ≤ limit

theorem Room.tight (h : Room limit n signs s) : Tight limit n s := by
  have := le_longestSignRun signs s
  have := longestSignRun_suffix signs [] s
  rw [List.nil_append] at this
  obtain ⟨hentries, hrun⟩ := h
  constructor <;> omega

theorem Tight.suffix {u : List Char} (h : Tight limit n (u ++ s)) (hu : Balanced u) :
    Tight limit n s := by
  have hentries := Nat.mul_le_mul_left (limit + 1) (entries_append hu s)
  have hrun := longestSignRun_suffix 0 u s
  obtain ⟨h₁, h₂⟩ := h
  constructor <;> omega

theorem Room.suffix {u : List Char} (h : Room limit n 0 (u ++ s)) (hu : Balanced u) :
    Room limit n 0 s := by
  have hentries := Nat.mul_le_mul_left (limit + 1) (entries_append hu s)
  have hrun := longestSignRun_suffix 0 u s
  obtain ⟨h₁, h₂⟩ := h
  constructor <;> omega

/-- An operator uses up no levels. -/
theorem Room.operator {op : Operator} (h : Room limit n 0 (gap ++ op.symbol :: s))
    (hgap : ∀ d ∈ gap, isSpace d = true) : Room limit n 0 s := by
  have hsymbol : Balanced (Token.operator op).text := balanced_token trivial (by simp) (by simp)
  rw [← List.singleton_append] at h
  exact (h.suffix (balanced_gap hgap)).suffix hsymbol

/-- A sign uses one level up. -/
theorem Room.sign (h : Room limit n signs (gap ++ c :: s)) (hgap : ∀ d ∈ gap, isSpace d = true)
    (hc : isSign c = true) : ∃ m, n = m + 1 ∧ Room limit m (signs + 1) s := by
  obtain ⟨hentries, hrun⟩ := h
  have hsuffix : entries s ≤ entries (gap ++ c :: s) := by
    have hsign : Balanced [c] := balanced_of_no_parentheses (by
      intro d hd
      obtain rfl := List.mem_singleton.mp hd
      constructor <;>
      · rintro rfl
        cases hc)
    exact Nat.le_trans (entries_append hsign s) (entries_append (balanced_gap hgap) ([c] ++ s))
  have := Nat.mul_le_mul_left (limit + 1) hsuffix
  rw [longestSignRun_sign (fun d hd => isBlank_of_isSpace (hgap d hd)) hc] at hrun
  have := le_longestSignRun (signs + 1) s
  refine ⟨n - 1, by omega, by omega, hrun⟩

/-- An entry uses a level up, and leaves levels for a run of signs. -/
theorem Tight.entry (h : Tight limit n (gap ++ c :: s)) (hgap : ∀ d ∈ gap, isSpace d = true)
    (hc : entries s + 1 ≤ entries (c :: s)) : ∃ m, n = m + 1 ∧ Room limit m 0 s := by
  obtain ⟨hentries, hrun⟩ := h.suffix (balanced_gap hgap)
  have hless := Nat.mul_le_mul_left (limit + 1) hc
  rw [Nat.mul_add, Nat.mul_one] at hless
  have := longestSignRun_suffix 0 [c] s
  rw [List.singleton_append] at this
  exact ⟨n - 1, by omega, by omega, by omega⟩

/-- Levels enough for a member of the category at the start of a text. -/
def Enough (limit n : Nat) : Category → List Char → Prop
  | .factor, s => Tight limit n s
  | .power, s => Tight limit n s
  | .signed, s => ∃ signs, Room limit n signs s
  | .exponent, s => ∃ signs, Room limit n signs s
  | .product, s => Room limit n 0 s
  | .sum, s => Room limit n 0 s

/-! ## Reading derivations -/

/-- The reader of the category takes what was read; a product or a sum is read on from there. -/
def Outcome (n : Nat) : Category → List Char → Parsed → Prop
  | .factor, s, p => factor (readers n) s = .ok p
  | .power, s, p => power (readers n) s = .ok p
  | .signed, s, p => signed (readers n) s = .ok p
  | .exponent, s, p => exponent (readers n) s = .ok p
  | .product, s, p => product (readers n) s = productFrom (readers n) p
  | .sum, s, p => sum (readers n) s = sumFrom (readers n) p

/-- The tokens are read as the expression, whatever stands after them. -/
def Reads (limit : Nat) (category : Category) (ts : List Token) (e : Expr) (ending : Ending) : Prop :=
  ∀ n used rest, Spelled isSpace ts used → Enough limit n category (used ++ rest) →
    Ends category ending rest → Outcome n category (used ++ rest) ⟨e, ending, rest⟩

variable {category : Category} {ts us : List Token} {a b e : Expr} {ending' : Ending}

theorem reads_number {text : List Char} {d : Decimal} (h : Decimal.Numeral text d) :
    Reads limit .factor [.number text] (.number d.toFloat) .digit := by
  intro n used rest hs henough hends
  obtain ⟨gap, rfl, hgap⟩ := hs.of_singleton
  rw [List.append_assoc]
  exact factor_number hgap h hends

theorem reads_var : Reads limit .factor [.var] .var .var := by
  intro n used rest hs henough hends
  obtain ⟨gap, rfl, hgap⟩ := hs.of_singleton
  rw [List.append_assoc]
  exact factor_var hgap hends

theorem reads_pi : Reads limit .factor [.pi] .pi .other := by
  intro n used rest hs henough hends
  obtain ⟨gap, rfl, hgap⟩ := hs.of_singleton
  rw [List.append_assoc]
  exact factor_pi hgap hends

/-- A sum between parentheses, of which the opening one was taken. -/
theorem Reads.group_eq (h : Reads limit .sum ts e ending) {inside : List Char}
    (hinside : Spelled isSpace ts inside) (hgap : ∀ d ∈ gap, isSpace d = true)
    (hroom : Room limit n 0 (inside ++ (gap ++ ')' :: rest))) :
    group (readers (n + 1)) (inside ++ (gap ++ ')' :: rest)) = .ok ⟨e, .closing, rest⟩ := by
  have hsum := h n inside _ hinside hroom (ends_sum hgap (Or.inl rfl))
  have hnext : next (gap ++ ')' :: rest) = some ')' := next_gap hgap rfl
  refine group_read hgap (hsum.trans (sumFrom_end (readers_sound n) ?_ ?_)) <;>
  · rw [hnext]
    decide

theorem Reads.group (h : Reads limit .sum ts e ending) :
    Reads limit .factor (.opening :: ts ++ [.closing]) e .closing := by
  intro n used rest hs henough hends
  obtain ⟨gap, t, rfl, hgap, ht⟩ := hs.of_cons
  obtain ⟨inside, gap', rfl, hinside, hgap'⟩ := ht.of_group
  simp only [Token.text, List.append_assoc, List.cons_append, List.nil_append] at henough ⊢
  obtain ⟨m, rfl, hroom⟩ := Tight.entry henough hgap (entries_opening _)
  exact factor_group hgap (h.group_eq hinside hgap' hroom)

theorem Reads.call (f : Function) (h : Reads limit .sum ts e ending) :
    Reads limit .factor (.function f :: .opening :: ts ++ [.closing]) (.call f e) .closing := by
  intro n used rest hs henough hends
  obtain ⟨gap, t, rfl, hgap, ht⟩ := hs.of_cons
  obtain ⟨gap', t', rfl, hgap', ht'⟩ := ht.of_cons
  obtain ⟨inside, gap'', rfl, hinside, hgap''⟩ := ht'.of_group
  simp only [Token.text, List.append_assoc, List.cons_append, List.nil_append] at henough ⊢
  have hname : Balanced (Token.function f).text := balanced_token trivial (by simp) (by simp)
  have hinner := (Tight.suffix henough (balanced_gap hgap)).suffix hname
  obtain ⟨m, rfl, hroom⟩ := hinner.entry hgap' (entries_opening _)
  exact factor_call f hgap hgap' (h.group_eq hinside hgap'' hroom)

theorem Reads.base (h : Reads limit .factor ts e ending) : Reads limit .power ts e ending := by
  intro n used rest hs henough hends
  exact power_base (h n used rest hs henough hends.1) hends.2

theorem Reads.raised (hbase : Reads limit .factor ts b ending) (hbalanced : ∀ left,
    Spelled isSpace ts left → Balanced left) (hexponent : Reads limit .exponent us e ending') :
    Reads limit .power (ts ++ .caret :: us) (.power b e) ending' := by
  intro n used rest hs henough hends
  obtain ⟨left, gap, right, rfl, hleft, hgap, hright⟩ := hs.of_infix
  simp only [Token.text, List.append_assoc, List.cons_append, List.nil_append] at henough ⊢
  obtain ⟨m, rfl, hroom⟩ :=
    (Tight.suffix henough (hbalanced left hleft)).entry hgap (entries_caret _)
  have hcaret : Ends .factor ending (gap ++ '^' :: (right ++ rest)) :=
    fits_gap hgap (by cases ending <;> rfl)
  exact power_raised hgap (hbase _ left _ hleft henough hcaret)
    (hexponent m right rest hright ⟨0, hroom⟩ hends)

/-! ## Signs -/

/-- The reader that takes what stands after a sign. -/
def Level.operand (below : Level) : Category → Reader
  | .exponent => below.exponent
  | _ => below.signed

theorem outcome_signs (hc : category.takesSigns = true) {p : Parsed} :
    Outcome n category s p ↔ withSigns (readers n) ((readers n).operand category) s = .ok p := by
  cases category with
  | signed => exact Iff.rfl
  | exponent => exact Iff.rfl
  | _ => cases hc

theorem operand_succ (hc : category.takesSigns = true) {p : Parsed} :
    (readers (n + 1)).operand category s = .ok p ↔ Outcome n category s p := by
  cases category with
  | signed => exact Iff.rfl
  | exponent => exact Iff.rfl
  | _ => cases hc

theorem enough_signs (hc : category.takesSigns = true) :
    Enough limit n category s ↔ ∃ signs, Room limit n signs s := by
  cases category with
  | signed => exact Iff.rfl
  | exponent => exact Iff.rfl
  | _ => cases hc

theorem ends_signs (hc : category.takesSigns = true) :
    Ends category ending rest ↔ Ends .power ending rest := by
  cases category with
  | signed => exact Iff.rfl
  | exponent => exact Iff.rfl
  | _ => cases hc

theorem Derives.factor_head (h : Derives .factor ts e ending) :
    ∃ token us, ts = token :: us ∧ token.Valid ∧ ∀ op, token ≠ .operator op := by
  cases h with
  | number h => exact ⟨_, _, rfl, ⟨_, h⟩, by simp⟩
  | var => exact ⟨_, _, rfl, trivial, by simp⟩
  | pi => exact ⟨_, _, rfl, trivial, by simp⟩
  | group h => exact ⟨_, _, rfl, trivial, by simp⟩
  | call f h => exact ⟨_, _, rfl, trivial, by simp⟩
  | unsigned hc _ => cases hc
  | negated hc _ => cases hc
  | affirmed hc _ => cases hc

theorem Derives.power_head (h : Derives .power ts e ending) :
    ∃ token us, ts = token :: us ∧ token.Valid ∧ ∀ op, token ≠ .operator op := by
  cases h with
  | base h => exact h.factor_head
  | raised hbase _ =>
    obtain ⟨token, us, rfl, htoken⟩ := hbase.factor_head
    exact ⟨token, _, rfl, htoken⟩
  | unsigned hc _ => cases hc
  | negated hc _ => cases hc
  | affirmed hc _ => cases hc

theorem isSign_head {token : Token} {more : List Char} (hvalid : token.Valid)
    (hop : ∀ op, token ≠ .operator op) (htext : token.text = c :: more) : isSign c = false := by
  cases token with
  | number text =>
    obtain ⟨d, hd⟩ := hvalid
    obtain ⟨c', more', htext', hc⟩ := hd.head
    obtain ⟨rfl, -⟩ := List.cons.inj (htext.symm.trans htext')
    simp only [isSign, Bool.or_eq_false_iff, decide_eq_false_iff_not]
    constructor <;>
    · rintro rfl
      simp at hc
  | function f =>
    obtain ⟨c', more', hname, hc⟩ := exists_name f
    obtain ⟨rfl, -⟩ := List.cons.inj (htext.symm.trans hname)
    obtain rfl | rfl | rfl | rfl := hc <;> rfl
  | operator op => exact absurd rfl (hop op)
  | _ =>
    obtain ⟨rfl, -⟩ := List.cons.inj htext
    rfl

theorem Reads.unsigned (hc : category.takesSigns = true) (h : Reads limit .power ts e ending)
    (hpower : Derives .power ts e ending) : Reads limit category ts e ending := by
  intro n used rest hs henough hends
  obtain ⟨signs, hroom⟩ := (enough_signs hc).mp henough
  have hread := h n used rest hs hroom.tight ((ends_signs hc).mp hends)
  obtain ⟨token, us, rfl, hvalid, hop⟩ := hpower.power_head
  obtain ⟨gap, t, rfl, hgap, -⟩ := hs.of_cons
  obtain ⟨c, more, htext, hblank⟩ := hvalid.head
  have hsign := isSign_head hvalid hop htext
  have hnext : next (gap ++ (token.text ++ t) ++ rest) = some c := by
    rw [htext, List.append_assoc, List.cons_append, List.cons_append, next_gap hgap hblank]
  refine (outcome_signs hc).mpr (withSigns_unsigned hread ?_ ?_) <;>
  · rw [hnext]
    rintro ⟨⟩
    cases hsign

/-- What stands after a sign is read one level below. -/
theorem Reads.after_sign {op : Operator} (hc : category.takesSigns = true)
    (h : Reads limit category ts e ending) (hsign : isSign op.symbol = true) {used : List Char}
    (hs : Spelled isSpace (.operator op :: ts) used) (henough : Enough limit n category (used ++ rest))
    (hends : Ends category ending rest) :
    ∃ gap t, used ++ rest = gap ++ op.symbol :: (t ++ rest) ∧ (∀ d ∈ gap, isSpace d = true) ∧
      (readers n).operand category (t ++ rest) = .ok ⟨e, ending, rest⟩ := by
  obtain ⟨signs, hroom⟩ := (enough_signs hc).mp henough
  obtain ⟨gap, t, rfl, hgap, ht⟩ := hs.of_cons
  have htext : gap ++ ((Token.operator op).text ++ t) ++ rest = gap ++ op.symbol :: (t ++ rest) := by
    simp [Token.text]
  rw [htext] at hroom
  obtain ⟨m, rfl, hroom'⟩ := hroom.sign hgap hsign
  have hread := h m t rest ht ((enough_signs hc).mpr ⟨_, hroom'⟩) hends
  exact ⟨gap, t, htext, hgap, (operand_succ hc).mpr hread⟩

theorem Reads.negated (hc : category.takesSigns = true) (h : Reads limit category ts e ending) :
    Reads limit category (.operator .sub :: ts) (.neg e) ending := by
  intro n used rest hs henough hends
  obtain ⟨gap, t, htext, hgap, hread⟩ := h.after_sign hc rfl hs henough hends
  rw [htext]
  exact (outcome_signs hc).mpr (withSigns_negated hgap hread)

theorem Reads.affirmed (hc : category.takesSigns = true) (h : Reads limit category ts e ending) :
    Reads limit category (.operator .add :: ts) e ending := by
  intro n used rest hs henough hends
  obtain ⟨gap, t, htext, hgap, hread⟩ := h.after_sign hc rfl hs henough hends
  rw [htext]
  exact (outcome_signs hc).mpr (withSigns_affirmed hgap hread)

/-! ## Products and sums -/

theorem Reads.operand (h : Reads limit .signed ts e ending) : Reads limit .product ts e ending := by
  intro n used rest hs henough hends
  exact product_operand (h n used rest hs ⟨0, henough⟩ hends)

theorem Reads.times {op : Operator} (hop : op.binding = 2) (hleft : Reads limit .product ts a ending)
    (hbalanced : ∀ left, Spelled isSpace ts left → Balanced left)
    (hright : Reads limit .signed us b ending') :
    Reads limit .product (ts ++ .operator op :: us) (.arith op a b) ending' := by
  intro n used rest hs henough hends
  obtain ⟨left, gap, right, rfl, hsleft, hgap, hsright⟩ := hs.of_infix
  simp only [Token.text, List.append_assoc, List.cons_append, List.nil_append] at henough ⊢
  have hroom := (Room.suffix henough (hbalanced left hsleft)).operator hgap
  have hoperand := hleft n left _ hsleft henough (ends_operator (by simp) op hgap)
  exact hoperand.trans (productFrom_times (readers_sound n) hop hgap rfl
    (hright n right rest hsright ⟨0, hroom⟩ hends))

theorem Reads.implicit (hleft : Reads limit .product ts a ending)
    (hbalanced : ∀ left, Spelled isSpace ts left → Balanced left) (hfollows : Follows ending us)
    (hpower : Derives .power us b ending') (hright : Reads limit .power us b ending') :
    Reads limit .product (ts ++ us) (.arith .mul a b) ending' := by
  intro n used rest hs henough hends
  obtain ⟨left, right, rfl, hsleft, hsright⟩ := hs.of_append
  rw [List.append_assoc] at henough ⊢
  have hroom := Room.suffix henough (hbalanced left hsleft)
  have hread := hright n right rest hsright hroom.tight hends
  obtain ⟨token, more, rfl, hvalid, hop⟩ := hpower.power_head
  obtain ⟨gap, t, rfl, hgap, -⟩ := hsright.of_cons
  obtain ⟨c, text, htext, hblank⟩ := hvalid.head
  have hmay := (mayFollow_iff hvalid htext).mpr hfollows
  have hform : gap ++ (token.text ++ t) ++ rest = gap ++ c :: (text ++ t ++ rest) := by
    rw [htext]
    simp
  rw [hform] at henough hread ⊢
  have hnext : next (gap ++ c :: (text ++ t ++ rest)) = some c := next_gap hgap hblank
  have hsymbol : c ≠ '^' ∧ c ≠ '*' ∧ c ≠ '/' := by
    refine ⟨?_, ?_, ?_⟩ <;>
    · rintro rfl
      cases ending <;> cases hmay
  have hends' : Ends .product ending (gap ++ c :: (text ++ t ++ rest)) := by
    refine ⟨fits_gap hgap (continues_of_mayFollow hmay), ?_⟩
    rw [hnext]
    exact fun h => hsymbol.1 (Option.some.inj h)
  have hoperand := hleft n left _ hsleft henough hends'
  refine Eq.trans hoperand
    (productFrom_implicit (readers_sound n) (p := ⟨a, ending, _⟩) (q := ⟨b, ending', rest⟩) ?_ ?_ ?_ hread)
  · rw [hnext]
    exact fun h => hsymbol.2.1 (Option.some.inj h)
  · rw [hnext]
    exact fun h => hsymbol.2.2 (Option.some.inj h)
  · rw [head?_gap hgap hblank]
    exact hmay

theorem Reads.term (h : Reads limit .product ts e ending) : Reads limit .sum ts e ending := by
  intro n used rest hs henough hends
  have hproduct := h n used rest hs henough hends.of_sum
  exact sum_term (hproduct.trans (productFrom_end (readers_sound n) hends))

theorem Reads.plus {op : Operator} (hop : op.binding = 1) (hleft : Reads limit .sum ts a ending)
    (hbalanced : ∀ left, Spelled isSpace ts left → Balanced left)
    (hright : Reads limit .product us b ending') :
    Reads limit .sum (ts ++ .operator op :: us) (.arith op a b) ending' := by
  intro n used rest hs henough hends
  obtain ⟨left, gap, right, rfl, hsleft, hgap, hsright⟩ := hs.of_infix
  simp only [Token.text, List.append_assoc, List.cons_append, List.nil_append] at henough ⊢
  have hroom := (Room.suffix henough (hbalanced left hsleft)).operator hgap
  have hends' : Ends .sum ending (gap ++ op.symbol :: (right ++ rest)) :=
    ends_sum hgap (by cases op <;> simp_all [Operator.binding, Operator.symbol])
  have hsum := hleft n left _ hsleft henough hends'
  have hproduct := hright n right rest hsright hroom hends.of_sum
  exact hsum.trans (sumFrom_plus (readers_sound n) hop hgap rfl
    (hproduct.trans (productFrom_end (readers_sound n) hends)))

/-- Every derivation is read. -/
theorem Derives.reads (h : Derives category ts e ending) : Reads limit category ts e ending := by
  induction h with
  | number h => exact reads_number h
  | var => exact reads_var
  | pi => exact reads_pi
  | group _ ih => exact ih.group
  | call f _ ih => exact ih.call f
  | base _ ih => exact ih.base
  | raised hbase _ ihbase ihexponent => exact ihbase.raised (fun _ => hbase.balanced) ihexponent
  | unsigned hc h ih => exact ih.unsigned hc h
  | negated hc _ ih => exact ih.negated hc
  | affirmed hc _ ih => exact ih.affirmed hc
  | operand _ ih => exact ih.operand
  | times hop hleft _ ihleft ihright => exact ihleft.times hop (fun _ => hleft.balanced) ihright
  | implicit hleft hfollows hright ihleft ihright =>
    exact ihleft.implicit (fun _ => hleft.balanced) hfollows hright ihright
  | term _ ih => exact ih.term
  | plus hop hleft _ ihleft ihright => exact ihleft.plus hop (fun _ => hleft.balanced) ihright

end AnswerCheck.Grammar
