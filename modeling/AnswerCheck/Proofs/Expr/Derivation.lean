import AnswerCheck.Expr.Grammar
import AnswerCheck.Expr.Printer
import AnswerCheck.Proofs.Decimal.Numerals
import AnswerCheck.Proofs.Text.Digits

/-! # The equation grammar as a relation

A text is spelled by tokens with blanks between them, and a list of tokens derives an expression:

    sum      := product (('+' | '-') product)*
    product  := signed (('*' | '/') signed | power)*
    signed   := ('-' | '+') signed | power
    power    := factor ('^' exponent)?
    exponent := ('-' | '+') exponent | power
    factor   := number | 'x' | 'pi' | ('sqrt' | 'abs') '(' sum ')' | '(' sum ')'

Sums and products are written by left recursion here, which says how they group. Nothing is said of
how a text is cut into tokens or of which rule is tried first.
-/

set_option autoImplicit false

namespace AnswerCheck.Grammar

open Text

/-! ## Tokens -/

/-- The tokens of a side of an equation; a number is kept as it is written. -/
inductive Token where
  | number (text : List Char)
  | var
  | pi
  | function (f : Function)
  | opening
  | closing
  | caret
  | operator (op : Operator)

def Token.text : Token → List Char
  | number text => text
  | var => ['x']
  | pi => ['p', 'i']
  | function f => f.name.toList
  | opening => ['(']
  | closing => [')']
  | caret => ['^']
  | operator op => [op.symbol]

/-- The text is the tokens one after another, with blanks in front of each or none. -/
inductive Spelled (blank : Char → Bool) : List Token → List Char → Prop
  | nil : Spelled blank [] []
  | cons {gap s : List Char} {tokens : List Token} (token : Token)
      (hgap : ∀ c ∈ gap, blank c = true) (hs : Spelled blank tokens s) :
      Spelled blank (token :: tokens) (gap ++ token.text ++ s)

/-! ## Derivations -/

/-- The syntactic categories of the grammar. -/
inductive Category where
  | sum
  | product
  | signed
  | power
  | exponent
  | factor
deriving DecidableEq

/-- Whether signs may stand in front. -/
def Category.takesSigns (category : Category) : Bool :=
  category = .signed || category = .exponent

/-- Whether a factor may follow without an operator: `x` or `(` after a number, `(` after `x`, and
`(`, `x` or a digit after `)`. -/
def Follows : Ending → List Token → Prop
  | .digit, .var :: _ => True
  | .digit, .opening :: _ => True
  | .var, .opening :: _ => True
  | .closing, .opening :: _ => True
  | .closing, .var :: _ => True
  | .closing, .number text :: _ => ∃ c rest, text = c :: rest ∧ c.isDigit = true
  | _, _ => False

/-- The tokens derive the expression as a member of the category; the last token is of the kind
given. -/
inductive Derives : Category → List Token → Expr → Ending → Prop
  | number {text : List Char} {d : Decimal} (h : Decimal.Numeral text d) :
      Derives .factor [.number text] (.number d.toFloat) .digit
  | var : Derives .factor [.var] .var .var
  | pi : Derives .factor [.pi] .pi .other
  | group {ts : List Token} {e : Expr} {ending : Ending} (h : Derives .sum ts e ending) :
      Derives .factor (.opening :: ts ++ [.closing]) e .closing
  | call (f : Function) {ts : List Token} {e : Expr} {ending : Ending}
      (h : Derives .sum ts e ending) :
      Derives .factor (.function f :: .opening :: ts ++ [.closing]) (.call f e) .closing
  | base {ts : List Token} {e : Expr} {ending : Ending} (h : Derives .factor ts e ending) :
      Derives .power ts e ending
  | raised {ts us : List Token} {b e : Expr} {ending ending' : Ending}
      (hbase : Derives .factor ts b ending) (hexponent : Derives .exponent us e ending') :
      Derives .power (ts ++ .caret :: us) (.power b e) ending'
  | unsigned {category : Category} {ts : List Token} {e : Expr} {ending : Ending}
      (hc : category.takesSigns = true) (h : Derives .power ts e ending) :
      Derives category ts e ending
  | negated {category : Category} {ts : List Token} {e : Expr} {ending : Ending}
      (hc : category.takesSigns = true) (h : Derives category ts e ending) :
      Derives category (.operator .sub :: ts) (.neg e) ending
  | affirmed {category : Category} {ts : List Token} {e : Expr} {ending : Ending}
      (hc : category.takesSigns = true) (h : Derives category ts e ending) :
      Derives category (.operator .add :: ts) e ending
  | operand {ts : List Token} {e : Expr} {ending : Ending} (h : Derives .signed ts e ending) :
      Derives .product ts e ending
  | times {op : Operator} {ts us : List Token} {a b : Expr} {ending ending' : Ending}
      (hop : op.binding = 2) (hleft : Derives .product ts a ending)
      (hright : Derives .signed us b ending') :
      Derives .product (ts ++ .operator op :: us) (.arith op a b) ending'
  | implicit {ts us : List Token} {a b : Expr} {ending ending' : Ending}
      (hleft : Derives .product ts a ending) (hfollows : Follows ending us)
      (hright : Derives .power us b ending') :
      Derives .product (ts ++ us) (.arith .mul a b) ending'
  | term {ts : List Token} {e : Expr} {ending : Ending} (h : Derives .product ts e ending) :
      Derives .sum ts e ending
  | plus {op : Operator} {ts us : List Token} {a b : Expr} {ending ending' : Ending}
      (hop : op.binding = 1) (hleft : Derives .sum ts a ending)
      (hright : Derives .product us b ending') :
      Derives .sum (ts ++ .operator op :: us) (.arith op a b) ending'

/-- The text as a whole denotes the expression, if the characters of the class `blank` may stand
between tokens. -/
def Denotes (blank : Char → Bool) (s : List Char) (e : Expr) : Prop :=
  ∃ ts ending, Spelled blank ts s ∧ Derives .sum ts e ending

/-! ## Spelling -/

theorem Spelled.append {blank : Char → Bool} {ts us : List Token} {s t : List Char}
    (hs : Spelled blank ts s) (ht : Spelled blank us t) : Spelled blank (ts ++ us) (s ++ t) := by
  induction hs with
  | nil => exact ht
  | cons token hgap _ ih =>
    rw [List.cons_append, List.append_assoc]
    exact Spelled.cons token hgap ih

theorem Spelled.of_append {blank : Char → Bool} {ts us : List Token} {s : List Char}
    (h : Spelled blank (ts ++ us) s) :
    ∃ s₁ s₂, s = s₁ ++ s₂ ∧ Spelled blank ts s₁ ∧ Spelled blank us s₂ := by
  induction ts generalizing s with
  | nil => exact ⟨[], s, rfl, Spelled.nil, h⟩
  | cons token ts ih =>
    rw [List.cons_append] at h
    cases h with
    | cons _ hgap hs =>
      obtain ⟨s₁, s₂, rfl, h₁, h₂⟩ := ih hs
      exact ⟨_, s₂, by rw [List.append_assoc _ s₁], Spelled.cons token hgap h₁, h₂⟩

theorem Spelled.singleton {blank : Char → Bool} {gap : List Char} (token : Token)
    (hgap : ∀ c ∈ gap, blank c = true) : Spelled blank [token] (gap ++ token.text) := by
  have h := Spelled.cons token hgap Spelled.nil
  rwa [List.append_nil] at h

theorem Spelled.token {blank : Char → Bool} {ts : List Token} {s : List Char} (token : Token)
    (hs : Spelled blank ts s) : Spelled blank (token :: ts) (token.text ++ s) := by
  have h : Spelled blank (token :: ts) ([] ++ token.text ++ s) := .cons token (by simp) hs
  rwa [List.nil_append] at h

theorem Spelled.only {blank : Char → Bool} (token : Token) : Spelled blank [token] token.text := by
  have h : Spelled blank [token] (token.text ++ []) := .token token .nil
  rwa [List.append_nil] at h

theorem Spelled.of_cons {blank : Char → Bool} {token : Token} {ts : List Token} {s : List Char}
    (h : Spelled blank (token :: ts) s) :
    ∃ gap t, s = gap ++ (token.text ++ t) ∧ (∀ c ∈ gap, blank c = true) ∧ Spelled blank ts t := by
  cases h with
  | cons _ hgap hs => exact ⟨_, _, List.append_assoc _ _ _, hgap, hs⟩

/-- Blanks in front of the first token do no harm. -/
theorem Spelled.gap_append {blank : Char → Bool} {ts : List Token} {gap s : List Char} (hts : ts ≠ [])
    (hgap : ∀ c ∈ gap, blank c = true) (h : Spelled blank ts s) : Spelled blank ts (gap ++ s) := by
  cases h with
  | nil => exact absurd rfl hts
  | cons token hgap' hs =>
    rw [List.append_assoc, ← List.append_assoc gap, ← List.append_assoc]
    refine Spelled.cons token (fun c hc => ?_) hs
    obtain hc | hc := List.mem_append.mp hc
    · exact hgap c hc
    · exact hgap' c hc

theorem Derives.ne_nil {category : Category} {ts : List Token} {e : Expr} {ending : Ending}
    (h : Derives category ts e ending) : ts ≠ [] := by
  induction h <;> simp_all

/-! ## Tokens of a derivation -/

/-- The numbers among the tokens are numerals. -/
def Token.Valid : Token → Prop
  | number text => ∃ d, Decimal.Numeral text d
  | _ => True

theorem Derives.valid {category : Category} {ts : List Token} {e : Expr} {ending : Ending}
    (h : Derives category ts e ending) : ∀ token ∈ ts, token.Valid := by
  induction h <;> simp_all [Token.Valid, or_imp]
  exact ⟨_, ‹_›⟩

theorem isBlank_of_isSpace {c : Char} (h : isSpace c = true) : isBlank c = true := by
  simp only [isSpace, Bool.or_eq_true, decide_eq_true_eq] at h
  obtain ((rfl | rfl) | rfl) | rfl := h <;> rfl

/-- A token starts with a character that is not blank. -/
theorem Token.Valid.head {token : Token} (h : token.Valid) :
    ∃ c rest, token.text = c :: rest ∧ isBlank c = false := by
  cases token with
  | number text =>
    obtain ⟨d, hd⟩ := h
    obtain ⟨c, rest, htext, hc⟩ := hd.head
    refine ⟨c, rest, htext, ?_⟩
    obtain hc | rfl := hc
    · exact isBlank_of_isDigit hc
    · rfl
  | function f => cases f <;> exact ⟨_, _, rfl, rfl⟩
  | operator op => cases op <;> exact ⟨_, _, rfl, rfl⟩
  | _ => exact ⟨_, _, rfl, rfl⟩

theorem Spelled.ne_nil {blank : Char → Bool} {ts : List Token} {s : List Char}
    (h : Spelled blank ts s) (hvalid : ∀ token ∈ ts, token.Valid) (hts : ts ≠ []) : s ≠ [] := by
  cases h with
  | nil => exact absurd rfl hts
  | cons token _ _ =>
    obtain ⟨c, rest, htext, -⟩ := (hvalid token List.mem_cons_self).head
    simp [htext]

/-- The characters of tokens besides the digits. -/
def symbols : List Char :=
  ".eE+-*/^()xpisqrtab".toList

/-- What holds of the digits and of all other characters of tokens holds of a token. -/
theorem Token.Valid.all {token : Token} (h : token.Valid) {p : Char → Bool}
    (hdigit : ∀ c, c.isDigit = true → p c = true) (hsymbols : symbols.all p = true) :
    ∀ c ∈ token.text, p c = true := by
  have hsymbol {c : Char} (hc : symbols.contains c = true) : p c = true :=
    List.all_eq_true.mp hsymbols c (by simpa using hc)
  have hpart (hpart : (token.text.all fun c => symbols.contains c) = true) :
      ∀ c ∈ token.text, p c = true :=
    fun c hc => hsymbol (List.all_eq_true.mp hpart c hc)
  cases token with
  | number text =>
    obtain ⟨d, hd⟩ := h
    intro c hc
    obtain hc | rfl | rfl | rfl | rfl | rfl := hd.mem hc
    · exact hdigit c hc
    all_goals exact hsymbol (by decide)
  | function f => cases f <;> exact hpart (by decide)
  | operator op => cases op <;> exact hpart (by decide)
  | _ => exact hpart (by decide)

/-- The first character of a token decides whether it may follow without an operator. -/
theorem mayFollow_iff {ending : Ending} {token : Token} {more : List Token} {c : Char}
    {rest : List Char} (h : token.Valid) (htext : token.text = c :: rest) :
    mayFollow ending (some c) = true ↔ Follows ending (token :: more) := by
  cases token with
  | number text =>
    obtain ⟨d, hd⟩ := h
    obtain ⟨c', rest', htext', hc⟩ := hd.head
    obtain ⟨rfl, rfl⟩ := List.cons.inj (htext.symm.trans htext')
    have hx : c ≠ 'x' := by rintro rfl; simp at hc
    have hopening : c ≠ '(' := by rintro rfl; simp at hc
    cases ending <;> simp_all [mayFollow, Follows, Token.text]
  | function f =>
    have hc : c = 's' ∨ c = 'a' := by
      cases f with
      | sqrt => exact Or.inl (List.cons.inj (htext.symm.trans (by decide : _ = ['s', 'q', 'r', 't']))).1
      | abs => exact Or.inr (List.cons.inj (htext.symm.trans (by decide : _ = ['a', 'b', 's']))).1
    obtain rfl | rfl := hc <;> cases ending <;> simp [mayFollow, Follows]
  | operator op =>
    obtain ⟨rfl, -⟩ := List.cons.inj htext
    cases op <;> cases ending <;> simp [mayFollow, Follows, Operator.symbol]
  | _ =>
    obtain ⟨rfl, -⟩ := List.cons.inj htext
    cases ending <;> simp [mayFollow, Follows]

end AnswerCheck.Grammar
