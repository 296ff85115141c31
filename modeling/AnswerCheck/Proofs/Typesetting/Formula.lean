import AnswerCheck.Proofs.Expr.Derivation
import AnswerCheck.Proofs.Typesetting.Rounds

/-! # Typeset formulas

    sum     := product | sum '+' product | sum '-' product
    product := factor | product '\cdot' factor | product '\times' factor | product '\div' factor
    factor  := number | 'x' | '(' sum ')' | '\frac' '{' sum '}' '{' sum '}' | '\sqrt' '{' sum '}'

with a blank on both sides of every operator. Spelling a typeset formula in ASCII is spelling the
formula that is written with operators and calls in its place.
-/

set_option autoImplicit false

namespace AnswerCheck.Spelling

open Text Grammar

/-! ## Formulas -/

/-- The commands for products and quotients. -/
inductive Dot where
  | cdot
  | times
  | div
deriving DecidableEq

namespace Dot

def name : Dot → String
  | cdot => "cdot"
  | times => "times"
  | div => "div"

def operator : Dot → Operator
  | cdot => .mul
  | times => .mul
  | div => .div

end Dot

inductive Sign where
  | plus
  | minus

def Sign.operator : Sign → Operator
  | plus => .add
  | minus => .sub

/-- Typeset formulas, by the categories of the grammar. -/
inductive Formula : Category → Type
  | number (text : List Char) (d : Decimal) (h : Decimal.Numeral text d) : Formula .factor
  | var : Formula .factor
  | group (inside : Formula .sum) : Formula .factor
  | fraction (numerator denominator : Formula .sum) : Formula .factor
  | root (radicand : Formula .sum) : Formula .factor
  | factor (first : Formula .factor) : Formula .product
  | times (left : Formula .product) (dot : Dot) (right : Formula .factor) : Formula .product
  | product (first : Formula .product) : Formula .sum
  | plus (left : Formula .sum) (sign : Sign) (right : Formula .product) : Formula .sum

/-- How operators, fractions and radicals are written. -/
structure Style where
  dot : Dot → List Char
  fraction : List Char → List Char → List Char
  root : List Char → List Char

namespace Formula

variable {category : Category}

/-- The text of a formula. -/
def write (style : Style) {category : Category} : Formula category → List Char
  | number text _ _ => text
  | var => ['x']
  | group inside => '(' :: inside.write style ++ [')']
  | fraction numerator denominator =>
    style.fraction (numerator.write style) (denominator.write style)
  | root radicand => style.root (radicand.write style)
  | factor first => first.write style
  | times left dot right => left.write style ++ ' ' :: (style.dot dot ++ ' ' :: right.write style)
  | product first => first.write style
  | plus left sign right => left.write style ++ [' ', sign.operator.symbol, ' '] ++ right.write style

/-- A formula as it is typeset. -/
def latex (f : Formula category) : List Char :=
  f.write ⟨fun dot => '\\' :: dot.name.toList, fractionCommand, radicalCommand⟩

/-- A formula with fractions and radicals written out. -/
def written (f : Formula category) : List Char :=
  f.write ⟨fun dot => '\\' :: dot.name.toList, quotient, rootCall⟩

/-- A formula with operators as well. -/
def ascii (f : Formula category) : List Char :=
  f.write ⟨fun dot => [dot.operator.symbol], quotient, rootCall⟩

end Formula

/-! ## Texts of a formula in two styles -/

/-- A relation between texts that holds for the texts of every formula in two styles. -/
structure Relates (R : List Char → List Char → Prop) (style style' : Style) : Prop where
  inert {s : List Char} (hs : IsInert s) (hdollar : '$' ∉ s) (hne : s ≠ []) : R s s
  append {s s' t t' : List Char} (h : R s t) (h' : R s' t') : R (s ++ s') (t ++ t')
  dot (dot : Dot) : R (style.dot dot) (style'.dot dot)
  fraction {s s' t t' : List Char} (h : R s t) (h' : R s' t') :
    R (style.fraction s s') (style'.fraction t t')
  root {s t : List Char} (h : R s t) : R (style.root s) (style'.root t)

theorem isInert_numeral {text : List Char} {d : Decimal} (h : Decimal.Numeral text d) :
    IsInert text ∧ '$' ∉ text := by
  have hnot {c : Char} (hdigit : c.isDigit = false) (hmark : c ∉ ['.', 'e', 'E', '+', '-']) : c ∉ text := by
    intro hc
    have := h.mem hc
    simp_all
  exact ⟨⟨hnot rfl (by decide), hnot rfl (by decide), hnot rfl (by decide)⟩, hnot rfl (by decide)⟩

theorem Relates.write {R : List Char → List Char → Prop} {style style' : Style}
    (h : Relates R style style') {category : Category} (f : Formula category) :
    R (f.write style) (f.write style') := by
  have hopening : R ['('] ['('] := h.inert (by decide) (by decide) (by simp)
  have hclosing : R [')'] [')'] := h.inert (by decide) (by decide) (by simp)
  have hblank : R [' '] [' '] := h.inert (by decide) (by decide) (by simp)
  induction f with
  | number text d hnumeral =>
    obtain ⟨c, rest, htext, -⟩ := hnumeral.head
    obtain ⟨hinert, hdollar⟩ := isInert_numeral hnumeral
    exact h.inert (s := text) hinert hdollar (by simp [htext])
  | var => exact h.inert (s := ['x']) (by decide) (by decide) (by simp)
  | group inside ih => exact h.append (h.append hopening ih) hclosing
  | fraction numerator denominator ih ih' => exact h.fraction ih ih'
  | root radicand ih => exact h.root ih
  | factor first ih => exact ih
  | times left dot right ih ih' =>
    exact h.append ih (h.append hblank (h.append (h.dot dot) (h.append hblank ih')))
  | product first ih => exact ih
  | plus left sign right ih ih' =>
    have hsign : R [' ', sign.operator.symbol, ' '] [' ', sign.operator.symbol, ' '] := by
      refine h.inert ?_ ?_ (by simp)
      · cases sign <;> decide
      · cases sign <;> decide
    exact h.append (h.append ih hsign) ih'

/-! ## Rules that pass over a text -/

theorem passesOperators_bracket : PassesOperators bracket? where
  needs := needs_bracket
  operator := forall_operator (fun _ => rfl) (fun _ => rfl) fun _ => rfl

theorem passesOperators_sized : PassesOperators sized? where
  needs := needs_sized
  operator := forall_operator (fun _ => rfl) (fun _ => rfl) fun _ => rfl

theorem passesOperators_hidden : PassesOperators hidden? where
  needs := needs_hidden
  operator := forall_operator (fun _ => rfl) (fun _ => rfl) fun _ => rfl

/-- No command is a delimiter. -/
theorem Draft.stripDelimiters_eq {n : Nat} {s t : List Char} (h : Draft n s t) (hdollar : '$' ∉ s) :
    stripDelimiters s = s := by
  have hbracket : RewritesTo bracket? s s := by
    clear hdollar
    induction h with
    | inert hs => exact needs_bracket.rewritesTo hs.1
    | operator hmem => exact passesOperators_bracket.rewritesTo (.operator hmem)
    | append _ _ ih ih' => exact ih.append ih'
    | fraction _ _ _ _ ih ih' => exact needs_bracket.fractionCommand ih ih' fun _ => rfl
    | radical _ _ ih => exact needs_bracket.radicalCommand ih fun _ => rfl
  refine settle_eq_self ?_ _
  rw [stripRound, needs_displayed.replaceAll_eq hdollar, needs_inlined.replaceAll_eq hdollar,
    hbracket.replaceAll_eq]

/-! ## From style to style -/

theorem dot_mem_operatorTable (dot : Dot) : (dot.name, String.singleton dot.operator.symbol) ∈ operatorTable := by
  cases dot <;> decide

namespace Formula

variable {category : Category} (f : Formula category)

/-- Writing out the fractions and radicals of a typeset formula leads to its written form. -/
theorem draft : ∃ n, Draft n f.latex f.written := by
  have hrelates : Relates (fun s t => t ≠ [] ∧ ∃ n, Draft n s t)
      ⟨fun dot => '\\' :: dot.name.toList, fractionCommand, radicalCommand⟩
      ⟨fun dot => '\\' :: dot.name.toList, quotient, rootCall⟩ :=
    { inert := fun hs _ hne => ⟨hne, 0, .inert hs⟩
      append := fun ⟨ht, _, h⟩ ⟨_, _, h'⟩ => ⟨by simp [ht], _, h.append h'⟩
      dot := fun dot => ⟨by simp, 0, .operator (dot_mem_operatorTable dot)⟩
      fraction := fun ⟨ht, _, h⟩ ⟨ht', _, h'⟩ => ⟨by simp [quotient], _, h.fraction h' ht ht'⟩
      root := fun ⟨ht, _, h⟩ => ⟨by simp [rootCall], _, h.radical ht⟩ }
  exact (hrelates.write f).2

theorem operators_rewritesTo : RewritesTo operator? f.written f.ascii := by
  have hneeds : Needs '\\' operator? := needs_command _ _
  have hinert {s : List Char} (hs : IsInert s) : RewritesTo operator? s s := hneeds.rewritesTo hs.1
  have hopening : RewritesTo operator? ['('] ['('] := hinert (by decide)
  have hslash : RewritesTo operator? [')', '/', '('] [')', '/', '('] := hinert (by decide)
  have hclosing : RewritesTo operator? [')'] [')'] := hinert (by decide)
  have hname : RewritesTo operator? "sqrt(".toList "sqrt(".toList := hinert (by decide)
  have hrelates : Relates (RewritesTo operator?)
      ⟨fun dot => '\\' :: dot.name.toList, quotient, rootCall⟩
      ⟨fun dot => [dot.operator.symbol], quotient, rootCall⟩ :=
    { inert := fun hs _ _ => hinert hs
      append := fun h h' => h.append h'
      dot := fun dot => .of_some (by simp) fun rest => by cases dot <;> rfl
      fraction := fun h h' => (((hopening.append h).append hslash).append h').append hclosing
      root := fun h => (hname.append h).append hclosing }
  exact hrelates.write f

theorem not_mem_latex : '$' ∉ f.latex := by
  have hrelates : Relates (fun s _ => '$' ∉ s)
      ⟨fun dot => '\\' :: dot.name.toList, fractionCommand, radicalCommand⟩
      ⟨fun dot => '\\' :: dot.name.toList, fractionCommand, radicalCommand⟩ :=
    { inert := fun _ hdollar _ => hdollar
      append := fun h h' => by simp [h, h']
      dot := fun dot => by cases dot <;> decide
      fraction := fun h h' => by simp [fractionCommand, h, h']
      root := fun h => by simp [radicalCommand, h] }
  exact hrelates.write f

theorem not_mem_ascii : '\\' ∉ f.ascii ∧ '$' ∉ f.ascii := by
  have hrelates : Relates (fun _ t => '\\' ∉ t ∧ '$' ∉ t)
      ⟨fun dot => [dot.operator.symbol], quotient, rootCall⟩
      ⟨fun dot => [dot.operator.symbol], quotient, rootCall⟩ :=
    { inert := fun hs hdollar _ => ⟨hs.1, hdollar⟩
      append := fun h h' => by simp [h, h']
      dot := fun dot => by cases dot <;> decide
      fraction := fun h h' => by simp [quotient, h, h']
      root := fun h => by simp [rootCall, h] }
  exact hrelates.write f

end Formula

/-! ## Passes -/

theorem Formula.spellCommands_latex {category : Category} (f : Formula category) :
    spellCommands f.latex = f.ascii := by
  obtain ⟨n, hdraft⟩ := f.draft
  have hsized := passesOperators_sized.rewritesTo hdraft.written
  have hhidden := passesOperators_hidden.rewritesTo hdraft.written
  rw [spellCommands, hdraft.spellArguments_eq, hsized.replaceAll_eq, hhidden.replaceAll_eq,
    f.operators_rewritesTo.replaceAll_eq, symbol?, (needs_command _ _).replaceAll_eq f.not_mem_ascii.1]

theorem Formula.pass_latex {category : Category} (f : Formula category) : pass f.latex = pass f.ascii := by
  obtain ⟨n, hdraft⟩ := f.draft
  obtain ⟨hbackslash, hdollar⟩ := f.not_mem_ascii
  rw [pass, pass, hdraft.stripDelimiters_eq f.not_mem_latex, f.spellCommands_latex,
    stripDelimiters_eq_self hdollar hbackslash, spellCommands_eq_self hbackslash]

/-- A typeset formula is spelled like the formula with operators, quotients and calls. -/
theorem Formula.asciiText_latex {category : Category} (f : Formula category) :
    asciiText f.latex = asciiText f.ascii := by
  have hpasses : maxPasses = maxPasses - 1 + 1 := rfl
  rw [asciiText_eq_iterate, asciiText_eq_iterate, hpasses, Function.iterate_succ_apply,
    Function.iterate_succ_apply, f.pass_latex]

end AnswerCheck.Spelling
