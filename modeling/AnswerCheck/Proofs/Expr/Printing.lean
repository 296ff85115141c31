import AnswerCheck.Proofs.Decimal.Shortest
import AnswerCheck.Proofs.Expr.Regrouping
import AnswerCheck.Proofs.Expr.Writing
import AnswerCheck.Proofs.Spelling.Meaning

/-! # Printed expressions read back

The parentheses of a printed expression are just those that the grammar needs: every operand is
derived by the category that stands in its place. Only chains come back grouped to the left.
-/

set_option autoImplicit false

namespace AnswerCheck.Expr

open Text Grammar

/-- All numbers are finite and carry no minus sign. -/
def HasPlainNumbers : Expr → Prop
  | number value => value.isFinite = true ∧ Decimal.isNegative value = false
  | var => True
  | pi => True
  | arith _ left right => left.HasPlainNumbers ∧ right.HasPlainNumbers
  | power base exponent => base.HasPlainNumbers ∧ exponent.HasPlainNumbers
  | neg operand => operand.HasPlainNumbers
  | call _ argument => argument.HasPlainNumbers

theorem HasPlainNumbers.not_isNegativeNumber {e : Expr} (h : e.HasPlainNumbers) :
    e.isNegativeNumber = false := by
  cases e with
  | number value =>
    obtain ⟨hfinite, hsign⟩ := h
    have hzero : Binary64.unpacked 0 = .zero .positive := rfl
    have hplace : (Binary64.unpacked value).isNaN = false ∧ 0 ≤ Binary64.place (Binary64.unpacked value) := by
      obtain ⟨hx, -⟩ | ⟨hm, hx⟩ := Binary64.fields_of_isFinite hfinite hsign
      · rw [hx]
        exact ⟨rfl, Int.le_refl 0⟩
      · have hbounds := (hx ▸ Binary64.canonical_unpacked value : Binary64.Canonical _).bounds
        rw [hx]
        refine ⟨rfl, ?_⟩
        simp only [Binary64.place, Float.Model.UnpackedFloat.Sign.apply]
        omega
    have hnot : ¬ value < 0 := by
      rw [Binary64.lt_iff hplace.1 (by rw [hzero]; rfl), hzero, Int.not_lt]
      exact hplace.2
    exact decide_eq_false hnot
  | _ => rfl

variable {s t : List Char} {a b e : Expr} {op : Operator}

/-! ## Printed operands -/

theorem one_le_binding (e : Expr) : 1 ≤ e.binding := by
  cases e with
  | arith op a b => cases op <;> exact Nat.le_of_ble_eq_true rfl
  | _ => exact Nat.le_of_ble_eq_true rfl

theorem three_le_binding (h : ∀ next a b, e ≠ arith next a b) : 3 ≤ e.binding := by
  cases e with
  | arith next a b => exact absurd rfl (h next a b)
  | _ => exact Nat.le_of_ble_eq_true rfl

theorem binding_lt_three (op : Operator) : op.binding < 3 := by
  cases op <;> decide

/-- An operand is printed for its place: in parentheses, unless it binds tightly enough. -/
theorem Writes.operand {operand : Expr} (h : Writes (tier operand.binding) operand.print e)
    (hplain : operand.isNegativeNumber = false) (parent : Nat) (strict : Bool) (hparent : parent ≤ 4) :
    Writes (tier (parent + strict.toNat))
      (wrapIf (operand.isWrapped parent strict) operand.print) e := by
  rw [wrapIf]
  split
  · have hstrict := strict.toNat_le
    exact (h.loosen (one_le_binding operand)).parenthesized.loosen (m := 5) (by omega)
  · next hwrapped =>
    refine h.loosen ?_
    simp only [isWrapped, hplain, Bool.false_and, Bool.or_false, Bool.or_eq_true, Bool.and_eq_true,
      decide_eq_true_eq, beq_iff_eq, not_or, not_and] at hwrapped
    cases strict with
    | false => exact Nat.not_lt.mp hwrapped.1
    | true =>
      have := hwrapped.2 rfl
      simp only [Bool.toNat_true]
      omega

/-- Between operators of different binding strictness makes no difference. -/
theorem isWrapped_of_ne {parent : Nat} (h : e.binding ≠ parent) (strict : Bool) :
    e.isWrapped parent strict = e.isWrapped parent true := by
  have hne : (e.binding == parent) = false := beq_eq_false_iff_ne.mpr h
  simp only [isWrapped, hne, Bool.and_false]

theorem graft_regrouped (h : op.isStrict = true ∨ e.binding ≠ op.binding) :
    graft op a e.regrouped = arith op a e.regrouped := by
  refine graft_eq_arith fun next c d heq => Bool.eq_false_iff.mpr fun hjoins => ?_
  obtain ⟨hstrict, hbinding⟩ := joins_iff.mp hjoins
  have hsame : e.binding = next.binding := by
    rw [← binding_regrouped, heq]
    rfl
  obtain h | h := h
  · rw [hstrict] at h
    cases h
  · exact h (hsame.trans hbinding.symm)

/-- What is to be shown of a printed expression, on its own and as the right operand of any
operator. -/
structure ReadsBack (e : Expr) : Prop where
  alone : Writes (tier e.binding) e.print e.regrouped
  appended (op : Operator) (s : List Char) (a : Expr) (hleft : Writes (tier op.binding) s a) :
    Writes (tier op.binding) (s ++ [' ', op.symbol, ' '] ++
      wrapIf (e.isWrapped op.binding op.isStrict) e.print) (graft op a e.regrouped)

/-- A right operand that is not attached stands where a category that binds more tightly is read. -/
theorem Writes.appended (h : Writes (tier e.binding) e.print e.regrouped)
    (hplain : e.isNegativeNumber = false) (hne : op.isStrict = true ∨ e.binding ≠ op.binding)
    (hleft : Writes (tier op.binding) s a) :
    Writes (tier op.binding) (s ++ [' ', op.symbol, ' '] ++
      wrapIf (e.isWrapped op.binding op.isStrict) e.print) (graft op a e.regrouped) := by
  have hwrapped : e.isWrapped op.binding op.isStrict = e.isWrapped op.binding true := by
    obtain hstrict | hne := hne
    · rw [hstrict]
    · exact isWrapped_of_ne hne _
  have hparent := binding_lt_three op
  rw [graft_regrouped hne, hwrapped]
  exact hleft.operator op (h.operand hplain op.binding true (by omega))

theorem Writes.readsBack (h : Writes (tier e.binding) e.print e.regrouped)
    (hplain : e.isNegativeNumber = false) (hchain : ∀ next a b, e ≠ arith next a b) : ReadsBack e where
  alone := h
  appended op s a hleft := by
    have hbinding := three_le_binding hchain
    have hparent := binding_lt_three op
    exact h.appended hplain (Or.inr (by omega)) hleft

/-- A chain in the place of a right operand is read operand by operand. -/
theorem ReadsBack.arith {next : Operator} {b c : Expr} (hb : ReadsBack b) (hc : ReadsBack c)
    (hplain : b.isNegativeNumber = false) : ReadsBack (.arith next b c) := by
  have hnext := binding_lt_three next
  have hleft := hb.alone.operand hplain next.binding false (by omega)
  have halone : Writes (tier next.binding) (Expr.arith next b c).print (graft next b.regrouped c.regrouped) :=
    hc.appended next _ _ hleft
  refine ⟨halone, fun op s a hs => ?_⟩
  by_cases hjoins : op.joins next = true
  · obtain ⟨hstrict, hbinding⟩ := joins_iff.mp hjoins
    have hwrapped : (Expr.arith next b c).isWrapped op.binding op.isStrict = false := by
      rw [hstrict]
      exact isWrapped_arith hbinding
    have hfirst := hb.appended op s a hs
    rw [hstrict, hbinding] at hfirst
    have hsecond := hc.appended next _ _ hfirst
    rw [hwrapped, regrouped, graft_graft hjoins, hbinding]
    simpa only [print, wrapIf, Bool.false_eq_true, if_false, List.append_assoc] using hsecond
  · refine halone.appended rfl ?_ hs
    rw [joins_iff, not_and] at hjoins
    cases hstrict : op.isStrict with
    | true => exact Or.inl rfl
    | false => exact Or.inr fun hbinding => hjoins hstrict hbinding.symm

theorem readsBack (hplain : e.HasPlainNumbers) : ReadsBack e := by
  induction e with
  | number value =>
    obtain ⟨d, hnumeral, hvalue⟩ := Decimal.numeral_inline hplain.1 hplain.2
    have hwrites := Writes.number hnumeral
    rw [hvalue] at hwrites
    exact Writes.readsBack hwrites hplain.not_isNegativeNumber (by simp)
  | var => exact Writes.readsBack Writes.var rfl (by simp)
  | pi => exact Writes.readsBack ⟨_, _, .only .pi, .pi⟩ rfl (by simp)
  | arith op b c ihb ihc =>
    exact (ihb hplain.1).arith (ihc hplain.2) hplain.1.not_isNegativeNumber
  | power b c ihb ihc =>
    obtain ⟨ts, _, hspelled, hbase⟩ :=
      (ihb hplain.1).alone.operand hplain.1.not_isNegativeNumber powerBinding true (by decide)
    obtain ⟨us, _, hspelled', hexponent⟩ :=
      (ihc hplain.2).alone.operand hplain.2.not_isNegativeNumber powerBinding false (by decide)
    exact Writes.readsBack ⟨_, _, hspelled.append (.token .caret hspelled'),
      .raised hbase (.unsigned rfl hexponent)⟩ rfl (by simp)
  | neg a ih =>
    have hplain : a.HasPlainNumbers := hplain
    obtain ⟨ts, _, hspelled, hoperand⟩ :=
      (ih hplain).alone.operand hplain.not_isNegativeNumber negBinding false (by decide)
    exact Writes.readsBack ⟨_, _, .token (.operator .sub) hspelled,
      .negated rfl hoperand⟩ rfl (by simp)
  | call f a ih =>
    have hargument := (ih hplain).alone.loosen (one_le_binding a)
    have hprint : (Expr.call f a).print = f.name.toList ++ '(' :: a.print ++ [')'] := by simp [print]
    refine Writes.readsBack ?_ rfl (by simp)
    rw [hprint]
    exact hargument.call f

/-- A printed expression within the limits of the grammar reads back, with its chains grouped to the
left. Regrouping ends at one expression, and it is printed the same. -/
theorem ofText_print (e : Expr) (hplain : e.HasPlainNumbers) (hlimits : brokenLimit? e.print = none)
    (hnesting : e.regrouped.nesting ≤ maxNesting) :
    Expr.ofText e.print = .ok e.regrouped ∧ e.regrouped.print = e.print ∧
      ∀ e', Relation.ReflTransGen Regroups e e' ∧ IsRegrouped e' ↔ e' = e.regrouped := by
  refine ⟨?_, print_regrouped e, fun _ => regrouping_iff⟩
  obtain ⟨ts, ending, hspelled, hderives⟩ := (readsBack hplain).alone.loosen (one_le_binding e)
  have hne : e.print ≠ [] := hspelled.ne_nil hderives.valid hderives.ne_nil
  have hmeans : Spelling.Means WithinLimits ([] ++ e.print ++ []) e.regrouped :=
    .mk (by simp) (by simp) (brokenLimit?_eq_none_iff.mp ⟨hne, hlimits⟩)
      ⟨ts, ending, hspelled, hderives⟩
  rw [List.nil_append, List.append_nil] at hmeans
  exact hmeans.ofText hnesting

theorem ofText_print_product :
    Expr.ofText (arith .mul (number 2) (arith .div var (number 0.1))).print =
      .ok (arith .div (arith .mul (number 2) var) (number 0.1)) := by
  have hplain : (arith .mul (number 2) (arith .div var (number 0.1))).HasPlainNumbers :=
    ⟨⟨rfl, by decide +kernel⟩, trivial, rfl, by decide +kernel⟩
  exact (ofText_print _ hplain (by decide +kernel) (by decide +kernel)).1

end AnswerCheck.Expr
