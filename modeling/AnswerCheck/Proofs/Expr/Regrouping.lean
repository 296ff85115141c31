import AnswerCheck.Expr.Printer
import Mathlib.Logic.Relation

/-! # Regrouping chains to the left

A sum or product whose right operand is a chain of its own kind is printed without parentheses, so
the text does not show how it was grouped. Regrouping attaches such chains to the left, step by step
until no step applies; where that ends does not depend on the order of the steps.
-/

set_option autoImplicit false

namespace AnswerCheck

/-- Whether a chain that starts with the second operator may be attached to the left operand of the
first without parentheses. -/
def Operator.joins (op next : Operator) : Bool :=
  !op.isStrict && op.binding == next.binding

namespace Expr

/-- One step of regrouping, anywhere in the expression. -/
inductive Regroups : Expr → Expr → Prop
  | attach {op next : Operator} {a b c : Expr} (h : op.joins next = true) :
      Regroups (arith op a (arith next b c)) (arith next (arith op a b) c)
  | left {op : Operator} {a a' b : Expr} (h : Regroups a a') : Regroups (arith op a b) (arith op a' b)
  | right {op : Operator} {a b b' : Expr} (h : Regroups b b') : Regroups (arith op a b) (arith op a b')
  | base {a a' b : Expr} (h : Regroups a a') : Regroups (power a b) (power a' b)
  | exponent {a b b' : Expr} (h : Regroups b b') : Regroups (power a b) (power a b')
  | operand {a a' : Expr} (h : Regroups a a') : Regroups (neg a) (neg a')
  | argument {f : Function} {a a' : Expr} (h : Regroups a a') : Regroups (call f a) (call f a')

/-- No step of regrouping applies. -/
def IsRegrouped (e : Expr) : Prop :=
  ∀ e', ¬ Regroups e e'

/-- The operator applied to two regrouped operands, with the right one attached to the left if it is
a chain of the same kind. -/
def graft (op : Operator) (left : Expr) : Expr → Expr
  | arith next b c =>
    if op.joins next then arith next (graft op left b) c else arith op left (arith next b c)
  | right => arith op left right

/-- The expression with all chains attached to the left. -/
def regrouped : Expr → Expr
  | number value => number value
  | var => var
  | pi => pi
  | arith op left right => graft op left.regrouped right.regrouped
  | power base exponent => power base.regrouped exponent.regrouped
  | neg operand => neg operand.regrouped
  | call function argument => call function argument.regrouped

variable {op next : Operator} {a b c e e' : Expr}

/-! ## Grafting -/

theorem graft_joins (h : op.joins next = true) :
    graft op a (arith next b c) = arith next (graft op a b) c := by
  rw [graft, if_pos h]

/-- A right operand that is no chain of the same kind stays where it is. -/
theorem graft_eq_arith (h : ∀ next c d, b = arith next c d → op.joins next = false) :
    graft op a b = arith op a b := by
  cases b with
  | arith next c d =>
    have hjoins : ¬ op.joins next = true := by simp [h next c d rfl]
    rw [graft, if_neg hjoins]
  | _ => rfl

theorem joins_trans {last : Operator} (h : op.joins next = true) (h' : next.joins last = true) :
    op.joins last = true := by
  revert h h'
  cases op <;> cases next <;> cases last <;> decide

/-- Operands can be grafted in any order. -/
theorem graft_graft (h : op.joins next = true) :
    graft op a (graft next b c) = graft next (graft op a b) c := by
  induction c with
  | arith last c d ihc =>
    by_cases hlast : next.joins last = true
    · rw [graft_joins hlast, graft_joins hlast, graft_joins (joins_trans h hlast), ihc]
    · have hkept (x : Expr) : graft next x (arith last c d) = arith next x (arith last c d) := by
        rw [graft, if_neg hlast]
      rw [hkept, hkept, graft_joins h]
  | _ => exact graft_joins h

/-- Attaching a right operand is a run of steps. -/
theorem graft_reachable (op : Operator) (a b : Expr) :
    Relation.ReflTransGen Regroups (arith op a b) (graft op a b) := by
  induction b with
  | arith next b c ihb =>
    by_cases h : op.joins next = true
    · rw [graft_joins h]
      exact .head (.attach h) (ihb.lift (arith next · c) fun _ _ => .left)
    · rw [graft, if_neg h]
  | _ => exact .refl

theorem graft_isRegrouped (ha : IsRegrouped a) (hb : IsRegrouped b) : IsRegrouped (graft op a b) := by
  have hkept {b : Expr} (hb : IsRegrouped b)
      (hjoins : ∀ next c d, b = arith next c d → op.joins next = false) :
      IsRegrouped (arith op a b) := by
    intro e' he'
    cases he' with
    | attach h => simp [hjoins _ _ _ rfl] at h
    | left h => exact ha _ h
    | right h => exact hb _ h
  induction b with
  | arith next b c ihb =>
    by_cases h : op.joins next = true
    · rw [graft_joins h]
      intro e' he'
      cases he' with
      | attach h' => exact hb _ (.attach h')
      | left h' => exact ihb (fun _ hstep => hb _ (.left hstep)) _ h'
      | right h' => exact hb _ (.right h')
    · rw [graft, if_neg h]
      refine hkept hb fun next' c d heq => ?_
      cases heq
      simpa using h
  | _ => exact hkept hb fun _ _ _ heq => by cases heq

/-! ## All steps -/

theorem regrouped_reachable (e : Expr) : Relation.ReflTransGen Regroups e e.regrouped := by
  induction e with
  | number value => exact .refl
  | var => exact .refl
  | pi => exact .refl
  | arith op a b iha ihb =>
    have hleft : Relation.ReflTransGen Regroups (arith op a b) (arith op a.regrouped b) :=
      iha.lift (arith op · b) fun _ _ => .left
    have hright : Relation.ReflTransGen Regroups (arith op a.regrouped b)
        (arith op a.regrouped b.regrouped) := ihb.lift (arith op a.regrouped ·) fun _ _ => .right
    exact (hleft.trans hright).trans (graft_reachable op a.regrouped b.regrouped)
  | power a b iha ihb =>
    have hbase : Relation.ReflTransGen Regroups (power a b) (power a.regrouped b) :=
      iha.lift (power · b) fun _ _ => .base
    exact hbase.trans (ihb.lift (power a.regrouped ·) fun _ _ => .exponent)
  | neg a ih => exact ih.lift neg fun _ _ => .operand
  | call f a ih => exact ih.lift (call f) fun _ _ => .argument

theorem regrouped_isRegrouped (e : Expr) : IsRegrouped e.regrouped := by
  induction e with
  | arith op a b iha ihb => exact graft_isRegrouped iha ihb
  | power a b iha ihb =>
    intro e' he'
    cases he' with
    | base h => exact iha _ h
    | exponent h => exact ihb _ h
  | neg a ih =>
    intro e' he'
    cases he' with
    | operand h => exact ih _ h
  | call f a ih =>
    intro e' he'
    cases he' with
    | argument h => exact ih _ h
  | _ =>
    intro e' he'
    cases he'

/-- A step does not change where regrouping ends. -/
theorem Regroups.regrouped_eq (h : Regroups e e') : e.regrouped = e'.regrouped := by
  induction h with
  | attach h => exact graft_graft h
  | _ => simp_all only [regrouped]

theorem IsRegrouped.regrouped_eq (h : IsRegrouped e) : e.regrouped = e := by
  induction e with
  | arith op a b iha ihb =>
    rw [regrouped, iha fun _ hstep => h _ (.left hstep), ihb fun _ hstep => h _ (.right hstep)]
    refine graft_eq_arith fun next c d heq => ?_
    subst heq
    exact Bool.eq_false_iff.mpr fun hjoins => h _ (.attach hjoins)
  | power a b iha ihb =>
    rw [regrouped, iha fun _ hstep => h _ (.base hstep), ihb fun _ hstep => h _ (.exponent hstep)]
  | neg a ih => rw [regrouped, ih fun _ hstep => h _ (.operand hstep)]
  | call f a ih => rw [regrouped, ih fun _ hstep => h _ (.argument hstep)]
  | _ => rfl

/-- Regrouping until no step applies ends at one expression, whatever the order of the steps. -/
theorem regrouping_iff :
    Relation.ReflTransGen Regroups e e' ∧ IsRegrouped e' ↔ e' = e.regrouped := by
  constructor
  · rintro ⟨hrun, hend⟩
    have hsame : e.regrouped = e'.regrouped := by
      clear hend
      induction hrun with
      | refl => rfl
      | tail _ hstep ih => exact ih.trans hstep.regrouped_eq
    rw [hsame, hend.regrouped_eq]
  · rintro rfl
    exact ⟨regrouped_reachable e, regrouped_isRegrouped e⟩

/-! ## Printing -/

theorem joins_iff : op.joins next = true ↔ op.isStrict = false ∧ op.binding = next.binding := by
  simp [Operator.joins]

theorem graft_shape (op : Operator) (a b : Expr) :
    ∃ next c d, graft op a b = arith next c d ∧ next.binding = op.binding := by
  cases b with
  | arith next b c =>
    rw [graft]
    split
    · next h => exact ⟨next, _, _, rfl, (joins_iff.mp h).2.symm⟩
    · exact ⟨op, _, _, rfl, rfl⟩
  | _ => exact ⟨op, _, _, rfl, rfl⟩

theorem binding_graft (op : Operator) (a b : Expr) : (graft op a b).binding = op.binding := by
  obtain ⟨next, c, d, hgraft, hbinding⟩ := graft_shape op a b
  rw [hgraft]
  exact hbinding

theorem binding_regrouped (e : Expr) : e.regrouped.binding = e.binding := by
  cases e with
  | arith op a b => exact binding_graft op a.regrouped b.regrouped
  | _ => rfl

theorem isNegativeNumber_regrouped (e : Expr) : e.regrouped.isNegativeNumber = e.isNegativeNumber := by
  cases e with
  | arith op a b =>
    obtain ⟨next, c, d, hgraft, -⟩ := graft_shape op a.regrouped b.regrouped
    rw [regrouped, hgraft]
    rfl
  | _ => rfl

theorem isWrapped_regrouped (e : Expr) (parent : Nat) (strict : Bool) :
    e.regrouped.isWrapped parent strict = e.isWrapped parent strict := by
  rw [isWrapped, isWrapped, binding_regrouped, isNegativeNumber_regrouped]

/-- A chain is not wrapped as an operand of a chain of its kind. -/
theorem isWrapped_arith (h : op.binding = next.binding) :
    (arith next b c).isWrapped op.binding false = false := by
  simp [isWrapped, binding, isNegativeNumber, h]

/-- The text of a chain does not show how it is grouped. -/
theorem print_graft (op : Operator) (a b : Expr) : (graft op a b).print = (arith op a b).print := by
  induction b with
  | arith next b c ihb =>
    by_cases h : op.joins next = true
    · obtain ⟨hstrict, hbinding⟩ := joins_iff.mp h
      obtain ⟨last, d, e, hgraft, hlast⟩ := graft_shape op a b
      have hleft : (graft op a b).isWrapped next.binding false = false := by
        rw [hgraft]
        exact isWrapped_arith (by rw [hlast, hbinding])
      have hright : (arith next b c).isWrapped next.binding false = false := isWrapped_arith rfl
      rw [graft_joins h]
      simp only [print, hleft, hright, ihb, wrapIf, hstrict, hbinding, Bool.false_eq_true, if_false,
        List.append_assoc]
    · rw [graft, if_neg h]
  | _ => rfl

/-- Regrouping does not change the text. -/
theorem print_regrouped (e : Expr) : e.regrouped.print = e.print := by
  induction e with
  | arith op a b iha ihb =>
    rw [regrouped, print_graft]
    simp only [print, isWrapped_regrouped, iha, ihb]
  | power a b iha ihb => simp only [regrouped, print, isWrapped_regrouped, iha, ihb]
  | neg a ih => simp only [regrouped, print, isWrapped_regrouped, ih]
  | call f a ih => simp only [regrouped, print, ih]
  | _ => rfl

end Expr

end AnswerCheck
