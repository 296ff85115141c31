import AnswerCheck.Proofs.Text.Replacing

/-! # What is found in a text

Matches are found piece by piece: a piece that no match starts in contributes nothing, and a match
that ends where a piece ends contributes what was read.
-/

set_option autoImplicit false

namespace AnswerCheck.Text

variable {β : Type} {r : Recognizer β} {s t : List Char}

theorem findFrom_eq_drop (r : Recognizer β) (skip : Nat) (s : List Char) :
    findFrom r skip s = findAll r (s.drop skip) := by
  induction s generalizing skip with
  | nil => cases skip <;> rfl
  | cons c s ih =>
    cases skip with
    | zero => rfl
    | succ skip => rw [findFrom, ih, List.drop_succ_cons]

theorem findAll_cons_none {c : Char} (h : r (c :: s) = none) : findAll r (c :: s) = findAll r s := by
  rw [findAll, findFrom, h]
  rfl

theorem findAll_append_some {used rest : List Char} {found : β} (hused : used ≠ [])
    (h : r (used ++ rest) = some (found, rest)) :
    findAll r (used ++ rest) = found :: findAll r rest := by
  cases used with
  | nil => exact absurd rfl hused
  | cons c used =>
    rw [List.cons_append] at h ⊢
    rw [findAll, findFrom, h]
    simp only [findFrom_eq_drop, List.length_append, Nat.add_sub_cancel, List.drop_left]

theorem findFirst?_of_some {found : β} {rest : List Char} (hs : s ≠ [])
    (h : r s = some (found, rest)) : findFirst? r s = some ([], found, rest) := by
  cases s with
  | nil => exact absurd rfl hs
  | cons c s => rw [findFirst?, h]

theorem of_any_eq_false {p : Char → Bool} (h : t.any p = false) : ∀ c ∈ t, p c = false :=
  fun c hc => Bool.eq_false_iff.mpr (List.any_eq_false.mp h c hc)

/-- Only characters of the class can start a match. -/
def StartsIn (p : Char → Bool) (r : Recognizer β) : Prop :=
  ∀ c s, p c = false → r (c :: s) = none

variable {p : Char → Bool}

theorem StartsIn.findAll_append (hr : StartsIn p r) (ht : ∀ c ∈ t, p c = false) (s : List Char) :
    findAll r (t ++ s) = findAll r s := by
  induction t with
  | nil => rfl
  | cons c t ih =>
    rw [List.cons_append, findAll_cons_none (hr c _ (ht c List.mem_cons_self)),
      ih fun d hd => ht d (List.mem_cons_of_mem c hd)]

theorem StartsIn.findFirst?_append (hr : StartsIn p r) (ht : ∀ c ∈ t, p c = false) (s : List Char) :
    findFirst? r (t ++ s) = (findFirst? r s).map fun m => (t ++ m.1, m.2) := by
  induction t with
  | nil => simp
  | cons c t ih =>
    rw [List.cons_append, findFirst?, hr c _ (ht c List.mem_cons_self),
      ih fun d hd => ht d (List.mem_cons_of_mem c hd), Option.map_map]
    rfl

end AnswerCheck.Text
