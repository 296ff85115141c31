import Mathlib.Data.List.Basic

/-! # Texts cut at separators

A text without a separator is one piece; else its first piece ends at the first separator.
-/

set_option autoImplicit false

namespace AnswerCheck.Text

variable {sep : Char} {s left right : List Char}

theorem splitOn_cases (sep : Char) (s : List Char) :
    sep ∉ s ∧ s.splitOn sep = [s] ∨
      ∃ left right, s = left ++ sep :: right ∧ sep ∉ left ∧
        s.splitOn sep = left :: right.splitOn sep := by
  by_cases h : sep ∈ s
  · obtain ⟨left, right, rfl, hleft⟩ := List.eq_append_cons_of_mem h
    exact Or.inr ⟨left, right, rfl, hleft, List.splitOn_append_cons_self_of_not_mem hleft right⟩
  · exact Or.inl ⟨h, List.splitOn_eq_singleton h⟩

/-- A text has two pieces exactly if it has one separator, which stands between them. -/
theorem splitOn_eq_pair :
    s.splitOn sep = [left, right] ↔ s = left ++ sep :: right ∧ sep ∉ left ∧ sep ∉ right := by
  constructor
  · intro h
    obtain ⟨-, hone⟩ | ⟨first, rest, rfl, hfirst, hmany⟩ := splitOn_cases sep s
    · simp [hone] at h
    · obtain ⟨rfl, hrest⟩ := List.cons.inj (hmany.symm.trans h)
      obtain ⟨hnot, hone⟩ | ⟨second, more, -, -, hmany'⟩ := splitOn_cases sep rest
      · obtain ⟨rfl, -⟩ := List.cons.inj (hone.symm.trans hrest)
        exact ⟨rfl, hfirst, hnot⟩
      · obtain ⟨-, hnil⟩ := List.cons.inj (hmany'.symm.trans hrest)
        exact absurd hnil (List.splitOn_ne_nil sep more)
  · rintro ⟨rfl, hleft, hright⟩
    rw [List.splitOn_append_cons_self_of_not_mem hleft, List.splitOn_eq_singleton hright]

end AnswerCheck.Text
