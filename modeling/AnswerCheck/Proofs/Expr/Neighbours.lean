import AnswerCheck.Proofs.Expr.Derivation
import Mathlib.Data.List.Chain

/-! # Which tokens can stand side by side

In a derivation a function is followed by its parenthesis, and neither two numbers nor two stars
stand side by side. This is all that rewriting a text has to know of the grammar.
-/

set_option autoImplicit false

namespace AnswerCheck.Grammar

/-- The second token may stand after the first one. -/
def Joins : Token → Token → Prop
  | .function _, next => next = .opening
  | .number _, next => ∀ text, next ≠ .number text
  | .operator .mul, next => next ≠ .operator .mul
  | _, _ => True

/-- The token that a piece with this ending ends with. -/
def EndsWith : Ending → Token → Prop
  | .digit, token => ∃ text, token = .number text
  | .var, token => token = .var
  | .closing, token => token = .closing
  | .other, token => token = .pi

/-- The first and the last token of a derivation, and all neighbours in it. -/
structure Joined (ts : List Token) (ending : Ending) : Prop where
  chain : ts.IsChain Joins
  head : ∀ token ∈ ts.head?, token ≠ .operator .mul
  last : ∀ token ∈ ts.getLast?, EndsWith ending token

variable {ts us : List Token} {ending ending' : Ending}

/-- After the end of a derivation every token may stand, but no number after a number. -/
theorem EndsWith.joins {token next : Token} (h : EndsWith ending token)
    (hnext : ending = .digit → ∀ text, next ≠ .number text) : Joins token next := by
  cases ending with
  | digit =>
    obtain ⟨text, rfl⟩ := h
    exact hnext rfl
  | var =>
    obtain rfl := h
    trivial
  | closing =>
    obtain rfl := h
    trivial
  | other =>
    obtain rfl := h
    trivial

theorem EndsWith.not_function {f : Function} : ¬ EndsWith ending (.function f) := by
  intro h
  cases ending with
  | digit =>
    obtain ⟨text, h⟩ := h
    cases h
  | _ => cases h

theorem joined_singleton {token : Token} (hhead : token ≠ .operator .mul)
    (hlast : EndsWith ending token) : Joined [token] ending where
  chain := List.isChain_singleton token
  head := by simpa using hhead
  last := by simpa using hlast

/-- A token in front, after which every token may stand that can begin a derivation. -/
theorem Joined.cons (h : Joined ts ending) (hne : ts ≠ []) {token : Token}
    (htoken : token ≠ .operator .mul) (hjoins : ∀ next ∈ ts.head?, Joins token next) :
    Joined (token :: ts) ending where
  chain := h.chain.cons hjoins
  head := by simpa using htoken
  last := by
    intro last hlast
    rw [List.getLast?_cons_of_ne_nil hne] at hlast
    exact h.last last hlast

theorem Joined.append (hts : Joined ts ending) (hus : Joined us ending') (hne : ts ≠ [])
    (hne' : us ≠ []) (hnext : ending = .digit → ∀ text, some (.number text) ≠ us.head?) :
    Joined (ts ++ us) ending' where
  chain := by
    refine hts.chain.append hus.chain fun last hlast next hhead => ?_
    refine (hts.last last hlast).joins fun hdigit text heq => hnext hdigit text ?_
    rw [← heq]
    exact (Option.mem_def.mp hhead).symm
  head := by
    rw [List.head?_append_of_ne_nil _ hne]
    exact hts.head
  last := by
    rw [List.getLast?_append_of_ne_nil _ hne']
    exact hus.last

theorem Joined.between (hts : Joined ts ending) (hus : Joined us ending') (hne : ts ≠ [])
    (hne' : us ≠ []) {token : Token} (htoken : ∀ text, token ≠ .number text)
    (hjoins : ∀ next ∈ us.head?, Joins token next) : Joined (ts ++ token :: us) ending' where
  chain := by
    refine hts.chain.append (hus.chain.cons hjoins) fun last hlast next hhead => ?_
    obtain rfl : token = next := by simpa using hhead
    exact (hts.last last hlast).joins fun _ => htoken
  head := by
    rw [List.head?_append_of_ne_nil _ hne]
    exact hts.head
  last := by
    rw [List.getLast?_append_of_ne_nil _ (List.cons_ne_nil token us), List.getLast?_cons_of_ne_nil hne']
    exact hus.last

theorem joins_operator {op : Operator} {next : Token} (h : next ≠ .operator .mul) :
    Joins (.operator op) next := by
  cases op with
  | mul => exact h
  | _ => trivial

theorem Joined.closed (hts : Joined ts ending) (hne : ts ≠ []) :
    Joined (ts ++ [.closing]) .closing :=
  hts.append (joined_singleton (by simp) rfl) hne (by simp) (by simp)

theorem Follows.head (h : Follows .digit us) (text : List Char) : some (.number text) ≠ us.head? := by
  intro heq
  cases us with
  | nil => exact h
  | cons token us =>
    obtain rfl : Token.number text = token := by simpa using heq
    exact h

theorem Derives.joined {category : Category} {e : Expr} (h : Derives category ts e ending) :
    Joined ts ending := by
  induction h with
  | number h => exact joined_singleton (by simp) ⟨_, rfl⟩
  | var => exact joined_singleton (by simp) rfl
  | pi => exact joined_singleton (by simp) rfl
  | group h ih =>
    rw [List.cons_append]
    exact (ih.closed h.ne_nil).cons (by simp) (by simp) fun _ _ => trivial
  | call f h ih =>
    rw [List.cons_append, List.cons_append]
    have hopening : Token.opening ≠ .operator .mul := by simp
    have hargument := (ih.closed h.ne_nil).cons (by simp) hopening fun _ _ => trivial
    refine hargument.cons (by simp) (by simp) fun next hnext => ?_
    exact (Option.some.inj hnext).symm
  | base _ ih => exact ih
  | raised hbase hexponent ihbase ihexponent =>
    exact ihbase.between ihexponent hbase.ne_nil hexponent.ne_nil (by simp) fun _ _ => trivial
  | unsigned _ _ ih => exact ih
  | negated _ h ih => exact ih.cons h.ne_nil (by simp) fun _ _ => trivial
  | affirmed _ h ih => exact ih.cons h.ne_nil (by simp) fun _ _ => trivial
  | operand _ ih => exact ih
  | times _ hleft hright ihleft ihright =>
    exact ihleft.between ihright hleft.ne_nil hright.ne_nil (by simp)
      fun next hnext => joins_operator (ihright.head next hnext)
  | implicit hleft hfollows hright ihleft ihright =>
    refine ihleft.append ihright hleft.ne_nil hright.ne_nil ?_
    rintro rfl
    exact hfollows.head
  | term _ ih => exact ih
  | plus _ hleft hright ihleft ihright =>
    exact ihleft.between ihright hleft.ne_nil hright.ne_nil (by simp)
      fun next hnext => joins_operator (ihright.head next hnext)

end AnswerCheck.Grammar
