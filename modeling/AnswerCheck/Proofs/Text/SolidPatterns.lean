import AnswerCheck.Proofs.Text.Patterns

/-! # Patterns that blanks around a text cannot fit

A pattern is solid if no piece that it describes is empty, starts with a blank or ends with one. This
can be read off the pattern, because it only asks for the classes of characters that are tried first
and last. A solid pattern occurs in a text exactly if it occurs in the text with blanks around it:
its pieces lie between the blanks, and a blank is as good a neighbour for a word edge as no character.
-/

set_option autoImplicit false

namespace AnswerCheck.Text

/-! ## The blanks -/

def blankChars : List Char :=
  (List.range' 9 5 ++ List.range' 0x2000 11 ++
    [0x20, 0x85, 0xA0, 0x1680, 0x2028, 0x2029, 0x202F, 0x205F, 0x3000]).map Char.ofNat

theorem mem_blankChars {c : Char} (h : isBlank c = true) : c ∈ blankChars := by
  refine List.mem_map.mpr ⟨c.toNat, ?_, Char.ofNat_toNat c⟩
  simp only [isBlank, Bool.or_eq_true, Bool.and_eq_true, decide_eq_true_eq, beq_iff_eq] at h
  simp only [List.mem_append, List.mem_range'_1, List.mem_cons, List.not_mem_nil, or_false]
  omega

theorem of_isBlank {p : Char → Bool} (hp : blankChars.all p = true) {c : Char} (hc : isBlank c = true) :
    p c = true :=
  List.all_eq_true.mp hp c (mem_blankChars hc)

theorem isWord_of_isBlank {c : Char} (hc : isBlank c = true) : isWord c = false := by
  have hwords : blankChars.all (!isWord ·) = true := by decide +kernel
  simpa using of_isBlank hwords hc

/-! ## Pieces between blanks -/

variable {left right s front piece back : List Char}

/-- A piece that neither starts nor ends with a blank lies between the blanks around a text. -/
theorem piece_between_blanks (hleft : ∀ c ∈ left, isBlank c = true) (hright : ∀ c ∈ right, isBlank c = true)
    (hne : piece ≠ []) (hstart : Stops isBlank piece) (hend : Stops isBlank piece.reverse)
    (h : left ++ s ++ right = front ++ piece ++ back) :
    ∃ front' back', front = left ++ front' ∧ back = back' ++ right ∧ s = front' ++ piece ++ back' := by
  have hfront : ∃ front', front = left ++ front' ∧ s ++ right = front' ++ piece ++ back := by
    rw [List.append_assoc, List.append_assoc] at h
    obtain ⟨front', rfl, hrest⟩ | ⟨more, hmore, hrest⟩ := List.append_eq_append_iff.mp h
    · exact ⟨front', rfl, by rw [hrest, List.append_assoc]⟩
    · cases more with
      | nil => exact ⟨[], by simpa using hmore.symm, by simpa using hrest.symm⟩
      | cons c more =>
        -- The piece would start with one of the blanks in front of the text.
        have hblank : isBlank c = true := hleft c (by simp [hmore])
        obtain ⟨d, piece, rfl⟩ := List.exists_cons_of_ne_nil hne
        obtain ⟨rfl, -⟩ := List.cons.inj hrest
        rw [stops_cons.mp hstart] at hblank
        cases hblank
  obtain ⟨front', rfl, hrest⟩ := hfront
  obtain ⟨more, hmore, rfl⟩ | ⟨back', hs, rfl⟩ := List.append_eq_append_iff.mp hrest
  · obtain rfl | ⟨more, c, rfl⟩ := List.eq_nil_or_concat' more
    · exact ⟨front', [], rfl, rfl, by simpa using hmore.symm⟩
    · -- The piece would end with one of the blanks after the text.
      have hblank : isBlank c = true := hright c (by simp)
      obtain ⟨piece, d, rfl⟩ := (List.eq_nil_or_concat' piece).resolve_left hne
      rw [← List.append_assoc, ← List.append_assoc] at hmore
      obtain ⟨-, hd⟩ := List.append_inj' hmore rfl
      obtain rfl := List.singleton_inj.mp hd
      rw [List.reverse_append, List.reverse_singleton, List.singleton_append, stops_cons] at hend
      rw [hend] at hblank
      cases hblank
  · exact ⟨front', back', rfl, rfl, hs⟩

/-! ## What a pattern describes -/

namespace Pattern

variable {p : Pattern} {goal : Goal} {before before' : Option Char} {t rest rest' : List Char}

/-- Whether the piece fits the pattern where it stands, after the character `before` and in front of the
text `rest`. -/
def Describes : Pattern → Option Char → List Char → List Char → Prop
  | one accepts, _, piece, _ => ∃ c, piece = [c] ∧ accepts c = true
  | many accepts, _, piece, _ => ∀ c ∈ piece, accepts c = true
  | edge, before, piece, rest => piece = [] ∧ (isWordAt before != isWordAt rest.head?) = true
  | atEnd, _, piece, rest => piece = [] ∧ rest = []
  | nothing, _, piece, _ => piece = []
  | seq first second, before, piece, rest => ∃ u v, piece = u ++ v ∧
      first.Describes before u (v ++ rest) ∧ second.Describes (u.getLast?.or before) v rest
  | either left right, before, piece, rest =>
      left.Describes before piece rest ∨ right.Describes before piece rest

theorem fits_iff : p.fits goal before t = true ↔ ∃ piece rest, t = piece ++ rest ∧
    p.Describes before piece rest ∧ goal (piece.getLast?.or before) rest = true := by
  induction p generalizing goal before t with
  | one accepts =>
    cases t with
    | nil => simp [fits, Describes]
    | cons c t =>
      simp only [fits, Describes, Bool.and_eq_true]
      constructor
      · rintro ⟨hc, h⟩
        exact ⟨[c], t, rfl, ⟨c, rfl, hc⟩, h⟩
      · rintro ⟨_, rest, heq, ⟨d, rfl, hd⟩, h⟩
        obtain ⟨rfl, rfl⟩ := List.cons.inj heq
        exact ⟨hd, h⟩
  | many accepts => exact reaches_iff
  | edge =>
    simp only [fits, Describes, Bool.and_eq_true]
    constructor
    · rintro ⟨hedge, h⟩
      exact ⟨[], t, rfl, ⟨rfl, hedge⟩, h⟩
    · rintro ⟨_, rest, rfl, ⟨rfl, hedge⟩, h⟩
      exact ⟨hedge, h⟩
  | atEnd =>
    simp only [fits, Describes, Bool.and_eq_true, List.isEmpty_iff]
    constructor
    · rintro ⟨rfl, h⟩
      exact ⟨[], [], rfl, ⟨rfl, rfl⟩, h⟩
    · rintro ⟨_, _, rfl, ⟨rfl, rfl⟩, h⟩
      exact ⟨rfl, h⟩
  | nothing =>
    constructor
    · intro h
      exact ⟨[], t, rfl, rfl, h⟩
    · rintro ⟨_, rest, rfl, rfl, h⟩
      exact h
  | seq first second ihfirst ihsecond =>
    simp only [fits, ihfirst, ihsecond, Describes]
    constructor
    · rintro ⟨u, _, rfl, hu, v, rest, rfl, hv, h⟩
      refine ⟨u ++ v, rest, (List.append_assoc u v rest).symm, ⟨u, v, rfl, hu, hv⟩, ?_⟩
      rwa [List.getLast?_append, Option.or_assoc]
    · rintro ⟨_, rest, rfl, ⟨u, v, rfl, hu, hv⟩, h⟩
      rw [List.getLast?_append, Option.or_assoc] at h
      exact ⟨u, v ++ rest, List.append_assoc u v rest, hu, v, rest, rfl, hv, h⟩
  | either left right ihleft ihright =>
    simp only [fits, Bool.or_eq_true, ihleft, ihright, Describes]
    constructor
    · rintro (⟨piece, rest, rfl, hpiece, h⟩ | ⟨piece, rest, rfl, hpiece, h⟩)
      · exact ⟨piece, rest, rfl, Or.inl hpiece, h⟩
      · exact ⟨piece, rest, rfl, Or.inr hpiece, h⟩
    · rintro ⟨piece, rest, rfl, hpiece | hpiece, h⟩
      · exact Or.inl ⟨piece, rest, rfl, hpiece, h⟩
      · exact Or.inr ⟨piece, rest, rfl, hpiece, h⟩

/-- A pattern occurs where it describes a piece of the text. -/
theorem occursIn_iff : p.occursIn t = true ↔ ∃ front piece back, t = front ++ piece ++ back ∧
    p.Describes front.getLast? piece back := by
  simp only [occursIn, occursFrom_iff, fits_iff, Option.or_none, and_true]
  constructor
  · rintro ⟨front, _, rfl, piece, back, rfl, h⟩
    exact ⟨front, piece, back, (List.append_assoc front piece back).symm, h⟩
  · rintro ⟨front, piece, back, rfl, h⟩
    exact ⟨front, piece ++ back, List.append_assoc front piece back, piece, back, rfl, h⟩

/-! ## What can be read off a pattern -/

/-- Whether the pattern may describe the empty piece. -/
def canBeEmpty : Pattern → Bool
  | one _ => false
  | many _ | edge | atEnd | nothing => true
  | seq first second => first.canBeEmpty && second.canBeEmpty
  | either left right => left.canBeEmpty || right.canBeEmpty

/-- Whether a piece that the pattern describes may start with a blank. -/
def canStartBlank : Pattern → Bool
  | one accepts | many accepts => blankChars.any accepts
  | edge | atEnd | nothing => false
  | seq first second => first.canStartBlank || first.canBeEmpty && second.canStartBlank
  | either left right => left.canStartBlank || right.canStartBlank

/-- Whether a piece that the pattern describes may end with a blank. -/
def canEndBlank : Pattern → Bool
  | one accepts | many accepts => blankChars.any accepts
  | edge | atEnd | nothing => false
  | seq first second => second.canEndBlank || second.canBeEmpty && first.canEndBlank
  | either left right => left.canEndBlank || right.canEndBlank

/-- Whether the pattern asks for the end of the text. -/
def asksForEnd : Pattern → Bool
  | atEnd => true
  | one _ | many _ | edge | nothing => false
  | seq p q | either p q => p.asksForEnd || q.asksForEnd

/-- Whether the pattern describes only pieces with something other than a blank at both ends, whatever
text they stand in. -/
def isSolid (p : Pattern) : Bool :=
  !p.canBeEmpty && !p.canStartBlank && !p.canEndBlank && !p.asksForEnd

theorem stops_class {accepts : Char → Bool} (h : blankChars.any accepts = false)
    (hpiece : ∀ c ∈ piece, accepts c = true) : Stops isBlank piece := by
  intro c hc
  rw [Bool.eq_false_iff]
  intro hblank
  exact List.any_eq_false.mp h c (mem_blankChars hblank) (hpiece c (List.mem_of_mem_head? hc))

theorem Describes.ne_nil (hp : p.canBeEmpty = false) (h : p.Describes before piece rest) : piece ≠ [] := by
  induction p generalizing before piece rest with
  | one accepts =>
    obtain ⟨c, rfl, -⟩ := h
    exact List.cons_ne_nil c []
  | many | edge | atEnd | nothing => cases hp
  | seq first second ihfirst ihsecond =>
    obtain ⟨u, v, rfl, hu, hv⟩ := h
    intro hnil
    obtain ⟨rfl, rfl⟩ := List.append_eq_nil_iff.mp hnil
    obtain hfirst | hsecond := Bool.and_eq_false_iff.mp hp
    · exact ihfirst hfirst hu rfl
    · exact ihsecond hsecond hv rfl
  | either left right ihleft ihright =>
    obtain ⟨hleft, hright⟩ := Bool.or_eq_false_iff.mp hp
    exact h.elim (ihleft hleft) (ihright hright)

theorem Describes.starts (hp : p.canStartBlank = false) (h : p.Describes before piece rest) :
    Stops isBlank piece := by
  induction p generalizing before piece rest with
  | one accepts =>
    obtain ⟨c, rfl, hc⟩ := h
    exact stops_class hp (by simpa using hc)
  | many accepts => exact stops_class hp h
  | edge | atEnd =>
    obtain ⟨rfl, -⟩ := h
    exact stops_nil isBlank
  | nothing =>
    obtain rfl := h
    exact stops_nil isBlank
  | seq first second ihfirst ihsecond =>
    obtain ⟨u, v, rfl, hu, hv⟩ := h
    obtain ⟨hfirst, hsecond⟩ := Bool.or_eq_false_iff.mp hp
    obtain hempty | hsecond := Bool.and_eq_false_iff.mp hsecond
    · exact (ihfirst hfirst hu).append (hu.ne_nil hempty) v
    · exact stops_append (ihfirst hfirst hu) (ihsecond hsecond hv)
  | either left right ihleft ihright =>
    obtain ⟨hleft, hright⟩ := Bool.or_eq_false_iff.mp hp
    exact h.elim (ihleft hleft) (ihright hright)

theorem Describes.ends (hp : p.canEndBlank = false) (h : p.Describes before piece rest) :
    Stops isBlank piece.reverse := by
  induction p generalizing before piece rest with
  | one accepts =>
    obtain ⟨c, rfl, hc⟩ := h
    exact stops_class hp (by simpa using hc)
  | many accepts => exact stops_class hp fun c hc => h c (List.mem_reverse.mp hc)
  | edge | atEnd =>
    obtain ⟨rfl, -⟩ := h
    exact stops_nil isBlank
  | nothing =>
    obtain rfl := h
    exact stops_nil isBlank
  | seq first second ihfirst ihsecond =>
    obtain ⟨u, v, rfl, hu, hv⟩ := h
    obtain ⟨hsecond, hfirst⟩ := Bool.or_eq_false_iff.mp hp
    rw [List.reverse_append]
    obtain hempty | hfirst := Bool.and_eq_false_iff.mp hfirst
    · exact (ihsecond hsecond hv).append (by simpa using hv.ne_nil hempty) u.reverse
    · exact stops_append (ihsecond hsecond hv) (ihfirst hfirst hu)
  | either left right ihleft ihright =>
    obtain ⟨hleft, hright⟩ := Bool.or_eq_false_iff.mp hp
    exact h.elim (ihleft hleft) (ihright hright)

/-! ## The text around a piece -/

/-- A pattern sees of the text around a piece only which neighbours are word characters. -/
theorem Describes.move (hp : p.asksForEnd = false) (hbefore : isWordAt before = isWordAt before')
    (hrest : isWordAt rest.head? = isWordAt rest'.head?) (h : p.Describes before piece rest) :
    p.Describes before' piece rest' := by
  induction p generalizing before before' piece rest rest' with
  | one | many | nothing => exact h
  | edge => exact ⟨h.1, hbefore ▸ hrest ▸ h.2⟩
  | atEnd => cases hp
  | seq first second ihfirst ihsecond =>
    obtain ⟨hfirst, hsecond⟩ := Bool.or_eq_false_iff.mp hp
    obtain ⟨u, v, rfl, hu, hv⟩ := h
    refine ⟨u, v, rfl, ihfirst hfirst hbefore ?_ hu, ihsecond hsecond ?_ hrest hv⟩
    · cases v with
      | nil => exact hrest
      | cons c v => rfl
    · cases u.getLast? with
      | none => exact hbefore
      | some c => rfl
  | either left right ihleft ihright =>
    obtain ⟨hleft, hright⟩ := Bool.or_eq_false_iff.mp hp
    exact h.imp (ihleft hleft hbefore hrest) (ihright hright hbefore hrest)

/-- A word edge sees a blank as it sees no character. -/
theorem isWordAt_of_blanks {c? : Option Char} (h : ∀ c ∈ c?, isBlank c = true) : isWordAt c? = false := by
  cases c? with
  | none => rfl
  | some c => exact isWord_of_isBlank (h c rfl)

theorem isWordAt_blanks_append (hleft : ∀ c ∈ left, isBlank c = true) (front : List Char) :
    isWordAt (left ++ front).getLast? = isWordAt front.getLast? := by
  rw [List.getLast?_append]
  cases front.getLast? with
  | none => exact isWordAt_of_blanks fun c hc => hleft c (List.mem_of_getLast? hc)
  | some c => rfl

theorem isWordAt_append_blanks (hright : ∀ c ∈ right, isBlank c = true) (back : List Char) :
    isWordAt (back ++ right).head? = isWordAt back.head? := by
  rw [List.head?_append]
  cases back.head? with
  | none => exact isWordAt_of_blanks fun c hc => hright c (List.mem_of_mem_head? hc)
  | some c => rfl

/-- A solid pattern does not see the blanks around a text. -/
theorem occursIn_blanks_around (hp : p.isSolid = true) (hleft : ∀ c ∈ left, isBlank c = true)
    (hright : ∀ c ∈ right, isBlank c = true) (s : List Char) :
    p.occursIn (left ++ s ++ right) = p.occursIn s := by
  simp only [isSolid, Bool.and_eq_true, Bool.not_eq_true'] at hp
  obtain ⟨⟨⟨hempty, hstart⟩, hend⟩, hasks⟩ := hp
  have hfront (front : List Char) := isWordAt_blanks_append hleft front
  have hback (back : List Char) := isWordAt_append_blanks hright back
  rw [Bool.eq_iff_iff, occursIn_iff, occursIn_iff]
  constructor
  · rintro ⟨front, piece, back, heq, h⟩
    obtain ⟨front, back, rfl, rfl, rfl⟩ :=
      piece_between_blanks hleft hright (h.ne_nil hempty) (h.starts hstart) (h.ends hend) heq
    exact ⟨front, piece, back, rfl, h.move hasks (hfront front) (hback back)⟩
  · rintro ⟨front, piece, back, rfl, h⟩
    exact ⟨left ++ front, piece, back ++ right, by simp, h.move hasks (hfront front).symm (hback back).symm⟩

end Pattern

end AnswerCheck.Text
