import AnswerCheck.Proofs.Expr.Derivation

/-! # What is read is derived

Each reader takes a piece off the start of its text that is spelled by tokens which derive the
expression it gives. This is shown for the readers of one level, given that it holds one level
below; a reader without levels reads nothing.
-/

set_option autoImplicit false

namespace AnswerCheck.Grammar

open Text

/-- What was read is a derivation of the piece of text that was taken. -/
def Read (category : Category) (s : List Char) (p : Parsed) : Prop :=
  ∃ ts used, s = used ++ p.rest ∧ Spelled isSpace ts used ∧ Derives category ts p.expr p.ending

/-- The readers that are entered again read nothing but derivations. -/
structure Level.Sound (below : Level) : Prop where
  sum {s : List Char} {p : Parsed} (h : below.sum s = .ok p) : Read .sum s p
  exponent {s : List Char} {p : Parsed} (h : below.exponent s = .ok p) : Read .exponent s p
  signed {s : List Char} {p : Parsed} (h : below.signed s = .ok p) : Read .signed s p

theorem bind_eq_ok {ε α β : Type} {x : Except ε α} {f : α → Except ε β} {b : β} :
    (x >>= f) = .ok b ↔ ∃ a, x = .ok a ∧ f a = .ok b := by
  cases x with
  | error e => simp [bind, Except.bind]
  | ok a => simp [bind, Except.bind]

theorem failAt_eq_ok {place : List Char} {r : Except Failure Parsed} {p : Parsed} :
    failAt place r = .ok p ↔ r = .ok p := by
  unfold failAt
  split <;> simp

theorem exists_gap (s : List Char) :
    ∃ gap, s = gap ++ skipSpaces s ∧ ∀ c ∈ gap, isSpace c = true :=
  ⟨s.takeWhile isSpace, (List.takeWhile_append_dropWhile).symm, fun _ => List.mem_takeWhile_imp⟩

/-- A token at the start of a text, after the blanks in front of it. -/
theorem exists_spelled {s rest : List Char} (token : Token) (h : skipSpaces s = token.text ++ rest) :
    ∃ used, s = used ++ rest ∧ Spelled isSpace [token] used := by
  obtain ⟨gap, hs, hgap⟩ := exists_gap s
  refine ⟨gap ++ token.text, ?_, Spelled.singleton token hgap⟩
  rw [List.append_assoc, ← h]
  exact hs

theorem Read.of_skipSpaces {category : Category} {s : List Char} {p : Parsed}
    (h : Read category (skipSpaces s) p) : Read category s p := by
  obtain ⟨gap, hs, hgap⟩ := exists_gap s
  obtain ⟨ts, used, hused, hspelled, hderives⟩ := h
  refine ⟨ts, gap ++ used, ?_, hspelled.gap_append hderives.ne_nil hgap, hderives⟩
  rw [List.append_assoc, ← hused]
  exact hs

/-! ## Factors -/

theorem readName_eq {s name rest : List Char} (h : readName s = (name, rest)) : s = name ++ rest := by
  unfold readName at h
  split at h
  · obtain ⟨rfl, rfl⟩ := Prod.mk.inj h
    rfl
  · split at h
    · obtain ⟨rfl, rfl⟩ := Prod.mk.inj h
      rw [List.cons_append, List.takeWhile_append_dropWhile]
    · obtain ⟨rfl, rfl⟩ := Prod.mk.inj h
      rfl

theorem ofName?_eq_some {name : List Char} {f : Function} (h : Function.ofName? name = some f) :
    f.name.toList = name := by
  have := List.find?_some h
  simpa using this

variable {below : Level}

theorem group_sound (hbelow : below.Sound) {s : List Char} {p : Parsed}
    (h : group below s = .ok p) :
    ∃ ts used ending, s = used ++ p.rest ∧ Spelled isSpace (ts ++ [.closing]) used ∧
      Derives .sum ts p.expr ending ∧ p.ending = .closing := by
  obtain ⟨inner, hinner, hclosing⟩ := bind_eq_ok.mp h
  obtain ⟨ts, used, hs, hspelled, hderives⟩ := hbelow.sum hinner
  split at hclosing
  · next rest hrest =>
    obtain rfl := Except.ok.inj hclosing
    obtain ⟨used', hrest', hspelled'⟩ := exists_spelled .closing hrest
    exact ⟨ts, used ++ used', inner.ending, by rw [hs, hrest', List.append_assoc],
      hspelled.append hspelled', hderives, rfl⟩
  · cases hclosing

theorem named_sound (hbelow : below.Sound) {s : List Char} {p : Parsed}
    (h : named below s = .ok p) : Read .factor s p := by
  unfold named at h
  rcases hname : readName s with ⟨name, rest⟩
  have hs := readName_eq hname
  simp only [hname] at h
  have hnone : ∀ c ∈ ([] : List Char), isSpace c = true := by simp
  split at h
  · next hx =>
    obtain rfl := Except.ok.inj h
    exact ⟨[.var], name, hs, hx ▸ Spelled.singleton .var hnone, Derives.var⟩
  · split at h
    · next hpi =>
      obtain rfl := Except.ok.inj h
      exact ⟨[.pi], name, hs, hpi ▸ Spelled.singleton .pi hnone, Derives.pi⟩
    · split at h
      · next f inside hf hopening =>
        obtain ⟨argument, hargument, heq⟩ := bind_eq_ok.mp h
        obtain rfl := Except.ok.inj heq
        obtain ⟨ts, used, ending, hinside, hspelled, hderives, hclosing⟩ :=
          group_sound hbelow hargument
        obtain ⟨used', hrest, hspelled'⟩ := exists_spelled .opening hopening
        refine ⟨.function f :: .opening :: ts ++ [.closing], name ++ (used' ++ used), ?_, ?_, ?_⟩
        · rw [hs, hrest, hinside]
          simp
        · have hfunction := Spelled.singleton (.function f) hnone
          rw [List.nil_append, Token.text, ofName?_eq_some hf] at hfunction
          exact hfunction.append (hspelled'.append hspelled)
        · rw [hclosing]
          exact Derives.call f hderives
      · cases h

theorem factor_sound (hbelow : below.Sound) {s : List Char} {p : Parsed}
    (h : factor below s = .ok p) : Read .factor s p := by
  refine Read.of_skipSpaces ?_
  unfold factor at h
  generalize skipSpaces s = s at h
  have hnone : ∀ c ∈ ([] : List Char), isSpace c = true := by simp
  simp only at h
  split at h
  · next inside =>
    obtain ⟨ts, used, ending, hinside, hspelled, hderives, hclosing⟩ := group_sound hbelow h
    refine ⟨.opening :: ts ++ [.closing], '(' :: used, by rw [hinside]; rfl, ?_, ?_⟩
    · exact (Spelled.singleton .opening hnone).append hspelled
    · rw [hclosing]
      exact Derives.group hderives
  · split at h
    · next d rest hnumber =>
      obtain rfl := Except.ok.inj h
      obtain ⟨text, hs, hnumeral⟩ := Decimal.unsigned?_eq_some hnumber
      exact ⟨[.number text], text, hs, Spelled.singleton (.number text) hnone,
        Derives.number hnumeral⟩
    · exact named_sound hbelow (failAt_eq_ok.mp h)

/-! ## Powers and signs -/

/-- Two pieces with a token between them are one piece. -/
theorem Read.chain {c c' c'' : Category} {s rest : List Char} {p q r : Parsed} (token : Token)
    (hp : Read c s p) (htoken : skipSpaces p.rest = token.text ++ rest) (hq : Read c' rest q)
    (hrest : r.rest = q.rest)
    (hderives : ∀ ts us, Derives c ts p.expr p.ending → Derives c' us q.expr q.ending →
      Derives c'' (ts ++ token :: us) r.expr r.ending) : Read c'' s r := by
  obtain ⟨ts, used, hs, hspelled, hts⟩ := hp
  obtain ⟨between, hbetween, htokenSpelled⟩ := exists_spelled token htoken
  obtain ⟨us, used', hrest', hspelled', hus⟩ := hq
  refine ⟨ts ++ token :: us, used ++ (between ++ used'), ?_, ?_, hderives ts us hts hus⟩
  · rw [hs, hbetween, hrest', hrest]
    simp
  · exact hspelled.append (htokenSpelled.append hspelled')

theorem Read.derive {c c' : Category} {s : List Char} {p : Parsed} (h : Read c s p)
    (hderives : ∀ ts, Derives c ts p.expr p.ending → Derives c' ts p.expr p.ending) : Read c' s p := by
  obtain ⟨ts, used, hs, hspelled, hts⟩ := h
  exact ⟨ts, used, hs, hspelled, hderives ts hts⟩

theorem power_sound (hbelow : below.Sound) {s : List Char} {p : Parsed}
    (h : power below s = .ok p) : Read .power s p := by
  obtain ⟨base, hbase, hrest⟩ := bind_eq_ok.mp h
  have hread := factor_sound hbelow hbase
  split at hrest
  · next rest hcaret =>
    obtain ⟨e, hexponent, heq⟩ := bind_eq_ok.mp hrest
    obtain rfl := Except.ok.inj heq
    exact hread.chain .caret hcaret (hbelow.exponent hexponent) rfl fun ts us => Derives.raised
  · obtain rfl := Except.ok.inj hrest
    exact hread.derive fun ts => Derives.base

theorem Read.cons {c c' : Category} {s rest : List Char} {q r : Parsed} (token : Token)
    (hs : s = token.text ++ rest) (hq : Read c rest q) (hrest : r.rest = q.rest)
    (hderives : ∀ ts, Derives c ts q.expr q.ending → Derives c' (token :: ts) r.expr r.ending) :
    Read c' s r := by
  obtain ⟨ts, used, hused, hspelled, hts⟩ := hq
  refine ⟨token :: ts, token.text ++ used, ?_, ?_, hderives ts hts⟩
  · rw [hs, hused, hrest, List.append_assoc]
  · exact (@Spelled.singleton _ [] token (by simp)).append hspelled

theorem withSigns_sound (hbelow : below.Sound) {category : Category}
    (hc : category.takesSigns = true) {operand : Reader}
    (hoperand : ∀ {s : List Char} {p : Parsed}, operand s = .ok p → Read category s p)
    {s : List Char} {p : Parsed} (h : withSigns below operand s = .ok p) : Read category s p := by
  refine Read.of_skipSpaces ?_
  unfold withSigns at h
  generalize skipSpaces s = s at h
  simp only at h
  split at h
  · next rest =>
    obtain ⟨negated, hnegated, heq⟩ := bind_eq_ok.mp h
    obtain rfl := Except.ok.inj heq
    exact Read.cons (.operator .sub) rfl (hoperand (failAt_eq_ok.mp hnegated)) rfl
      fun ts => Derives.negated hc
  · next rest =>
    exact Read.cons (.operator .add) rfl (hoperand (failAt_eq_ok.mp h)) rfl
      fun ts => Derives.affirmed hc
  · exact (power_sound hbelow h).derive fun ts => Derives.unsigned hc

theorem signed_sound (hbelow : below.Sound) {s : List Char} {p : Parsed}
    (h : signed below s = .ok p) : Read .signed s p :=
  withSigns_sound hbelow rfl hbelow.signed h

theorem exponent_sound (hbelow : below.Sound) {s : List Char} {p : Parsed}
    (h : exponent below s = .ok p) : Read .exponent s p :=
  withSigns_sound hbelow rfl hbelow.exponent h

/-! ## Products and sums -/

/-- A piece that follows another one without an operator. -/
theorem Read.implicit {s : List Char} {p q : Parsed} (hp : Read .product s p)
    (hfollows : mayFollow p.ending (p.rest.dropWhile isBlank).head? = true)
    (hq : Read .power p.rest q) :
    Read .product s { q with expr := .arith .mul p.expr q.expr } := by
  obtain ⟨ts, used, hs, hspelled, hts⟩ := hp
  obtain ⟨us, used', hrest, hspelled', hus⟩ := hq
  refine ⟨ts ++ us, used ++ used', by rw [hs, hrest, List.append_assoc], hspelled.append hspelled',
    Derives.implicit hts ?_ hus⟩
  cases us with
  | nil => exact absurd rfl hus.ne_nil
  | cons token more =>
    have hvalid := hus.valid token List.mem_cons_self
    obtain ⟨c, text, htext, hc⟩ := hvalid.head
    obtain ⟨gap, t, hused', hgap, -⟩ := hspelled'.of_cons
    have hblanks : ∀ d ∈ gap, isBlank d = true := fun d hd => isBlank_of_isSpace (hgap d hd)
    have hhead : (p.rest.dropWhile isBlank).head? = some c := by
      rw [hrest, hused', htext, List.append_assoc, List.cons_append, List.cons_append,
        dropWhile_append hblanks (stops_cons.mpr hc)]
      rfl
    rw [hhead] at hfollows
    exact (mayFollow_iff hvalid htext).mp hfollows

theorem productTail_sound (hbelow : below.Sound) {steps : Nat} {s : List Char} {p q : Parsed}
    (hp : Read .product s p) (h : productTail below steps p = .ok q) : Read .product s q := by
  induction steps generalizing p with
  | zero =>
    obtain rfl := Except.ok.inj h
    exact hp
  | succ steps ih =>
    rw [productTail] at h
    simp only at h
    split at h
    · next rest htimes =>
      obtain ⟨f, hf, hmore⟩ := bind_eq_ok.mp h
      refine ih ?_ hmore
      exact hp.chain (.operator .mul) htimes (signed_sound hbelow hf) rfl fun ts us => Derives.times rfl
    · next rest hover =>
      obtain ⟨f, hf, hmore⟩ := bind_eq_ok.mp h
      refine ih ?_ hmore
      exact hp.chain (.operator .div) hover (signed_sound hbelow hf) rfl fun ts us => Derives.times rfl
    · split at h
      · next hfollows =>
        split at h
        · next f hf => exact ih (hp.implicit hfollows (power_sound hbelow hf)) h
        · obtain rfl := Except.ok.inj h
          exact hp
        · cases h
      · obtain rfl := Except.ok.inj h
        exact hp

theorem product_sound (hbelow : below.Sound) {s : List Char} {p : Parsed}
    (h : product below s = .ok p) : Read .product s p := by
  obtain ⟨first, hfirst, htail⟩ := bind_eq_ok.mp h
  exact productTail_sound hbelow ((signed_sound hbelow hfirst).derive fun ts => Derives.operand) htail

theorem sumTail_sound (hbelow : below.Sound) {steps : Nat} {s : List Char} {p q : Parsed}
    (hp : Read .sum s p) (h : sumTail below steps p = .ok q) : Read .sum s q := by
  induction steps generalizing p with
  | zero =>
    obtain rfl := Except.ok.inj h
    exact hp
  | succ steps ih =>
    rw [sumTail] at h
    simp only at h
    split at h
    · next rest hplus =>
      split at h
      · next f hf =>
        refine ih ?_ h
        exact hp.chain (.operator .add) hplus (product_sound hbelow hf) rfl fun ts us => Derives.plus rfl
      · obtain rfl := Except.ok.inj h
        exact hp
      · cases h
    · next rest hminus =>
      split at h
      · next f hf =>
        refine ih ?_ h
        exact hp.chain (.operator .sub) hminus (product_sound hbelow hf) rfl fun ts us => Derives.plus rfl
      · obtain rfl := Except.ok.inj h
        exact hp
      · cases h
    · obtain rfl := Except.ok.inj h
      exact hp

theorem sum_sound (hbelow : below.Sound) {s : List Char} {p : Parsed}
    (h : sum below s = .ok p) : Read .sum s p := by
  obtain ⟨first, hfirst, htail⟩ := bind_eq_ok.mp h
  exact sumTail_sound hbelow ((product_sound hbelow hfirst).derive fun ts => Derives.term) htail

/-! ## Levels -/

/-- The readers that may enter the grammar again fewer than `n` times. -/
def readers : Nat → Level
  | 0 => Level.none
  | n + 1 => (readers n).above

theorem level_eq_readers (n : Nat) : level n = readers (n + 1) := by
  induction n with
  | zero => rfl
  | succ n ih =>
    rw [level, ih]
    rfl

/-- Readers of every level read nothing but derivations. -/
theorem readers_sound (n : Nat) : (readers n).Sound := by
  induction n with
  | zero =>
    constructor <;>
    · intro s p h
      cases h
  | succ n ih => exact ⟨sum_sound ih, exponent_sound ih, signed_sound ih⟩

end AnswerCheck.Grammar
