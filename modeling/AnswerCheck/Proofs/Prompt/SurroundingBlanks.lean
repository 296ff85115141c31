import AnswerCheck.Proofs.Text.Context
import AnswerCheck.Proofs.Text.Finding
import AnswerCheck.Proofs.Text.SolidPatterns
import AnswerCheck.Prompt.Plan
import Mathlib.Data.List.Find

/-! # Blanks around a selected text

What is selected often comes with blanks around it. They do not change the kind of the text, nor the
language of code: four of the tests trim the text, the words are counted between blanks, and the
patterns for code are solid, so that they can be matched on the text as it is.
-/

set_option autoImplicit false

namespace AnswerCheck.Prompt

open Text

variable {left right : List Char}

/-! ## Words -/

theorem countWords_blanks (inWord : Bool) (hright : ∀ c ∈ right, isBlank c = true) :
    countWords inWord right = 0 := by
  induction right generalizing inWord with
  | nil => rfl
  | cons c right ih =>
    obtain ⟨hc, hright⟩ := List.forall_mem_cons.mp hright
    rw [countWords, if_pos hc, ih false hright]

theorem countWords_append_blanks (hright : ∀ c ∈ right, isBlank c = true) (inWord : Bool) (s : List Char) :
    countWords inWord (s ++ right) = countWords inWord s := by
  induction s generalizing inWord with
  | nil => exact countWords_blanks inWord hright
  | cons c s ih => simp only [List.cons_append, countWords, ih]

theorem countWords_blanks_append (hleft : ∀ c ∈ left, isBlank c = true) (s : List Char) :
    countWords false (left ++ s) = countWords false s := by
  induction left with
  | nil => rfl
  | cons c left ih =>
    obtain ⟨hc, hleft⟩ := List.forall_mem_cons.mp hleft
    rw [List.cons_append, countWords, if_pos hc, ih hleft]

/-! ## The tag of a fence -/

theorem startsIn_fenceTag : StartsIn (!isBlank ·) fenceTag? := by
  intro c s hc
  have hne : ¬ '\x60' = c := by
    rintro rfl
    cases hc
  have hfence : after? fence.toList (c :: s) = none := by
    simp [after?, fence, List.isPrefixOf?, hne]
  rw [fenceTag?, hfence]
  rfl

theorem findFirst?_fenceTag_blanks (hright : ∀ c ∈ right, isBlank c = true) :
    findFirst? fenceTag? right = none := by
  have hfound := startsIn_fenceTag.findFirst?_append (fun c hc => by rw [hright c hc]; rfl) []
  rwa [List.append_nil] at hfound

/-- Neither the code marks of a fence nor its tag go on into blanks. -/
theorem readsWithin_fenceTag (hright : ∀ c ∈ right, isBlank c = true) (s : List Char) :
    ReadsWithin fenceTag? s right := by
  intro t hne _
  have hmark : blankChars.all (!fence.toList.tail.contains ·) = true := by decide +kernel
  have hmarks : Stops fence.toList.tail.contains right :=
    stops_of_blanks hright fun c hc => by simpa using of_isBlank hmark hc
  have hword : Stops isWord right := stops_of_blanks hright fun c => isWord_of_isBlank
  have hafter := after?_append hne hmarks
  simp only [fenceTag?, hafter]
  cases after? fence.toList t with
  | none => rfl
  | some u =>
    cases u with
    | nil =>
      -- The piece ends after the code marks, and blanks are no tag.
      cases right with
      | nil => rfl
      | cons c right =>
        have hc : isWord c = false := stops_cons.mp hword
        simp [run?, hc]
    | cons c u =>
      exact run?_append_stops hword (List.cons_ne_nil c u)

/-! ## The tests -/

section Around

variable (hleft : ∀ c ∈ left, isBlank c = true) (hright : ∀ c ∈ right, isBlank c = true) (s : List Char)

include hleft hright

theorem isMathematics_around : isMathematics (left ++ s ++ right) = isMathematics s := by
  rw [isMathematics, trim_blanks_around hleft hright, isMathematics]

theorem hasBlank_around : hasBlank (left ++ s ++ right) = hasBlank s := by
  rw [hasBlank, trim_blanks_around hleft hright, hasBlank]

theorem isQuestion_around : isQuestion (left ++ s ++ right) = isQuestion s := by
  rw [isQuestion, trim_blanks_around hleft hright, isQuestion]

theorem isCommand_around : isCommand (left ++ s ++ right) = isCommand s := by
  rw [isCommand, trim_blanks_around hleft hright, isCommand]

theorem wordCount_around : wordCount (left ++ s ++ right) = wordCount s := by
  rw [wordCount, countWords_append_blanks hright, countWords_blanks_append hleft, wordCount]

theorem isCode_around : isCode (left ++ s ++ right) = isCode s := by
  have hsolid : codePatterns.all (·.isSolid) = true := by decide +kernel
  rw [isCode, isCode, Bool.eq_iff_iff, List.any_eq_true, List.any_eq_true]
  refine exists_congr fun p => and_congr_right fun hp => ?_
  rw [Pattern.occursIn_blanks_around (List.all_eq_true.mp hsolid p hp) hleft hright]

theorem languageOf_around : languageOf (left ++ s ++ right) = languageOf s := by
  have hsolid : languageFeatures.all (·.1.isSolid) = true := by decide +kernel
  have hfeature : languageFeatures.find? (·.1.occursIn (left ++ s ++ right)) =
      languageFeatures.find? (·.1.occursIn s) :=
    List.find?_congr fun feature hmem =>
      Pattern.occursIn_blanks_around (List.all_eq_true.mp hsolid feature hmem) hleft hright s
  have htag : findFirst? fenceTag? (left ++ s ++ right) =
      (findFirst? fenceTag? s).map fun m => (left ++ m.1, m.2.1, m.2.2 ++ right) := by
    rw [List.append_assoc, startsIn_fenceTag.findFirst?_append (fun c hc => by rw [hleft c hc]; rfl),
      (readsWithin_fenceTag hright s).findFirst?_append (findFirst?_fenceTag_blanks hright),
      Option.map_map]
    rfl
  rw [languageOf, languageOf, htag, hfeature]
  cases findFirst? fenceTag? s <;> rfl

/-! ## The prompt -/

theorem otherKind_around : otherKind (left ++ s ++ right) = otherKind s := by
  rw [otherKind, wordCount_around hleft hright, hasBlank_around hleft hright, isQuestion_around hleft hright,
    isCommand_around hleft hright, isCode_around hleft hright, otherKind]

theorem kindOf_around : kindOf (left ++ s ++ right) = kindOf s := by
  rw [kindOf, isMathematics_around hleft hright, otherKind_around hleft hright, kindOf]

end Around

/-- Two prompts that differ at most in the text of the request. -/
structure Plan.SameSettings (p p' : Plan) : Prop where
  kind : p.kind = p'.kind
  temperature : p.kind.temperature = p'.kind.temperature
  expectsFinalAnswer : p.kind.expectsFinalAnswer = p'.kind.expectsFinalAnswer
  language : p.language = p'.language
  instructions : p.instructions = p'.instructions

/-- For a known kind the settings depend on the text only through its language. -/
theorem Plan.SameSettings.ofKind {text text' : String} (h : languageOf text.toList = languageOf text'.toList)
    (kind : Kind) : Plan.SameSettings (.ofKind kind text) (.ofKind kind text') := by
  cases kind <;> constructor <;> simp only [Plan.ofKind, h]

/-- The blanks around a text change nothing but the text of the request. -/
theorem Plan.sameSettings_around_blanks {left right : String} (hleft : ∀ c ∈ left.toList, isBlank c = true)
    (hright : ∀ c ∈ right.toList, isBlank c = true) (text : String) :
    Plan.SameSettings (.ofText (left ++ text ++ right)) (.ofText text) ∧
      Plan.SameSettings (.ofOtherText (left ++ text ++ right)) (.ofOtherText text) := by
  have hlist : (left ++ text ++ right).toList = left.toList ++ text.toList ++ right.toList := by
    rw [String.toList_append, String.toList_append]
  have hlanguage : languageOf (left ++ text ++ right).toList = languageOf text.toList := by
    rw [hlist, languageOf_around hleft hright]
  have hkind : kindOf (left ++ text ++ right).toList = kindOf text.toList := by
    rw [hlist, kindOf_around hleft hright]
  have hother : otherKind (left ++ text ++ right).toList = otherKind text.toList := by
    rw [hlist, otherKind_around hleft hright]
  rw [Plan.ofText, Plan.ofText, Plan.ofOtherText, Plan.ofOtherText, hkind, hother]
  exact ⟨.ofKind hlanguage _, .ofKind hlanguage _⟩

theorem Plan.sameSettings_around_blanks_python :
    (∀ c ∈ "\n\t".toList, isBlank c = true) ∧ (∀ c ∈ "\u3000 ".toList, isBlank c = true) ∧
      (Plan.ofText "def greet(name):\n    return name").language = some "Python" ∧
      Plan.SameSettings (.ofText ("\n\t" ++ "def greet(name):\n    return name" ++ "\u3000 "))
        (.ofText "def greet(name):\n    return name") := by
  have hleft : ∀ c ∈ "\n\t".toList, isBlank c = true := by simp [isBlank]
  have hright : ∀ c ∈ "\u3000 ".toList, isBlank c = true := by simp [isBlank]
  exact ⟨hleft, hright, by decide +kernel, (Plan.sameSettings_around_blanks hleft hright _).1⟩

end AnswerCheck.Prompt
