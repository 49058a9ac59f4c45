import Mathlib.Data.List.DropRight
import Conveyor.Proofs.QualifierText

/-! Reading artifact references. A text is cut at its first slash, each part must hold a character, and blanks around the
parts are taken off after that. So a part of blanks alone passes for a name, and leaves an empty one. -/

namespace Conveyor

namespace Text

theorem trimEnd_eq (cs : List Char) : trimEnd cs = cs.rdropWhile isBlank := rfl

theorem mem_of_mem_trim {c : Char} {cs : List Char} (member : c ∈ trim cs) : c ∈ cs :=
  (List.dropWhile_suffix isBlank).subset ((List.rdropWhile_prefix isBlank _).subset member)

/-- What is left starts with a visible character: dropping the end keeps the start. -/
theorem trimStart_trim (cs : List Char) : trimStart (trim cs) = trim cs := by
  obtain ⟨dropped, whole⟩ := List.rdropWhile_prefix isBlank (trimStart cs)
  rw [← trimEnd_eq, ← trim] at whole
  cases left : trim cs with
  | nil => rfl
  | cons c rest =>
    rw [left, List.cons_append] at whole
    have visible : ¬ isBlank c := by
      have start := List.head?_dropWhile_not isBlank cs
      rw [← trimStart, ← whole] at start
      simpa using start
    rw [trimStart, List.dropWhile_cons_of_neg visible]

theorem trim_trim (cs : List Char) : trim (trim cs) = trim cs := by
  calc trim (trim cs) = trimEnd (trim cs) := congrArg trimEnd (trimStart_trim cs)
    _ = trim cs := List.rdropWhile_idempotent isBlank (trimStart cs)

theorem trim_ne_nil_iff {cs : List Char} : trim cs ≠ [] ↔ ∃ c ∈ cs, ¬ isBlank c := by
  constructor
  · intro left
    by_contra blank
    have all : trimStart cs = [] := List.dropWhile_eq_nil_iff.2 fun c member => by_contra fun visible =>
      blank ⟨c, member, visible⟩
    exact left (by rw [trim, all]; rfl)
  · rintro ⟨c, member, visible⟩ nothing
    have blank : ∀ d ∈ trimStart cs, isBlank d := List.rdropWhile_eq_nil_iff.1 nothing
    -- Every blank that is dropped stands before the visible character.
    have kept : c ∈ trimStart cs := by
      rw [← List.takeWhile_append_dropWhile (p := isBlank) (l := cs)] at member
      exact (List.mem_append.1 member).resolve_left fun early => visible (List.mem_takeWhile_imp early)
    exact visible (blank c kept)

end Text

namespace ArtifactRef

/-- The reference whose parts are two texts, without the blanks around them. -/
def ofParts (before after : List Char) : ArtifactRef where
  stage := String.ofList (Text.trim before)
  name := String.ofList (Text.trim after)

theorem ofList_ne_empty {cs : List Char} : String.ofList cs ≠ "" ↔ cs ≠ [] := by
  rw [Ne, ← String.toList_inj, String.toList_ofList, String.toList_empty]

theorem parse?_eq_some_iff {text : String} {r : ArtifactRef} :
    parse? text = some r ↔ ∃ before after, text.toList = before ++ '/' :: after ∧ '/' ∉ before ∧
      before ≠ [] ∧ after ≠ [] ∧ r = ofParts before after := by
  unfold parse? Text.cut?
  constructor
  · intro read
    cases cut : Text.cutChars? '/' text.toList with
    | none => simp [cut] at read
    | some parts =>
      obtain ⟨before, after⟩ := parts
      obtain ⟨whole, first⟩ := Text.cutChars?_eq_some_iff.1 cut
      simp only [cut, Option.map_some] at read
      split at read
      next => cases read
      next full =>
        rw [not_or, ← Ne, ← Ne, ofList_ne_empty, ofList_ne_empty] at full
        refine ⟨before, after, whole, first, full.1, full.2, ?_⟩
        simpa [Text.strip, ofParts] using (Option.some.inj read).symm
  · rintro ⟨before, after, whole, first, named, named', rfl⟩
    have full : ¬ (String.ofList before = "" ∨ String.ofList after = "") :=
      not_or.2 ⟨ofList_ne_empty.2 named, ofList_ne_empty.2 named'⟩
    simp only [Text.cutChars?_eq_some_iff.2 ⟨whole, first⟩, Option.map_some, if_neg full, Text.strip, String.toList_ofList,
      ofParts]

theorem text_ofParts (before after : List Char) :
    (ofParts before after).text.toList = Text.trim before ++ '/' :: Text.trim after := by
  simp [text, filter, ofParts]

/-- The text of a reference is cut where the first text was, and its parts have no blanks left to take off. -/
theorem parse?_text_ofParts {before after : List Char} (first : '/' ∉ before) :
    parse? (ofParts before after).text = some (ofParts before after) ↔ Text.trim before ≠ [] ∧ Text.trim after ≠ [] := by
  have unslashed : '/' ∉ Text.trim before := fun member => first (Text.mem_of_mem_trim member)
  constructor
  · intro read
    obtain ⟨stage, name, whole, cut, named, named', -⟩ := parse?_eq_some_iff.1 read
    rw [text_ofParts] at whole
    have parts := (Text.cutChars?_eq_some_iff.2 ⟨whole, cut⟩).symm.trans (Text.cutChars?_eq_some_iff.2 ⟨rfl, unslashed⟩)
    simp only [Option.some.injEq, Prod.mk.injEq] at parts
    exact ⟨parts.1 ▸ named, parts.2 ▸ named'⟩
  · rintro ⟨named, named'⟩
    refine parse?_eq_some_iff.2 ⟨_, _, text_ofParts before after, unslashed, named, named', ?_⟩
    simp only [ofParts, Text.trim_trim]

/-- A reference that was read names a stage and an artifact, and is read again from its own text, exactly if a character
that is not blank stands on either side of the first slash. -/
theorem read_again_iff {text : String} {r : ArtifactRef} (read : parse? text = some r) :
    ∃ before after, text.toList = before ++ '/' :: after ∧ '/' ∉ before ∧
      (r.stage ≠ "" ↔ ∃ c ∈ before, ¬ Text.isBlank c) ∧ (r.name ≠ "" ↔ ∃ c ∈ after, ¬ Text.isBlank c) ∧
      (parse? r.text = some r ↔ r.stage ≠ "" ∧ r.name ≠ "") := by
  obtain ⟨before, after, whole, first, -, -, rfl⟩ := parse?_eq_some_iff.1 read
  have stage : (ofParts before after).stage ≠ "" ↔ Text.trim before ≠ [] := ofList_ne_empty
  have name : (ofParts before after).name ≠ "" ↔ Text.trim after ≠ [] := ofList_ne_empty
  refine ⟨before, after, whole, first, ?_, ?_, ?_⟩
  · rw [stage, Text.trim_ne_nil_iff]
  · rw [name, Text.trim_ne_nil_iff]
  · rw [stage, name, parse?_text_ofParts first]

/-- The second slash is part of the name, and the blanks around it stay. -/
theorem padded_read_again : parse? " build /app / debug " = some ⟨"build", "app / debug", none⟩ ∧
    parse? "build/app / debug" = some ⟨"build", "app / debug", none⟩ := by
  have read : parse? " build /app / debug " = some ⟨"build", "app / debug", none⟩ := by decide +kernel
  obtain ⟨_, _, -, -, -, -, again⟩ := read_again_iff read
  exact ⟨read, again.2 ⟨by decide, by decide⟩⟩

/-- A blank passes for the name of an artifact, and the reference cannot be read again. -/
theorem blank_name_accepted : parse? "build/ " = some ⟨"build", "", none⟩ ∧
    parse? (ArtifactRef.text ⟨"build", "", none⟩) = none := by
  decide +kernel

end ArtifactRef
end Conveyor
