import ControlUnit.Proofs.SubroutineTable
import Mathlib.Data.List.Forall2

/-!
# Source texts

What becomes of whole source texts, line by line.  A text behind another leaves the lines of the
first as they are, so its layout is gone on with or its fault stays.  And two texts of which each
line has the same effect as that of the other (`Layout.SameEffect`) are laid out to the same end,
where what counts as the same is up to the reader.

## Main results

* `Text.lines_append_cons` — the lines of a text behind another.
* `Layout.lines_append`, `Layout.lines_append_of_error` — laying out a text that goes on.
* `Layout.ofSource_congr` — texts with lines of the same effect.
-/

namespace ControlUnit

namespace Text

/-- A text behind a line feed has its own lines.  If the text before ends with a line feed, or is
empty, a blank line comes between. -/
theorem lines_append_cons (first second : List Char) :
    ∃ between, (∀ line ∈ between, line = []) ∧
      lines (first ++ '\n' :: second) = lines first ++ (between ++ lines second) := by
  induction first with
  | nil => exact ⟨[[]], by simp, rfl⟩
  | cons c rest ih =>
      obtain ⟨between, hBlank, hLines⟩ := ih
      by_cases hFeed : c = '\n'
      · exact ⟨between, hBlank, by simp only [List.cons_append, lines, if_pos hFeed, hLines]⟩
      · cases hRest : lines rest with
        | nil =>
            -- The character stands alone on its line, which the line feed ends.
            have hNil : rest = [] := by
              cases rest with
              | nil => rfl
              | cons d more =>
                  rw [lines] at hRest
                  split at hRest
                  · cases hRest
                  · split at hRest <;> cases hRest
            subst hNil
            exact ⟨[], by simp, by simp [lines, hFeed]⟩
        | cons line more =>
            refine ⟨between, hBlank, ?_⟩
            simp only [List.cons_append, lines, if_neg hFeed, hLines, hRest]

end Text

namespace Assembly

open Text

namespace Layout

/-! ## Single lines -/

/-- A line is what it says. -/
theorem line_congr {first second : List Char} (h : content first = content second)
    (layout : Layout) (number : Nat) : layout.line number first = layout.line number second := by
  simp only [line, SourceLine.ofText, h]

/-- A line that says nothing does nothing. -/
theorem line_of_blank {text : List Char} (h : content text = []) (layout : Layout)
    (number : Nat) : layout.line number text = .ok layout := by
  simp only [line, SourceLine.ofText, h]
  rfl

/-! ## Texts behind each other -/

theorem lines_append {layout next : Layout} {first : List (List Char × Nat)}
    (h : layout.lines first = .ok next) (second : List (List Char × Nat)) :
    layout.lines (first ++ second) = next.lines second := by
  induction first generalizing layout with
  | nil =>
      cases h
      rfl
  | cons line rest ih =>
      obtain ⟨text, number⟩ := line
      rw [lines] at h
      rw [List.cons_append, lines]
      cases hLine : layout.line number text with
      | error cause => simp [hLine] at h
      | ok middle =>
          simp only [hLine] at h ⊢
          exact ih h

theorem lines_append_of_error {layout : Layout} {first : List (List Char × Nat)}
    {reason : AssemblyError} (h : layout.lines first = .error reason)
    (second : List (List Char × Nat)) : layout.lines (first ++ second) = .error reason := by
  induction first generalizing layout with
  | nil => cases h
  | cons line rest ih =>
      obtain ⟨text, number⟩ := line
      rw [lines] at h
      rw [List.cons_append, lines]
      cases hLine : layout.line number text with
      | error cause =>
          simp only [hLine] at h ⊢
          exact h
      | ok middle =>
          simp only [hLine] at h ⊢
          exact ih h

/-! ## Lines of the same effect -/

section Effects

variable {α : Type} {view : Layout → α}

/-- Two lines do the same to all layouts that are the same in the view of the reader. -/
def SameEffect (view : Layout → α) (first second : List Char) : Prop :=
  ∀ (one other : Layout) (number : Nat), view one = view other →
    (one.line number first).map view = (other.line number second).map view

/-- Results that are the same in a view fail alike, or both give something. -/
theorem cases_of_map_eq_map {ε : Type} {one other : Except ε Layout}
    (h : one.map view = other.map view) :
    (∃ cause, one = .error cause ∧ other = .error cause) ∨
      ∃ next next', one = .ok next ∧ other = .ok next' ∧ view next = view next' := by
  cases one with
  | error cause =>
      cases other with
      | error cause' =>
          cases h
          exact .inl ⟨cause, rfl, rfl⟩
      | ok next' => cases h
  | ok next =>
      cases other with
      | error cause' => cases h
      | ok next' => exact .inr ⟨next, next', rfl, rfl, Except.ok.inj h⟩

theorem lines_congr {first second : List (List Char)}
    (hLines : List.Forall₂ (SameEffect view) first second) {one other : Layout}
    (hView : view one = view other) (start : Nat) :
    (one.lines (first.zipIdx start)).map view = (other.lines (second.zipIdx start)).map view := by
  induction hLines generalizing one other start with
  | nil => exact congrArg Except.ok hView
  | @cons line line' rest rest' hLine hRest ih =>
      simp only [List.zipIdx_cons, lines]
      rcases cases_of_map_eq_map (hLine one other start hView) with
        ⟨cause, hOne, hOther⟩ | ⟨next, next', hOne, hOther, hNext⟩
      · rw [hOne, hOther]
      · simp only [hOne, hOther]
        exact ih hNext (start + 1)

/-- Texts with lines of the same effect are laid out to the same end. -/
theorem ofSource_congr {first second : List Char}
    (h : List.Forall₂ (SameEffect view) (Text.lines first) (Text.lines second)) :
    (ofSource first).map view = (ofSource second).map view :=
  lines_congr h rfl 1

end Effects

end Layout

end Assembly

end ControlUnit
