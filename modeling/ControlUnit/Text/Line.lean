import ControlUnit.Text.Blank

/-!
# Lines of text

Source texts and image texts are read line by line. This module cuts a text into
its lines, drops the comment at the end of a line, and cuts a text at the first
occurrence of a mark.

A line ends at a line feed; the empty piece after the last line feed is no line.
For what is read, a carriage return before the line feed needs no rule of its own,
because it is blank and every reader trims; what is shown is freed from it first.

## Main results

* `cut?_eq_none_iff`, `eq_of_cut?` — a text is cut exactly when it holds the mark,
  and the pieces with the mark between them are the text.
-/

namespace ControlUnit.Text

/-- The lines of a text, without their line feeds. -/
def lines : List Char → List (List Char)
  | [] => []
  | c :: rest =>
    if c = '\n' then [] :: lines rest
    else
      match lines rest with
      | [] => [[c]]
      | line :: more => (c :: line) :: more

/-- A text without the carriage returns right before its line feeds. -/
def dropReturns : List Char → List Char
  | '\r' :: '\n' :: rest => '\n' :: dropReturns rest
  | c :: rest => c :: dropReturns rest
  | [] => []

/-- The lines of a text, each with its number, the first line being number one. -/
def numberedLines (text : List Char) : List (List Char × Nat) :=
  (lines text).zipIdx 1

/-- The character that opens a comment, which runs to the end of its line. -/
def commentMark : Char := ';'

/-- What a line says: the part before its comment, trimmed. -/
def content (line : List Char) : List Char :=
  trim (line.takeWhile fun c => c != commentMark)

/-- The parts of a text before and after the first occurrence of a mark. -/
def cut? (mark : Char) : List Char → Option (List Char × List Char)
  | [] => none
  | c :: rest =>
    if c = mark then some ([], rest)
    else (cut? mark rest).map fun parts => (c :: parts.1, parts.2)

/-- A text is cut exactly when it holds the mark. -/
theorem cut?_eq_none_iff {mark : Char} {text : List Char} :
    cut? mark text = none ↔ mark ∉ text := by
  induction text with
  | nil => simp [cut?]
  | cons c rest ih =>
      by_cases h : c = mark
      · simp [cut?, h]
      · simp [cut?, h, ih, Ne.symm h]

/-- The pieces of a cut text, with the mark between them, are the text, and the
mark does not occur in the first piece. -/
theorem eq_of_cut? {mark : Char} {text before after : List Char}
    (h : cut? mark text = some (before, after)) :
    text = before ++ mark :: after ∧ mark ∉ before := by
  induction text generalizing before with
  | nil => simp [cut?] at h
  | cons c rest ih =>
      by_cases hc : c = mark
      · simp only [cut?, hc, if_true, Option.some.injEq, Prod.mk.injEq] at h
        obtain ⟨rfl, rfl⟩ := h
        simp [hc]
      · simp only [cut?, hc, if_false, Option.map_eq_some_iff, Prod.mk.injEq, Prod.exists] at h
        obtain ⟨first, second, hcut, rfl, rfl⟩ := h
        obtain ⟨hText, hMark⟩ := ih hcut
        exact ⟨by rw [hText]; rfl, by simp [hMark, Ne.symm hc]⟩

end ControlUnit.Text
