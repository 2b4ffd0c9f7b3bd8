import ControlUnit.Text.CharSet

/-!
# Blank characters

Which characters separate words of text, and the two operations that rest on
it: trimming a text at both ends and splitting it into its words.

Blank is the Unicode property `White_Space`, not the handful of characters that
`Char.isWhitespace` knows, so a no-break space or an ideographic space around an
operand is trimmed like any other.

## Main results

* `isBlank_of_isWhitespace` — every character the core library calls white space
  is blank.
* `length_trim_le` — trimming never lengthens a text.
-/

namespace ControlUnit.Text

/-- The Unicode property `White_Space`. -/
def whiteSpace : CharSet where
  ranges :=
    [(0x09, 0x0D), (0x20, 0x20), (0x85, 0x85), (0xA0, 0xA0), (0x1680, 0x1680),
     (0x2000, 0x200A), (0x2028, 0x2029), (0x202F, 0x202F), (0x205F, 0x205F), (0x3000, 0x3000)]

/-- Whether a character separates words. -/
def isBlank (c : Char) : Bool := whiteSpace.contains c

/-- A text without the blank characters at its two ends. -/
def trim (text : List Char) : List Char :=
  ((text.dropWhile isBlank).reverse.dropWhile isBlank).reverse

/-- The maximal runs of characters that are not blank, in order. -/
def words (text : List Char) : List (List Char) :=
  (text.splitOnP isBlank).filter fun word => !word.isEmpty

/-- Whether a text holds blank characters only. -/
def allBlank (text : List Char) : Bool := text.all isBlank

/-- The core library's white space is blank. -/
theorem isBlank_of_isWhitespace {c : Char} (h : c.isWhitespace = true) : isBlank c = true := by
  simp only [Char.isWhitespace, Bool.or_eq_true, decide_eq_true_eq] at h
  rcases h with ((rfl | rfl) | rfl) | rfl <;> decide

private theorem length_dropWhile_le (p : Char → Bool) (text : List Char) :
    (text.dropWhile p).length ≤ text.length :=
  (List.dropWhile_suffix p).length_le

/-- Trimming never lengthens a text. -/
theorem length_trim_le (text : List Char) : (trim text).length ≤ text.length := by
  have hRight := length_dropWhile_le isBlank (text.dropWhile isBlank).reverse
  have hLeft := length_dropWhile_le isBlank text
  simp only [trim, List.length_reverse] at *
  omega

end ControlUnit.Text
