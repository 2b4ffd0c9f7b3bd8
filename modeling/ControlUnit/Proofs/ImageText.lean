import ControlUnit.Proofs.ImageRoundTrip
import ControlUnit.Proofs.Spelling

/-!
# The language of images

Which texts are images, said without the reader.  The content of a line, which is what stands
before its comment without the blanks at its ends, says nothing, a word or the range of a
subroutine (`Image.Says`).  A text is an image if the content of each line says something, and the
program that they say together can be loaded.

A text that is none is refused for its first malformed line, wherever that stands and whatever
the program would have been, and only without one for its program.

## Main results

* `Text.words_eq_iff` — the words of a text are the parts that blanks separate.
* `Image.entry_eq_ok_iff` — what a line says.
* `Image.read_cases` — what can become of a text.
* `Image.read_language` — which texts are images, and for what the others are refused.
-/

namespace ControlUnit

namespace Text

/-! ## Parts between blanks -/

/-- The text is a number of parts in order, with blanks between them, and maybe before the first
and behind the last. -/
inductive Parts : List Char → List (List Char) → Prop
  | none {blanks : List Char} (hBlanks : allBlank blanks = true) : Parts blanks []
  | part {blanks part rest : List Char} {parts : List (List Char)}
      (hBlanks : allBlank blanks = true) (hNonempty : part ≠ [])
      (hPart : ∀ c ∈ part, isBlank c = false) (hEnd : ∀ c ∈ rest.head?, isBlank c = true)
      (hRest : Parts rest parts) : Parts (blanks ++ (part ++ rest)) (part :: parts)

variable {text : List Char} {parts : List (List Char)}

theorem words_cons_of_isBlank {c : Char} (h : isBlank c = true) (text : List Char) :
    words (c :: text) = words text := by
  rw [words, List.splitOnP_cons_eq_if_modifyHead, if_pos h]
  exact List.filter_cons_of_neg (by simp)

theorem words_allBlank_append {blanks : List Char} (h : allBlank blanks = true)
    (text : List Char) : words (blanks ++ text) = words text :=
  eq_of_allBlank_append (fun _ text hBlank => words_cons_of_isBlank hBlank text) h text

theorem Parts.words (h : Parts text parts) : words text = parts := by
  induction h with
  | @none blanks hBlanks =>
      calc Text.words blanks
        _ = Text.words (blanks ++ []) := by rw [List.append_nil]
        _ = Text.words [] := words_allBlank_append hBlanks []
        _ = [] := rfl
  | @part blanks part rest parts hBlanks hNonempty hPart hEnd hRest ih =>
      rw [words_allBlank_append hBlanks]
      cases rest with
      | nil =>
          obtain rfl : [] = parts := ih
          rw [List.append_nil, words_singleton hNonempty hPart]
      | cons c more =>
          have hBlank : isBlank c = true := hEnd c rfl
          rw [Text.words_append hNonempty hPart hBlank, ← ih, words_cons_of_isBlank hBlank]

theorem Parts.cons_of_isBlank {c : Char} (hBlank : isBlank c = true) (h : Parts text parts) :
    Parts (c :: text) parts := by
  have hMore : ∀ {blanks}, allBlank blanks = true → allBlank (c :: blanks) = true := by
    intro blanks hBlanks
    rw [allBlank, List.all_cons, hBlank]
    exact hBlanks
  cases h with
  | none hBlanks => exact .none (hMore hBlanks)
  | part hBlanks hNonempty hPart hEnd hRest =>
      exact .part (hMore hBlanks) hNonempty hPart hEnd hRest

theorem Parts.first {part rest : List Char} (hNonempty : part ≠ [])
    (hPart : ∀ c ∈ part, isBlank c = false) (hEnd : ∀ c ∈ rest.head?, isBlank c = true)
    (hRest : Parts rest parts) : Parts (part ++ rest) (part :: parts) := by
  have hNoBlanks : allBlank [] = true := rfl
  exact .part hNoBlanks hNonempty hPart hEnd hRest

/-- A character that is not blank is a part of its own, or belongs to the one that it stands
before. -/
theorem Parts.exists_cons {c : Char} (hNot : isBlank c = false) (h : Parts text parts) :
    ∃ more, Parts (c :: text) more := by
  have hAlone : (∀ d ∈ text.head?, isBlank d = true) → ∃ more, Parts ([c] ++ text) more :=
    fun hEnd => ⟨_, .first (List.cons_ne_nil c []) (by simpa using hNot) hEnd h⟩
  cases h with
  | none hBlanks =>
      exact hAlone fun d hMem => List.all_eq_true.1 hBlanks d (List.mem_of_mem_head? hMem)
  | @part blanks part rest parts hBlanks hNonempty hPart hEnd hRest =>
      cases blanks with
      | nil =>
          have hLonger : ∀ d ∈ c :: part, isBlank d = false := by simpa [hNot] using hPart
          exact ⟨_, .first (List.cons_ne_nil c part) hLonger hEnd hRest⟩
      | cons blank more =>
          apply hAlone
          rintro d ⟨⟩
          exact List.all_eq_true.1 hBlanks blank List.mem_cons_self

theorem exists_parts (text : List Char) : ∃ parts, Parts text parts := by
  induction text with
  | nil => exact ⟨[], .none rfl⟩
  | cons c rest ih =>
      obtain ⟨parts, hParts⟩ := ih
      by_cases hBlank : isBlank c = true
      · exact ⟨parts, hParts.cons_of_isBlank hBlank⟩
      · exact hParts.exists_cons (Bool.eq_false_iff.2 hBlank)

/-- The words of a text are its parts between blanks. -/
theorem words_eq_iff : words text = parts ↔ Parts text parts := by
  refine ⟨?_, Parts.words⟩
  rintro rfl
  obtain ⟨parts, hParts⟩ := exists_parts text
  rwa [hParts.words]

end Text

namespace Image

open Text

/-! ## What a line says -/

/-- What the content of a line says: nothing, a word of at most six characters, or a range with
a name and two addresses. -/
inductive Says : List Char → Entry → Prop
  | blank : Says [] .blank
  | word {text : List Char} {n : Nat} (hLength : text.length ≤ 6) (hNumber : Unsigned 16 text n) :
      Says text (.word (.ofNat n))
  | subroutine {declaration name start stop : List Char} {first last : Nat}
      (hParts : Parts declaration [name, start, stop])
      (hStart : Unsigned 10 start first) (hFirst : first ≤ 65535)
      (hStop : Unsigned 10 stop last) (hLast : last ≤ 65535) :
      Says ('@' :: declaration) (.subroutine ⟨String.ofList name, .ofNat first, .ofNat last⟩)

variable {text line : List Char} {said : Entry}

theorem word?_eq_some_iff {bits : UInt32} :
    word? text = some bits ↔ text.length ≤ 6 ∧ ∃ n, Unsigned 16 text n ∧ .ofNat n = bits := by
  rw [word?, Option.ite_none_right_eq_some, Option.map_eq_some_iff]
  simp only [wordWidth, unsigned?_eq_some_iff (Nat.le_refl 16)]

theorem address?_eq_some_iff {address : UInt16} :
    address? text = some address ↔ ∃ n, Unsigned 10 text n ∧ n ≤ 65535 ∧ .ofNat n = address := by
  have hNumber : ∀ n, unsigned? 10 text = some n ↔ Unsigned 10 text n :=
    fun n => unsigned?_eq_some_iff (by decide)
  simp only [address?, ← hNumber]
  cases unsigned? 10 text with
  | none => simp
  | some n =>
      simp only [Option.ite_none_right_eq_some, Option.some.injEq, exists_eq_left',
        UInt16.size, Nat.lt_succ_iff]

theorem range_eq_ok_iff {declaration : List Char} {found : Subroutine} :
    range declaration = .ok found ↔ Says ('@' :: declaration) (.subroutine found) := by
  constructor
  · intro h
    rw [range] at h
    split at h
    · rename_i name start stop hWords
      split at h
      · rename_i first last hFirst hLast
        obtain ⟨n, hStart, hLess, rfl⟩ := address?_eq_some_iff.1 hFirst
        obtain ⟨m, hStop, hLess', rfl⟩ := address?_eq_some_iff.1 hLast
        cases h
        exact .subroutine (words_eq_iff.1 hWords) hStart hLess hStop hLess'
      · cases h
      · cases h
    · cases h
  · intro h
    cases h with
    | subroutine hParts hStart hFirst hStop hLast =>
        rw [range, words_eq_iff.2 hParts]
        simp only [address?_eq_some_iff.2 ⟨_, hStart, hFirst, rfl⟩,
          address?_eq_some_iff.2 ⟨_, hStop, hLast, rfl⟩]

/-- No number begins with the mark of a range. -/
theorem not_unsigned_at {declaration : List Char} {n : Nat} :
    ¬Unsigned 16 ('@' :: declaration) n := by
  intro h
  cases h with
  | bare hDigits => exact hDigits.not_mem (Nat.le_refl 16) (by decide) List.mem_cons_self

/-- A line says what its content says, and is malformed if that says nothing at all. -/
theorem entry_eq_ok_iff : entry line = .ok said ↔ Says (content line) said := by
  unfold entry
  split
  · rename_i hNil
    rw [hNil, Except.ok.injEq]
    constructor
    · rintro rfl
      exact .blank
    · intro h
      cases h with
      | blank => rfl
      | word hLength hNumber => exact absurd rfl (hNumber.ne_nil)
  · rename_i declaration hRange
    rw [hRange]
    constructor
    · intro h
      obtain ⟨found, hFound, rfl⟩ := Assembly.exists_of_map_eq_ok h
      exact range_eq_ok_iff.1 hFound
    · intro h
      cases h with
      | word hLength hNumber => exact absurd hNumber not_unsigned_at
      | subroutine hParts hStart hFirst hStop hLast =>
          rw [range_eq_ok_iff.2 (.subroutine hParts hStart hFirst hStop hLast)]
          rfl
  · rename_i hNonempty hNoRange
    generalize content line = text at hNonempty hNoRange
    constructor
    · intro h
      cases hWord : word? text with
      | none => simp [hWord] at h
      | some bits =>
          rw [hWord] at h
          cases h
          obtain ⟨hLength, n, hNumber, rfl⟩ := word?_eq_some_iff.1 hWord
          exact .word hLength hNumber
    · intro h
      cases h with
      | blank => exact absurd rfl hNonempty
      | word hLength hNumber => rw [word?_eq_some_iff.2 ⟨hLength, _, hNumber, rfl⟩]
      | subroutine hParts hStart hFirst hStop hLast => exact absurd rfl (hNoRange _)

/-! ## What the lines of a text say -/

theorem map_entry_eq_iff {lines : List (List Char)} {found : List Entry} :
    lines.map entry = found.map .ok ↔ List.Forall₂ Says (lines.map content) found := by
  rw [List.forall₂_map_left_iff, ← List.forall₂_eq_eq_eq, List.forall₂_map_left_iff,
    List.forall₂_map_right_iff]
  simp only [entry_eq_ok_iff]

/-- Either every line says something, or there is a first one that does not. -/
theorem wellFormed_or_malformed (lines : List (List Char)) :
    (∃ found : List Entry, lines.map entry = found.map .ok) ∨
      ∃ before line behind cause, lines = before ++ line :: behind ∧
        (∀ earlier ∈ before, ∃ said, entry earlier = .ok said) ∧ entry line = .error cause := by
  induction lines with
  | nil => exact .inl ⟨[], rfl⟩
  | cons first rest ih =>
      cases hFirst : entry first with
      | error cause => exact .inr ⟨[], first, rest, cause, rfl, by simp, hFirst⟩
      | ok said =>
          rcases ih with ⟨found, hFound⟩ | ⟨before, line, behind, cause, rfl, hBefore, hLine⟩
          · exact .inl ⟨said :: found, by rw [List.map_cons, hFirst, hFound, List.map_cons]⟩
          · have hEarlier := List.forall_mem_cons.2 ⟨⟨said, hFirst⟩, hBefore⟩
            exact .inr ⟨first :: before, line, behind, cause, rfl, hEarlier, hLine⟩

/-- Lines are refused for the first malformed one, whatever stands behind it. -/
theorem entries_eq_error {before behind : List (List Char)} {line : List Char} {cause : LineError}
    (hBefore : ∀ earlier ∈ before, ∃ said, entry earlier = .ok said)
    (hLine : entry line = .error cause) (start : Nat) :
    entries ((before ++ line :: behind).zipIdx start)
      = .error (.malformedLine (before.length + start) cause) := by
  induction before generalizing start with
  | nil => simp [entries, hLine]
  | cons first rest ih =>
      obtain ⟨⟨said, hSaid⟩, hRest⟩ := List.forall_mem_cons.1 hBefore
      rw [List.cons_append, List.zipIdx_cons, entries, hSaid]
      simp only [ih hRest, List.length_cons, Nat.add_assoc, Nat.add_comm 1]

theorem read_of_check_eq_error {text : String} {found : List Entry} {cause : ProgramError}
    (h : (Text.lines text.toList).map entry = found.map .ok)
    (hCheck : (ofEntries found).check = .error cause) : read text = .error (.program cause) := by
  simp only [read, entries_numberedLines_eq_ok_iff.2 h, hCheck]

theorem read_of_malformed {text : String} {before behind : List (List Char)} {line : List Char}
    {cause : LineError} (hSplit : Text.lines text.toList = before ++ line :: behind)
    (hBefore : ∀ earlier ∈ before, ∃ said, entry earlier = .ok said)
    (hLine : entry line = .error cause) :
    read text = .error (.malformedLine (before.length + 1) cause) := by
  rw [read, numberedLines, hSplit, entries_eq_error hBefore hLine]

/-- A text is read, or refused for its program, or for its first malformed line. -/
theorem read_cases (text : String) :
    (∃ found, (Text.lines text.toList).map entry = found.map .ok ∧
      (ofEntries found).check = .ok () ∧ read text = .ok (ofEntries found)) ∨
    (∃ found cause, (Text.lines text.toList).map entry = found.map .ok ∧
      (ofEntries found).check = .error cause ∧ read text = .error (.program cause)) ∨
    ∃ before line behind cause, Text.lines text.toList = before ++ line :: behind ∧
      (∀ earlier ∈ before, ∃ said, entry earlier = .ok said) ∧ entry line = .error cause ∧
      read text = .error (.malformedLine (before.length + 1) cause) := by
  rcases wellFormed_or_malformed (Text.lines text.toList) with
    ⟨found, hFound⟩ | ⟨before, line, behind, cause, hSplit, hBefore, hLine⟩
  · cases hCheck : (ofEntries found).check with
    | ok _ =>
        have hRead := read_eq_ok_iff.2 ⟨found, hFound, rfl, hCheck⟩
        exact .inl ⟨found, hFound, hCheck, hRead⟩
    | error cause =>
        have hRead := read_of_check_eq_error hFound hCheck
        exact .inr (.inl ⟨found, cause, hFound, hCheck, hRead⟩)
  · have hRead := read_of_malformed hSplit hBefore hLine
    exact .inr (.inr ⟨before, line, behind, cause, hSplit, hBefore, hLine, hRead⟩)

/-! ## The language -/

/-- A line that says something. -/
def WellFormed (line : List Char) : Prop := ∃ said, Says (content line) said

theorem wellFormed_iff : WellFormed line ↔ ∃ said, entry line = .ok said := by
  simp only [WellFormed, entry_eq_ok_iff]

theorem not_wellFormed_iff : ¬WellFormed line ↔ ∃ cause, entry line = .error cause := by
  rw [wellFormed_iff]
  cases entry line <;> simp

/-- **The language of images**: a text is read exactly if the content of every line says
something and the program with these words and ranges, each in the order of the lines, can be
loaded.  It is refused for a line exactly if that is the first malformed one, and for its program
exactly if no line is malformed and the program cannot be loaded. -/
theorem read_language (text : String) :
    let lines := Text.lines text.toList
    (∀ program, read text = .ok program ↔
      ∃ said, List.Forall₂ Says (lines.map content) said ∧
        program = ⟨said.filterMap Entry.word?, said.filterMap Entry.subroutine?⟩ ∧
        program.check = .ok ()) ∧
    (∀ number, (∃ cause, read text = .error (.malformedLine number cause)) ↔
      ∃ before line behind, lines = before ++ line :: behind ∧ number = before.length + 1 ∧
        (∀ earlier ∈ before, WellFormed earlier) ∧ ¬WellFormed line) ∧
    ∀ cause, read text = .error (.program cause) ↔
      ∃ said, List.Forall₂ Says (lines.map content) said ∧
        (ofEntries said).check = .error cause := by
  intro lines
  simp only [← map_entry_eq_iff, wellFormed_iff]
  refine ⟨fun program => read_eq_ok_iff, fun number => ⟨?_, ?_⟩, fun cause => ⟨?_, ?_⟩⟩
  · rintro ⟨cause, hRefused⟩
    rcases read_cases text with ⟨found, -, -, hRead⟩ | ⟨found, cause', -, -, hRead⟩ |
        ⟨before, line, behind, cause', hSplit, hBefore, hLine, hRead⟩
    · cases hRefused.symm.trans hRead
    · cases hRefused.symm.trans hRead
    · cases hRefused.symm.trans hRead
      exact ⟨before, line, behind, hSplit, rfl, hBefore, by simp [hLine]⟩
  · rintro ⟨before, line, behind, hSplit, rfl, hBefore, hLine⟩
    obtain ⟨cause, hCause⟩ := not_wellFormed_iff.1 (wellFormed_iff.not.2 hLine)
    exact ⟨cause, read_of_malformed hSplit hBefore hCause⟩
  · intro hRefused
    rcases read_cases text with ⟨found, -, -, hRead⟩ | ⟨found, cause', hFound, hCheck, hRead⟩ |
        ⟨before, line, behind, cause', -, -, -, hRead⟩
    · cases hRefused.symm.trans hRead
    · cases hRefused.symm.trans hRead
      exact ⟨found, hFound, hCheck⟩
    · cases hRefused.symm.trans hRead
  · rintro ⟨found, hFound, hCheck⟩
    exact read_of_check_eq_error hFound hCheck

/-- The first line alone could not be loaded, but the second one is no line of an image. -/
example : read "@none 3 3\n0x1F" = .error (.malformedLine 2 (.notAWord "0x1F")) := rfl

end Image

end ControlUnit
