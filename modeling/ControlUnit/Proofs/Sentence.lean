import ControlUnit.Proofs.Trimming

/-!
# Sentences

A line of a listing is a mnemonic with its operands, a blank before each operand and a
comma between two of them.  Read as a line of source text it is taken apart into the
mnemonic and the operands it was written from, whatever stands in the lines around it.

## Main results

* `Text.lines_ofLines` — lines written one after another are read as those lines.
* `Assembly.Layout.line_of_content` — a line that says a sentence is read as the
  statement of its mnemonic and operands, and nothing else.
-/

namespace ControlUnit

namespace Text

theorem lines_append_lineFeed {text : List Char} (h : '\n' ∉ text) (rest : List Char) :
    lines (text ++ '\n' :: rest) = text :: lines rest := by
  induction text with
  | nil => simp [lines]
  | cons c text ih =>
      have hHead : c ≠ '\n' := by
        rintro rfl
        simp at h
      have hTail : '\n' ∉ text := fun hMem => h (by simp [hMem])
      rw [List.cons_append, lines, if_neg hHead, ih hTail]

/-- Lines written one after another are read as those lines. -/
theorem lines_ofLines {texts : List String} (h : ∀ text ∈ texts, '\n' ∉ text.toList) :
    lines (ofLines texts).toList = texts.map String.toList := by
  rw [ofLines, String.toList_join]
  induction texts with
  | nil => rfl
  | cons text rest ih =>
      have hText : '\n' ∉ text.toList := h text (by simp)
      have hRest : ∀ text ∈ rest, '\n' ∉ text.toList := fun other hMem => h other (by simp [hMem])
      have hFeed : ("\n" : String).toList = ['\n'] := rfl
      rw [List.map_cons, List.flatMap_cons, String.toList_append, hFeed, List.append_assoc,
        List.singleton_append, lines_append_lineFeed hText, ih hRest, List.map_cons]

/-! ## What a line says -/

section Content

variable {text line : List Char}

/-- What a line says is free of comments. -/
theorem not_mem_content : commentMark ∉ content line := by
  intro hMem
  have hNot := List.all_eq_true.1 List.all_takeWhile commentMark (mem_of_mem_trim hMem)
  simp at hNot

theorem takeWhile_append_of_not_mem (h : commentMark ∉ text) (rest : List Char) :
    (text ++ rest).takeWhile (fun c => c != commentMark)
      = text ++ rest.takeWhile fun c => c != commentMark :=
  List.takeWhile_append_of_pos fun _ hMem => bne_iff_ne.2 fun hMark => h (hMark ▸ hMem)

/-- What stands before a comment is all that a line says. -/
theorem content_append_comment (h : commentMark ∉ text) (comment : List Char) :
    content (text ++ commentMark :: comment) = trim text := by
  rw [content, takeWhile_append_of_not_mem h, List.takeWhile_cons_of_neg (by simp), List.append_nil]

theorem content_of_not_mem (h : commentMark ∉ text) : content text = trim text := by
  have hAll := takeWhile_append_of_not_mem h []
  rw [List.append_nil, List.takeWhile_nil, List.append_nil] at hAll
  rw [content, hAll]

theorem lineFeed_not_mem (h : ∀ c ∈ text, isBlank c = false) : '\n' ∉ text := by
  intro hMem
  have hFeed : isBlank '\n' = true := by decide
  rw [h _ hMem] at hFeed
  cases hFeed

end Content

/-- A text is cut at the first mark. -/
theorem cut?_append {mark : Char} {before : List Char} (h : mark ∉ before) (rest : List Char) :
    cut? mark (before ++ mark :: rest) = some (before, rest) := by
  induction before with
  | nil => simp [cut?]
  | cons c more ih =>
      rw [List.mem_cons, not_or] at h
      rw [List.cons_append, cut?, if_neg (Ne.symm h.1), ih h.2]
      rfl

theorem mem_intercalate {separator c : Char} {pieces : List (List Char)}
    (h : c ∈ [separator].intercalate pieces) : c = separator ∨ ∃ piece ∈ pieces, c ∈ piece := by
  induction pieces with
  | nil => simp at h
  | cons first rest ih =>
      cases rest with
      | nil => exact .inr ⟨first, by simp, by simpa using h⟩
      | cons second more =>
          rw [List.intercalate_cons_cons, List.append_assoc, List.mem_append, List.mem_append,
            List.mem_singleton] at h
          rcases h with hFirst | hSeparator | hRest
          · exact .inr ⟨first, by simp, hFirst⟩
          · exact .inl hSeparator
          · rcases ih hRest with hEq | ⟨piece, hPiece, hMem⟩
            · exact .inl hEq
            · exact .inr ⟨piece, by simp [hPiece], hMem⟩

end Text

namespace Assembly

open Text

/-- A mnemonic with its operands, all of them plain. -/
structure Sentence where
  mnemonic : String
  operands : List (List Char)
  plainMnemonic : Plain mnemonic.toList
  plainOperands : ∀ operand ∈ operands, Plain operand

namespace Sentence

/-- The operands of a sentence, as listings write them. -/
def operandList (sentence : Sentence) : List Char :=
  [','].intercalate (sentence.operands.map fun operand => ' ' :: operand)

def text (sentence : Sentence) : List Char := sentence.mnemonic.toList ++ sentence.operandList

variable (sentence : Sentence)

/-! ## The characters of a sentence -/

/-- Of marks and blanks, only the comma and the space are in a sentence. -/
theorem not_mem_text {c : Char} (hPlain : isPlain c = false) (hComma : c ≠ ',') (hSpace : c ≠ ' ') :
    c ∉ sentence.text := by
  intro hMem
  rw [text, List.mem_append] at hMem
  rcases hMem with hMnemonic | hOperands
  · simp [sentence.plainMnemonic.isPlain c hMnemonic] at hPlain
  · rcases mem_intercalate hOperands with rfl | ⟨piece, hPiece, hMem⟩
    · exact hComma rfl
    · obtain ⟨operand, hOperand, rfl⟩ := List.mem_map.1 hPiece
      rcases List.mem_cons.1 hMem with rfl | hMem
      · exact hSpace rfl
      · simp [(sentence.plainOperands operand hOperand).isPlain c hMem] at hPlain

theorem isBlank_of_mem_head?_operandList : ∀ c ∈ sentence.operandList.head?, isBlank c = true := by
  rw [operandList]
  cases sentence.operands with
  | nil => simp
  | cons first rest =>
      have hHead : ([','].intercalate ((first :: rest).map fun operand => ' ' :: operand)).head?
          = some ' ' := by
        cases rest <;> simp [List.intercalate_cons_cons]
      rw [hHead]
      rintro c ⟨⟩
      decide

theorem isBlank_of_mem_getLast?_operandList :
    ∀ c ∈ sentence.operandList.getLast?, isBlank c = false := by
  rw [operandList]
  have hPlain := sentence.plainOperands
  generalize sentence.operands = operands at hPlain
  induction operands with
  | nil => simp
  | cons first rest ih =>
      have hFirst : Plain first := hPlain first (by simp)
      intro c hLast
      cases rest with
      | nil =>
          rw [List.map_singleton, List.intercalate_singleton,
            List.getLast?_cons_of_ne_nil hFirst.ne_nil] at hLast
          exact hFirst.notBlank c (List.mem_of_mem_getLast? hLast)
      | cons second more =>
          rw [List.map_cons, List.map_cons, List.intercalate_cons_cons, List.getLast?_append,
            ← List.map_cons, Option.or_of_isSome (by simp)] at hLast
          exact ih (fun operand hMem => hPlain operand (by simp [hMem])) c hLast

theorem trim_text : trim sentence.text = sentence.text := by
  apply trim_eq_self
  · intro c hHead
    have hFirst : c ∈ sentence.mnemonic.toList.head? := by
      rwa [text, List.head?_append,
        Option.or_of_isSome (by simp [sentence.plainMnemonic.ne_nil])] at hHead
    exact sentence.plainMnemonic.notBlank c (List.mem_of_mem_head? hFirst)
  · intro c hLast
    rw [text, List.getLast?_append, Option.mem_def, Option.or_eq_some_iff] at hLast
    rcases hLast with hLast | ⟨-, hLast⟩
    · exact sentence.isBlank_of_mem_getLast?_operandList c hLast
    · exact sentence.plainMnemonic.notBlank c (List.mem_of_mem_getLast? hLast)

/-- A line that holds nothing but a sentence says it. -/
theorem content_text : content sentence.text = sentence.text := by
  have hComment : commentMark ∉ sentence.text :=
    sentence.not_mem_text (by decide) (by decide) (by decide)
  rw [content_of_not_mem hComment, trim_text]

/-! ## Taking it apart -/

theorem takeWhile_text :
    sentence.text.takeWhile (fun c => !isBlank c) = sentence.mnemonic.toList :=
  takeWhile_word_append sentence.plainMnemonic.notBlank sentence.isBlank_of_mem_head?_operandList

theorem dropWhile_text :
    sentence.text.dropWhile (fun c => !isBlank c) = sentence.operandList :=
  dropWhile_word_append sentence.plainMnemonic.notBlank sentence.isBlank_of_mem_head?_operandList

/-- The operands are found between the commas. -/
theorem operandTexts_operandList : operandTexts sentence.operandList = sentence.operands := by
  have hComma : ∀ piece ∈ sentence.operands.map (fun operand => ' ' :: operand), ',' ∉ piece := by
    intro piece hPiece
    obtain ⟨operand, hOperand, rfl⟩ := List.mem_map.1 hPiece
    have hNot : ',' ∉ operand := (sentence.plainOperands operand hOperand).not_mem (by decide)
    simp [hNot]
  have hTrim : ∀ operand ∈ sentence.operands,
      (trim ∘ fun operand => ' ' :: operand) operand = id operand := by
    intro operand hOperand
    show trim (' ' :: operand) = operand
    rw [trim_cons_of_isBlank (by decide), (sentence.plainOperands operand hOperand).trim]
  have hFilter : sentence.operands.filter (fun operand => !operand.isEmpty) = sentence.operands := by
    rw [List.filter_eq_self]
    intro operand hOperand
    simp [(sentence.plainOperands operand hOperand).ne_nil]
  rw [operandTexts, operandList]
  cases hOperands : sentence.operands with
  | nil => rfl
  | cons first rest =>
      rw [← hOperands, List.splitOn_intercalate ',' hComma (by simp [hOperands]), List.map_map,
        List.map_congr_left hTrim, List.map_id, hFilter]

/-- The statement of a sentence is that of its mnemonic and operands. -/
theorem statement_ofText :
    Statement.ofText sentence.text = Statement.ofMnemonic sentence.mnemonic sentence.operands := by
  have hEquals : cut? '=' sentence.text = none :=
    cut?_eq_none_iff.2 (sentence.not_mem_text (by decide) (by decide) (by decide))
  rw [Statement.ofText, hEquals]
  simp only [takeWhile_text, dropWhile_text, operandTexts_operandList, String.ofList_toList]

end Sentence

/-- A line that says a sentence is read as the statement of its mnemonic and operands. -/
theorem Layout.line_of_content {line : List Char} {sentence : Sentence}
    (hContent : content line = sentence.text) (layout : Layout) (number : Nat) :
    layout.line number line
      = match Statement.ofMnemonic sentence.mnemonic sentence.operands with
        | .error cause => .error cause
        | .ok statement => layout.statement number statement := by
  have hColon : cut? ':' sentence.text = none :=
    cut?_eq_none_iff.2 (sentence.not_mem_text (by decide) (by decide) (by decide))
  have hNonempty : sentence.text.isEmpty = false := by
    simp [Sentence.text, sentence.plainMnemonic.ne_nil]
  have hRead : layout.line number line = layout.statement? number sentence.text := by
    simp only [Layout.line, SourceLine.ofText, hContent, hColon, Layout.placeLabel?]
  rw [hRead, Layout.statement?, hNonempty, sentence.statement_ofText]
  cases Statement.ofMnemonic sentence.mnemonic sentence.operands with
  | error cause => rfl
  | ok statement => rfl

end Assembly

end ControlUnit
