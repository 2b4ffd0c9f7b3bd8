import ControlUnit.Proofs.SourceText
import ControlUnit.Proofs.Trimming

/-!
# Operand lists

The operands of a statement stand between the commas behind its mnemonic.  Pieces that are blank
are no operands: they are dropped before the operands are counted.  So a comma before the first
operand, behind the last one, or a second one between two operands makes no difference to what
the statement says, and then none to what becomes of the source text.

How many operands a mnemonic takes is said by a table here (`operandCounts`), and a line with a
mnemonic by the texts that it puts together (`Writes`), not by the way it is taken apart.

## Main results

* `operandTexts_append_comma` — the operands of a list are those of its parts.
* `operandCount?_of_ofMnemonic` — a statement has as many operands as its mnemonic takes.
* `operandLists_counted` — the operand lists of source texts that assemble.
-/

namespace ControlUnit.Assembly

open Text

/-! ## Pieces between commas -/

/-- The pieces of an operand list that are not blank. -/
def writtenOperands (operands : List Char) : List (List Char) :=
  (operands.splitOn ',').filter fun piece => !allBlank piece

theorem operandTexts_eq_map (operands : List Char) :
    operandTexts operands = (writtenOperands operands).map trim := by
  have hSame : ((fun operand : List Char => !operand.isEmpty) ∘ trim)
      = fun piece => !allBlank piece := by
    funext piece
    rw [Function.comp_apply, isEmpty_trim]
  rw [operandTexts, List.filter_map, hSame, writtenOperands]

/-- The operands of a list are those before a comma and those behind it. -/
theorem operandTexts_append_comma (before behind : List Char) :
    operandTexts (before ++ ',' :: behind) = operandTexts before ++ operandTexts behind := by
  rw [operandTexts, List.splitOn_append_cons_self, List.map_append, List.filter_append]
  rfl

theorem operandTexts_of_not_mem {operands : List Char} (h : ',' ∉ operands) :
    operandTexts operands = [trim operands].filter fun operand => !operand.isEmpty := by
  rw [operandTexts, List.splitOn_eq_singleton h, List.map_singleton]

theorem operandTexts_of_allBlank {blanks : List Char} (h : allBlank blanks = true) :
    operandTexts blanks = [] := by
  rw [operandTexts_of_not_mem (not_mem_of_allBlank h (by decide))]
  simp [isEmpty_trim, h]

theorem operandTexts_cons_of_isBlank {c : Char} (operands : List Char) (h : isBlank c = true) :
    operandTexts (c :: operands) = operandTexts operands := by
  have hComma : ¬(c == ',') = true := by
    rw [beq_iff_eq]
    exact ne_of_isBlank h (by decide)
  rw [operandTexts, operandTexts, List.splitOn_cons_eq_if_modifyHead, if_neg hComma]
  cases operands.splitOn ',' with
  | nil => rfl
  | cons piece more =>
      rw [List.modifyHead_cons, List.map_cons, List.map_cons, trim_cons_of_isBlank h]

theorem operandTexts_concat_of_isBlank {c : Char} (operands : List Char) (h : isBlank c = true) :
    operandTexts (operands ++ [c]) = operandTexts operands := by
  have hLast : ∀ {piece : List Char}, ',' ∉ piece →
      operandTexts (piece ++ [c]) = operandTexts piece := by
    intro piece hPiece
    have hNot : ',' ∉ piece ++ [c] := by
      simpa [hPiece] using (ne_of_isBlank h (by decide)).symm
    rw [operandTexts_of_not_mem hNot, operandTexts_of_not_mem hPiece, trim_append_of_isBlank h]
  by_cases hComma : ',' ∈ operands
  · -- Only the piece behind the last comma is another one.
    obtain ⟨behind, before, hOperands, hNot⟩ :=
      List.eq_append_cons_of_mem (List.mem_reverse.2 hComma)
    have hSplit : operands = before.reverse ++ ',' :: behind.reverse := by
      rw [← List.reverse_reverse operands, hOperands]
      simp
    have hBehind : ',' ∉ behind.reverse := by simpa using hNot
    rw [hSplit, List.append_assoc, List.cons_append, operandTexts_append_comma, hLast hBehind,
      operandTexts_append_comma]
  · exact hLast hComma

/-! ## Commas that make no operand -/

/-- The second operand list is the first one without a comma that stands before all operands,
behind all operands, or right behind another comma. -/
inductive ExtraComma : List Char → List Char → Prop
  | leading {blanks behind : List Char} (hBlank : allBlank blanks = true) :
      ExtraComma (blanks ++ ',' :: behind) (blanks ++ behind)
  | trailing {before blanks : List Char} (hBlank : allBlank blanks = true) :
      ExtraComma (before ++ ',' :: blanks) (before ++ blanks)
  | doubled {before blanks behind : List Char} (hBlank : allBlank blanks = true) :
      ExtraComma (before ++ ',' :: (blanks ++ ',' :: behind)) (before ++ ',' :: (blanks ++ behind))

theorem ExtraComma.operandTexts_eq {operands tidied : List Char} (h : ExtraComma operands tidied) :
    operandTexts operands = operandTexts tidied := by
  have hBefore : ∀ {blanks : List Char} (behind : List Char), allBlank blanks = true →
      operandTexts (blanks ++ ',' :: behind) = operandTexts (blanks ++ behind) := by
    intro blanks behind hBlank
    rw [operandTexts_append_comma, operandTexts_of_allBlank hBlank, List.nil_append,
      eq_of_allBlank_append (fun c => operandTexts_cons_of_isBlank) hBlank]
  cases h with
  | leading hBlank => exact hBefore _ hBlank
  | @trailing before blanks hBlank =>
      rw [operandTexts_append_comma, operandTexts_of_allBlank hBlank, List.append_nil,
        eq_of_append_allBlank (fun c => operandTexts_concat_of_isBlank) hBlank]
  | @doubled before blanks behind hBlank =>
      rw [operandTexts_append_comma, hBefore behind hBlank, operandTexts_append_comma]

/-! ## Lines with a mnemonic -/

/-- The line says, behind its label, a mnemonic and operands, and defines no constant. -/
structure Writes (line : List Char) (label? : Option (List Char))
    (mnemonic operands : List Char) : Prop where
  reads : SourceLine.ofText line = ⟨label?, trim (mnemonic ++ operands)⟩
  nonempty : mnemonic ≠ []
  notBlank : ∀ c ∈ mnemonic, isBlank c = false
  blank : ∀ c ∈ operands.head?, isBlank c = true
  noEquals : '=' ∉ mnemonic ++ operands

instance (line : List Char) (label? : Option (List Char)) (mnemonic operands : List Char) :
    Decidable (Writes line label? mnemonic operands) :=
  decidable_of_iff
    (SourceLine.ofText line = ⟨label?, trim (mnemonic ++ operands)⟩ ∧ mnemonic ≠ [] ∧
      mnemonic.all (fun c => !isBlank c) = true ∧ operands.head?.all isBlank = true ∧
      '=' ∉ mnemonic ++ operands)
    ⟨fun ⟨hReads, hNonempty, hNotBlank, hBlank, hNoEquals⟩ =>
        ⟨hReads, hNonempty, by simpa using hNotBlank, by simpa [Option.all_eq_true] using hBlank,
          hNoEquals⟩,
      fun h => ⟨h.reads, h.nonempty, by simpa using h.notBlank,
        by simpa [Option.all_eq_true] using h.blank, h.noEquals⟩⟩

/-- Every statement that defines no constant is a mnemonic with operands. -/
theorem exists_writes {line : List Char} (hStatement : (SourceLine.ofText line).statement ≠ [])
    (hEquals : '=' ∉ (SourceLine.ofText line).statement) :
    ∃ label? mnemonic operands, Writes line label? mnemonic operands := by
  obtain ⟨text, hText⟩ : ∃ text, (SourceLine.ofText line).statement = trim text := by
    rw [SourceLine.ofText]
    split
    · exact ⟨_, rfl⟩
    · exact ⟨_, rfl⟩
  have hParts := List.takeWhile_append_dropWhile (p := fun c => !isBlank c)
    (l := (SourceLine.ofText line).statement)
  refine ⟨(SourceLine.ofText line).label?, _, _, ?_, ?_, ?_, ?_, hParts.symm ▸ hEquals⟩
  · rw [hParts, hText, trim_trim, ← hText]
  · cases hTrim : trim text with
    | nil => exact absurd (hText.trans hTrim) hStatement
    | cons c rest =>
        have hFirst : (!isBlank c) = true := by
          rw [not_isBlank_of_trim_eq_cons hTrim]
          rfl
        rw [hText, hTrim, List.takeWhile_cons_of_pos (p := fun c => !isBlank c) hFirst]
        exact List.cons_ne_nil c _
  · intro c hMem
    simpa using List.all_eq_true.1 List.all_takeWhile c hMem
  · intro c hHead
    have hFirst := List.head?_dropWhile_not (fun c => !isBlank c) (SourceLine.ofText line).statement
    rw [hHead] at hFirst
    simpa using hFirst

namespace Writes

variable {line mnemonic operands : List Char} {label? : Option (List Char)}

theorem trim_eq (h : Writes line label? mnemonic operands) :
    trim (mnemonic ++ operands) = mnemonic ++ trimEnd operands :=
  trim_word_append h.notBlank h.nonempty operands

theorem isEmpty_statement (h : Writes line label? mnemonic operands) :
    (SourceLine.ofText line).statement.isEmpty = false := by
  rw [h.reads, h.trim_eq, List.isEmpty_eq_false_iff]
  exact List.append_ne_nil_of_left_ne_nil h.nonempty _

/-- A mnemonic and its operands are found again, less the blanks behind them. -/
theorem statement_ofText (h : Writes line label? mnemonic operands) :
    Statement.ofText (SourceLine.ofText line).statement
      = Statement.ofMnemonic (String.ofList mnemonic) (operandTexts operands) := by
  have hEquals : cut? '=' (trim (mnemonic ++ operands)) = none :=
    cut?_eq_none_iff.2 fun hMem => h.noEquals (mem_of_mem_trim hMem)
  have hBlank : ∀ c ∈ (trimEnd operands).head?, isBlank c = true := by
    intro c hHead
    obtain ⟨more, hMore⟩ := trimEnd_prefix operands
    refine h.blank c ?_
    rw [← hMore, List.head?_append, Option.or_of_isSome (Option.isSome_of_mem hHead)]
    exact hHead
  have hOperands : operandTexts (trimEnd operands) = operandTexts operands :=
    eq_of_trimEnd (fun c => operandTexts_concat_of_isBlank) operands
  rw [h.reads, Statement.ofText, hEquals]
  simp only [h.trim_eq, takeWhile_word_append h.notBlank hBlank,
    dropWhile_word_append h.notBlank hBlank, hOperands]

/-- Lines with the same label and mnemonic and the same operands have the same effect. -/
theorem sameEffect {other tidied : List Char} (h : Writes line label? mnemonic operands)
    (hOther : Writes other label? mnemonic tidied)
    (hSame : operandTexts operands = operandTexts tidied) :
    Layout.SameEffect id line other := by
  rintro layout _ number rfl
  have hLine : layout.line number line = layout.line number other := by
    simp only [Layout.line, Layout.statement?, h.isEmpty_statement, hOther.isEmpty_statement,
      h.statement_ofText, hOther.statement_ofText, hSame]
    rw [h.reads, hOther.reads]
  exact congrArg (Except.map id) hLine

end Writes

/-! ## Counting operands -/

/-- How many operands each mnemonic takes. -/
def operandCounts : List (String × Nat) :=
  [("NOP", 0), ("LDI", 2), ("MOV", 2), ("OUT", 2), ("IN", 2), ("STS", 2), ("LDS", 2), ("JMP", 1),
    ("CALL", 1), ("RET", 0), ("PUSH", 1), ("POP", 1), ("ORG", 1), ("DW", 1)]

def operandCount? (mnemonic : List Char) : Option Nat :=
  operandCounts.lookup (String.ofList (mnemonic.map Char.toUpper))

theorem lookup_operandCounts_mnemonic (opcode : Opcode) :
    operandCounts.lookup opcode.mnemonic = some (operandKinds opcode).length := by
  cases opcode <;> decide

theorem lookup_operandCounts_directive (directive : Directive) :
    operandCounts.lookup directive.name = some 1 := by
  cases directive <;> decide

theorem length_of_soleOperand {directive : Directive} {texts : List (List Char)}
    {expression : Expression} (h : soleOperand directive texts = .ok expression) :
    texts.length = 1 := by
  rw [soleOperand.eq_def] at h
  split at h
  · rfl
  · cases h

/-- A statement has as many operands as its mnemonic takes. -/
theorem operandCount?_of_ofMnemonic {mnemonic : List Char} {texts : List (List Char)}
    {statement : Statement}
    (h : Statement.ofMnemonic (String.ofList mnemonic) texts = .ok statement) :
    operandCount? mnemonic = some texts.length := by
  simp only [Statement.ofMnemonic, String.toList_ofList] at h
  rw [operandCount?]
  split at h
  · rename_i hCapitals
    obtain ⟨expression, hSole, -⟩ := exists_of_map_eq_ok h
    rw [hCapitals, String.ofList_toList, lookup_operandCounts_directive,
      length_of_soleOperand hSole]
  · split at h
    · rename_i hCapitals
      obtain ⟨expression, hSole, -⟩ := exists_of_map_eq_ok h
      rw [hCapitals, String.ofList_toList, lookup_operandCounts_directive,
        length_of_soleOperand hSole]
    · split at h
      · cases h
      · rename_i opcode hOpcode
        have hCapitals : opcode.mnemonic.toList = mnemonic.map Char.toUpper := by
          simpa using List.find?_some hOpcode
        split at h
        · rename_i hCount
          rw [← hCapitals, String.ofList_toList, lookup_operandCounts_mnemonic, hCount]
        · cases h

/-- Every line of a source text that assembles can be read. -/
theorem exists_line_of_assemble {source : String} {program : Program}
    (h : assemble source = .ok program) {text : List Char} (hMem : text ∈ lines source.toList) :
    ∃ line, Line.ofText text = .ok line := by
  obtain ⟨emissions, layout, hLines, -⟩ := exists_laid_of_assemble h
  have hRead : Line.ofText text ∈ emissions.map fun emission => .ok emission.line :=
    hLines ▸ List.mem_map_of_mem hMem
  obtain ⟨emission, -, hLine⟩ := List.mem_map.1 hRead
  exact ⟨emission.line, hLine.symm⟩

theorem Writes.operandCount?_eq {line mnemonic operands : List Char} {label? : Option (List Char)}
    (h : Writes line label? mnemonic operands) {read : Line} (hRead : Line.ofText line = .ok read) :
    operandCount? mnemonic = some (writtenOperands operands).length := by
  rw [Line.ofText] at hRead
  cases hLabel : readLabel? (SourceLine.ofText line).label? with
  | error cause => simp [hLabel] at hRead
  | ok label =>
      cases hStatement : Statement.ofText (SourceLine.ofText line).statement with
      | error cause =>
          simp [hLabel, readStatement?, h.isEmpty_statement, hStatement, Except.map] at hRead
      | ok statement =>
          rw [h.statement_ofText] at hStatement
          rw [operandCount?_of_ofMnemonic hStatement, operandTexts_eq_map, List.length_map]

/-! ## Source texts -/

/-- The second line is the first one, or has a comma less that makes no operand. -/
inductive TidiedLine : List Char → List Char → Prop
  | same {line : List Char} : TidiedLine line line
  | comma {line other : List Char} {label? : Option (List Char)}
      {mnemonic operands tidied : List Char}
      (hLine : Writes line label? mnemonic operands)
      (hOther : Writes other label? mnemonic tidied) (hComma : ExtraComma operands tidied) :
      TidiedLine line other

theorem TidiedLine.sameEffect {line other : List Char} (h : TidiedLine line other) :
    Layout.SameEffect id line other := by
  cases h with
  | same =>
      rintro layout _ number rfl
      rfl
  | comma hLine hOther hComma => exact hLine.sameEffect hOther hComma.operandTexts_eq

/-- **Operand lists**: every statement that defines no constant is a mnemonic with operands.  In a
source text that assembles, the pieces between the commas of its operands that are not blank are
as many as the mnemonic takes.  And a comma that makes no operand does not matter: without it the
text assembles to the same program, or fails in the same way. -/
theorem operandLists_counted :
    (∀ line : List Char, (SourceLine.ofText line).statement ≠ [] →
        '=' ∉ (SourceLine.ofText line).statement →
        ∃ label? mnemonic operands, Writes line label? mnemonic operands) ∧
      (∀ (source : String) (program : Program), assemble source = .ok program →
        ∀ line ∈ lines source.toList, ∀ label? mnemonic operands,
          Writes line label? mnemonic operands →
            operandCount? mnemonic = some (writtenOperands operands).length) ∧
      ∀ source tidied : String,
        List.Forall₂ TidiedLine (lines source.toList) (lines tidied.toList) →
          assemble source = assemble tidied := by
  refine ⟨fun line hStatement hEquals => exists_writes hStatement hEquals, ?_, ?_⟩
  · intro source program hAssemble line hMem label? mnemonic operands hWrites
    obtain ⟨read, hRead⟩ := exists_line_of_assemble hAssemble hMem
    exact hWrites.operandCount?_eq hRead
  · intro source tidied hLines
    have hLayout := Layout.ofSource_congr (hLines.imp fun _ _ hLine => hLine.sameEffect)
    have hSame : Layout.ofSource source.toList = Layout.ofSource tidied.toList := by
      simpa using hLayout
    rw [assemble, assemble, hSame]

/-! ## Samples -/

/-- A text with a comma too many between, before and behind operands. -/
def commaSource : String := "start: MOV R1, ,R2 ; copy\nldi ,R3, 5\nNOP ,"

def tidySource : String := "start: MOV R1, R2 ; copy\nldi R3, 5\nNOP "

theorem assemble_commaSource :
    assemble commaSource = .ok ⟨[0x020102, 0x010305, 0], [⟨"start", 0, 3⟩]⟩ := by
  have hResult : (assemble commaSource).toOption
      = some ⟨[0x020102, 0x010305, 0], [⟨"start", 0, 3⟩]⟩ := by decide +kernel
  exact eq_ok_of_toOption hResult

theorem writes_leadingComma :
    Writes "ldi ,R3, 5".toList none "ldi".toList " ,R3, 5".toList := by decide +kernel

theorem tidied_commaSource :
    List.Forall₂ TidiedLine (lines commaSource.toList) (lines tidySource.toList) := by
  have hCopy : Writes "start: MOV R1, ,R2 ; copy".toList (some "start".toList) "MOV".toList
      " R1, ,R2".toList := by decide +kernel
  have hTidyCopy : Writes "start: MOV R1, R2 ; copy".toList (some "start".toList) "MOV".toList
      " R1, R2".toList := by decide +kernel
  have hTidyLoad : Writes "ldi R3, 5".toList none "ldi".toList " R3, 5".toList := by
    decide +kernel
  have hIdle : Writes "NOP ,".toList none "NOP".toList " ,".toList := by decide +kernel
  have hTidyIdle : Writes "NOP ".toList none "NOP".toList " ".toList := by decide +kernel
  have hDoubled : ExtraComma " R1, ,R2".toList " R1, R2".toList :=
    @ExtraComma.doubled " R1".toList " ".toList "R2".toList (by decide)
  have hLeading : ExtraComma " ,R3, 5".toList " R3, 5".toList :=
    @ExtraComma.leading " ".toList "R3, 5".toList (by decide)
  have hTrailing : ExtraComma " ,".toList " ".toList :=
    @ExtraComma.trailing " ".toList [] (by decide)
  have hLines : lines commaSource.toList
      = ["start: MOV R1, ,R2 ; copy".toList, "ldi ,R3, 5".toList, "NOP ,".toList] := by
    decide +kernel
  have hTidied : lines tidySource.toList
      = ["start: MOV R1, R2 ; copy".toList, "ldi R3, 5".toList, "NOP ".toList] := by
    decide +kernel
  rw [hLines, hTidied]
  exact .cons (.comma hCopy hTidyCopy hDoubled)
    (.cons (.comma writes_leadingComma hTidyLoad hLeading)
      (.cons (.comma hIdle hTidyIdle hTrailing) .nil))

theorem operandLists_commaSource :
    assemble commaSource = .ok ⟨[0x020102, 0x010305, 0], [⟨"start", 0, 3⟩]⟩ ∧
      (∃ label? mnemonic operands, Writes "ldi ,R3, 5".toList label? mnemonic operands) ∧
      operandCount? "ldi".toList = some (writtenOperands " ,R3, 5".toList).length ∧
      assemble commaSource = assemble tidySource := by
  obtain ⟨hWritten, hCounted, hTidied⟩ := operandLists_counted
  refine ⟨assemble_commaSource, ?_, ?_, ?_⟩
  · exact hWritten "ldi ,R3, 5".toList (by decide +kernel) (by decide +kernel)
  · exact hCounted commaSource _ assemble_commaSource "ldi ,R3, 5".toList (by decide) none _ _
      writes_leadingComma
  · exact hTidied commaSource tidySource tidied_commaSource

/-- The pieces between the commas of an operand list are as many as the mnemonic takes, and none
of them is blank. -/
def ExactOperands (mnemonic operands : List Char) : Prop :=
  ∃ count, operandCount? mnemonic = some count ∧
    if count = 0 then allBlank operands = true
    else (operands.splitOn ',').length = count ∧
      ∀ piece ∈ operands.splitOn ',', allBlank piece = false

/-- Operand lists with a comma behind the last operand are accepted. -/
theorem extraComma_accepted :
    ¬∀ (source : String) (program : Program), assemble source = .ok program →
      ∀ line ∈ lines source.toList, ∀ label? mnemonic operands,
        Writes line label? mnemonic operands → ExactOperands mnemonic operands := by
  intro hExact
  have hAssemble : assemble "JMP 1," = .ok ⟨[0x070100], []⟩ := by
    have hResult : (assemble "JMP 1,").toOption = some ⟨[0x070100], []⟩ := by decide +kernel
    exact eq_ok_of_toOption hResult
  have hWrites : Writes "JMP 1,".toList none "JMP".toList " 1,".toList := by decide +kernel
  obtain ⟨count, hCount, hPieces⟩ := hExact "JMP 1," _ hAssemble _ (by decide) _ _ _ hWrites
  have hOne : count = 1 := by
    have hJump : operandCount? "JMP".toList = some 1 := by decide
    exact Option.some.inj (hCount.symm.trans hJump)
  rw [hOne, if_neg Nat.one_ne_zero] at hPieces
  have hTwo : (" 1,".toList.splitOn ',').length = 2 := by decide
  omega

end ControlUnit.Assembly
