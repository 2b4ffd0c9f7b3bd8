import ControlUnit.Proofs.SourceText

/-!
# Continued source texts

What stays of an assembled program when more source text is written behind it.  A layout only
grows: later lines give no symbol another value, take no item back, and open no subroutine
before the words that are there (`Layout.Continues`).  An item that can be encoded is encoded to
the same word under a larger table.  So the words of the program are the first words of the
longer one, and its ranges the first ranges, where only the last may end later.

A fault that is found while a text is laid out is found again, on the same line, whatever
follows.  The words are encoded only behind the last line, so their faults may go away or be
hidden by others; unknown mnemonics and symbols defined twice are not among them.

## Main results

* `Layout.continues_lines` — what lines leave of a layout.
* `words_prefix_of_extends` — words under a larger table.
* `Layout.grows_ranges` — ranges when more openings and words follow.
* `assemble_append` — assembling a text with more text behind it.
-/

namespace ControlUnit.Assembly

open Text

/-! ## Encoding under growing tables -/

section Encoding

variable {symbols extended : Symbols}

theorem dataWord_of_extends (hExtends : extended.Extends symbols) {expression : Expression}
    {word : UInt32} (h : dataWord symbols expression = .ok word) :
    dataWord extended expression = .ok word := by
  rw [dataWord] at h ⊢
  cases hValue : expression.value symbols with
  | error cause => simp [hValue] at h
  | ok value =>
      rw [Expression.value_of_extends hExtends hValue]
      rwa [hValue] at h

theorem Operand.byte_of_extends (hExtends : extended.Extends symbols) {operand : Operand}
    {byte : UInt8} (h : operand.byte symbols = .ok byte) : operand.byte extended = .ok byte := by
  cases operand with
  | register number => exact h
  | unknownRegister text => exact h
  | value expression =>
      rw [Operand.byte] at h ⊢
      cases hValue : expression.value symbols with
      | error cause => simp [hValue] at h
      | ok value =>
          rw [Expression.value_of_extends hExtends hValue]
          rwa [hValue] at h

theorem operandBytes_of_extends (hExtends : extended.Extends symbols) {operands : List Operand}
    {bytes : List UInt8} (h : operandBytes symbols operands = .ok bytes) :
    operandBytes extended operands = .ok bytes := by
  induction operands generalizing bytes with
  | nil => exact h
  | cons operand rest ih =>
      rw [operandBytes] at h ⊢
      cases hByte : operand.byte symbols with
      | error cause => simp [hByte] at h
      | ok byte =>
          cases hRest : operandBytes symbols rest with
          | error cause => simp [hByte, hRest] at h
          | ok more =>
              rw [Operand.byte_of_extends hExtends hByte, ih hRest]
              rwa [hByte, hRest] at h

/-- An item that can be encoded is encoded to the same word under a larger table. -/
theorem Item.encode_of_extends (hExtends : extended.Extends symbols) {item : Item} {word : UInt32}
    (h : item.encode symbols = .ok word) : item.encode extended = .ok word := by
  cases item with
  | fill => exact h
  | word line value =>
      rw [Item.encode, dataWord_of_extends hExtends (eq_ok_of_mapError h)]
      rfl
  | instruction line opcode operands =>
      obtain ⟨bytes, hBytes, rfl⟩ := instructionWord_eq_ok (eq_ok_of_mapError h)
      rw [Item.encode, instructionWord, operandBytes_of_extends hExtends hBytes]
      rfl

/-- The words of some items are the first words of these items with more behind them, under
a larger table. -/
theorem words_prefix_of_extends (hExtends : extended.Extends symbols) {items longer : List Item}
    (hItems : items <+: longer) {words all : List UInt32}
    (hWords : encodeAll symbols items = .ok words) (hAll : encodeAll extended longer = .ok all) :
    words <+: all := by
  obtain ⟨hEach, rfl⟩ := encode_of_encodeAll hWords
  have hSame : items.map (Item.encoded symbols) = items.map (Item.encoded extended) := by
    refine List.map_congr_left fun item hMem => ?_
    rw [Item.encoded.eq_def extended, Item.encode_of_extends hExtends (hEach item hMem)]
  rw [(encode_of_encodeAll hAll).2, hSame]
  exact hItems.map _

end Encoding

/-! ## Layouts that go on -/

namespace Layout

/-- What is known after some lines is still known after more of them: symbols with their values,
the words, and the openings, behind which others come that do not lie before the words. -/
structure Continues (earlier later : Layout) : Prop where
  symbols : later.symbols.Extends earlier.symbols
  items : earlier.items <+: later.items
  openings : ∃ more, later.openings = earlier.openings ++ more ∧
    ∀ opening ∈ more, earlier.address ≤ opening.2

theorem Continues.refl (layout : Layout) : Continues layout layout where
  symbols := .refl _
  items := List.prefix_refl _
  openings := ⟨[], by simp, by simp⟩

theorem Continues.address_le {earlier later : Layout} (h : Continues earlier later) :
    earlier.address ≤ later.address := h.items.length_le

theorem Continues.trans {first second third : Layout} (hFirst : Continues first second)
    (hSecond : Continues second third) : Continues first third where
  symbols := hSecond.symbols.trans hFirst.symbols
  items := hFirst.items.trans hSecond.items
  openings := by
    obtain ⟨more, hMore, hBehind⟩ := hFirst.openings
    obtain ⟨others, hOthers, hFurther⟩ := hSecond.openings
    refine ⟨more ++ others, by rw [hOthers, hMore, List.append_assoc], ?_⟩
    intro opening hMem
    rcases List.mem_append.1 hMem with hMem | hMem
    · exact hBehind opening hMem
    · exact Nat.le_trans hFirst.address_le (hFurther opening hMem)

variable {layout next : Layout} {number : Nat}

theorem LabelStep.continues {label? : Option Label} (h : LabelStep layout label? next) :
    Continues layout next where
  symbols := h.extends
  items := ⟨[], by rw [h.items_eq, List.append_nil]⟩
  openings := by
    refine ⟨_, h.openings_eq, ?_⟩
    cases label? with
    | none => simp
    | some label =>
        rw [Option.elim_some, Label.openings]
        split <;> simp

theorem StatementStep.continues {statement? : Option Statement} {items : List Item}
    (h : StatementStep number layout statement? items next) : Continues layout next where
  symbols := h.extends
  items := by
    rw [h.items_eq]
    exact List.prefix_append _ _
  openings := ⟨[], by rw [h.openings_eq, List.append_nil], by simp⟩

theorem continues_lines {numbered : List (List Char × Nat)} (h : layout.lines numbered = .ok next) :
    Continues layout next := by
  induction numbered generalizing layout with
  | nil =>
      cases h
      exact .refl _
  | cons first rest ih =>
      obtain ⟨text, number⟩ := first
      rw [lines] at h
      cases hLine : layout.line number text with
      | error cause => simp [hLine] at h
      | ok middle =>
          simp only [hLine] at h
          obtain ⟨line, labelled, items, -, hLabel, hStatement⟩ := steps_of_line hLine
          exact (hLabel.continues.trans hStatement.continues).trans (ih h)

end Layout

/-! ## Tables that grow -/

/-- The entries of a table are the first entries of another one, with the same names and starts
and the same ends, except that the last one may end later. -/
inductive Grows : List Subroutine → List Subroutine → Prop
  | none {later : List Subroutine} : Grows [] later
  | last {name : String} {start stop further : UInt16} {later : List Subroutine}
      (hFurther : stop ≤ further) :
      Grows [⟨name, start, stop⟩] (⟨name, start, further⟩ :: later)
  | same {subroutine : Subroutine} {table longer : List Subroutine} (hRest : Grows table longer) :
      Grows (subroutine :: table) (subroutine :: longer)

namespace Layout

variable {stop further : Nat} {openings more : List (String × Nat)}

/-- More openings behind some, and more words, let only the last range end later. -/
theorem grows_ranges (hStop : stop ≤ nextAddress further more)
    (hFurther : nextAddress further more ≤ programSize) :
    Grows (ranges stop openings) (ranges further (openings ++ more)) := by
  have hExact : ∀ {address}, address ≤ nextAddress further more →
      address.toUInt16.toNat = address := by
    intro address hAddress
    exact UInt16.toNat_ofNat_of_lt'
      (Nat.lt_of_le_of_lt (Nat.le_trans hAddress hFurther) (by decide))
  induction openings with
  | nil => exact .none
  | cons opening rest ih =>
      obtain ⟨name, start⟩ := opening
      rw [List.cons_append, ranges_cons, ranges_cons]
      cases rest with
      | nil =>
          have hEnd : nextAddress stop ([] : List (String × Nat)) = stop := rfl
          rw [hEnd, List.nil_append]
          by_cases hStart : start < stop
          · have hEnds : stop.toUInt16 ≤ (nextAddress further more).toUInt16 := by
              rw [UInt16.le_iff_toNat_le, hExact hStop, hExact (Nat.le_refl _)]
              exact hStop
            rw [if_pos hStart, if_pos (Nat.lt_of_lt_of_le hStart hStop)]
            exact .last hEnds
          · rw [if_neg hStart]
            exact .none
      | cons second others =>
          -- The opening behind this one is the same, so its range is.
          have hNext : nextAddress further (second :: others ++ more)
              = nextAddress stop (second :: others) := rfl
          rw [hNext]
          by_cases hStart : start < nextAddress stop (second :: others)
          · rw [if_pos hStart, if_pos hStart]
            exact .same ih
          · rw [if_neg hStart, if_neg hStart]
            exact ih

theorem Ascending.of_append (h : Ascending stop (openings ++ more)) : Ascending stop more := by
  induction openings with
  | nil => exact h
  | cons opening rest ih => exact ih h.2

end Layout

/-- The table of a layout is the first part of that of a layout that continues it. -/
theorem Laid.grows_subroutines {emissions : List (Emission Item)} {layout final : Layout}
    (hFinal : Laid emissions final) (hSize : final.address ≤ programSize)
    (h : layout.Continues final) : Grows layout.subroutines final.subroutines := by
  obtain ⟨more, hMore, hBehind⟩ := h.openings
  have hAscending := hFinal.ascending
  rw [hMore] at hAscending
  have hFurther := hAscending.of_append.nextAddress_le_stop
  have hStop : layout.address ≤ Layout.nextAddress final.address more := by
    cases more with
    | nil => exact h.address_le
    | cons opening rest => exact hBehind opening List.mem_cons_self
  rw [Layout.subroutines, Layout.subroutines, hMore]
  exact Layout.grows_ranges hStop (Nat.le_trans hFurther hSize)

/-! ## Faults that last -/

/-- The faults that are found only while a text is laid out, and not by encoding it. -/
inductive LineError.Lasting : LineError → Prop
  | unknownMnemonic {mnemonic : String} : Lasting (.unknownMnemonic mnemonic)
  | duplicateSymbol {name : String} : Lasting (.duplicateSymbol name)

section Faults

variable {symbols : Symbols} {cause : LineError}

theorem Atom.not_lasting_of_value {atom : Atom} (h : atom.value symbols = .error cause) :
    ¬cause.Lasting := by
  cases atom with
  | missing =>
      cases h
      rintro ⟨⟩
  | number value => cases h
  | malformed text =>
      cases h
      rintro ⟨⟩
  | symbol name =>
      rw [Atom.value] at h
      cases hFound : symbols.value? name with
      | some value => simp [hFound] at h
      | none =>
          rw [hFound] at h
          cases h
          rintro ⟨⟩

theorem Term.not_lasting_of_value {term : Term} (h : term.value symbols = .error cause) :
    ¬cause.Lasting := by
  cases term with
  | atom part => exact Atom.not_lasting_of_value h
  | shifted left right =>
      rw [Term.value] at h
      cases hLeft : left.value symbols with
      | error fault =>
          rw [hLeft] at h
          cases h
          exact Atom.not_lasting_of_value hLeft
      | ok value =>
          cases hRight : right.value symbols with
          | error fault =>
              rw [hLeft, hRight] at h
              cases h
              exact Atom.not_lasting_of_value hRight
          | ok amount =>
              simp only [hLeft, hRight] at h
              split at h
              · cases h
              · cases h
                rintro ⟨⟩

theorem Expression.not_lasting_of_value {expression : Expression}
    (h : expression.value symbols = .error cause) : ¬cause.Lasting := by
  induction expression with
  | nil => cases h
  | cons term rest ih =>
      rw [Expression.value] at h
      cases hTerm : term.value symbols with
      | error fault =>
          rw [hTerm] at h
          cases h
          exact Term.not_lasting_of_value hTerm
      | ok value =>
          cases hRest : Expression.value symbols rest with
          | error fault =>
              rw [hTerm, hRest] at h
              cases h
              exact ih hRest
          | ok more => simp [hTerm, hRest] at h

theorem not_lasting_of_dataWord {expression : Expression}
    (h : dataWord symbols expression = .error cause) : ¬cause.Lasting := by
  rw [dataWord] at h
  cases hValue : expression.value symbols with
  | error fault =>
      rw [hValue] at h
      cases h
      exact Expression.not_lasting_of_value hValue
  | ok value =>
      simp only [hValue] at h
      split at h
      · cases h
      · cases h
        rintro ⟨⟩

theorem Operand.not_lasting_of_byte {operand : Operand}
    (h : operand.byte symbols = .error cause) : ¬cause.Lasting := by
  cases operand with
  | register number => cases h
  | unknownRegister text =>
      cases h
      rintro ⟨⟩
  | value expression =>
      rw [Operand.byte] at h
      cases hValue : expression.value symbols with
      | error fault =>
          rw [hValue] at h
          cases h
          exact Expression.not_lasting_of_value hValue
      | ok value =>
          simp only [hValue] at h
          split at h
          · cases h
          · cases h
            rintro ⟨⟩

theorem not_lasting_of_operandBytes {operands : List Operand}
    (h : operandBytes symbols operands = .error cause) : ¬cause.Lasting := by
  induction operands with
  | nil => cases h
  | cons operand rest ih =>
      rw [operandBytes] at h
      cases hByte : operand.byte symbols with
      | error fault =>
          rw [hByte] at h
          cases h
          exact Operand.not_lasting_of_byte hByte
      | ok byte =>
          cases hRest : operandBytes symbols rest with
          | error fault =>
              rw [hByte, hRest] at h
              cases h
              exact ih hRest
          | ok more => simp [hByte, hRest] at h

theorem not_lasting_of_instructionWord {opcode : Opcode} {operands : List Operand}
    (h : instructionWord symbols opcode operands = .error cause) : ¬cause.Lasting := by
  rw [instructionWord] at h
  cases hBytes : operandBytes symbols operands with
  | error fault =>
      rw [hBytes] at h
      cases h
      exact not_lasting_of_operandBytes hBytes
  | ok bytes => simp [hBytes] at h

theorem error_of_mapError {α : Type} {result : Except LineError α} {line number : Nat}
    (h : result.mapError (AssemblyError.line line) = .error (.line number cause)) :
    result = .error cause := by
  cases result with
  | error fault =>
      cases h
      rfl
  | ok value => cases h

theorem Item.not_lasting_of_encode {item : Item} {number : Nat}
    (h : item.encode symbols = .error (.line number cause)) : ¬cause.Lasting := by
  cases item with
  | fill => cases h
  | word line value => exact not_lasting_of_dataWord (error_of_mapError h)
  | instruction line opcode operands => exact not_lasting_of_instructionWord (error_of_mapError h)

/-- No fault of encoding lasts. -/
theorem not_lasting_of_encodeAll {items : List Item} {number : Nat}
    (h : encodeAll symbols items = .error (.line number cause)) : ¬cause.Lasting := by
  obtain ⟨item, -, hItem⟩ := exists_item_of_encodeAll h
  exact Item.not_lasting_of_encode hItem

end Faults

/-- A fault that lasts was found while the text was laid out. -/
theorem ofSource_of_lasting {source : String} {number : Nat} {cause : LineError}
    (h : assemble source = .error (.line number cause)) (hLasting : cause.Lasting) :
    Layout.ofSource source.toList = .error (.line number cause) := by
  rw [assemble] at h
  cases hLayout : Layout.ofSource source.toList with
  | error reason =>
      simp only [hLayout, Except.error.injEq] at h
      rw [h]
  | ok layout =>
      simp only [hLayout, Layout.program] at h
      cases hWords : encodeAll layout.symbols layout.items with
      | error reason =>
          rw [hWords] at h
          cases h
          exact absurd hLasting (not_lasting_of_encodeAll hWords)
      | ok words =>
          simp only [hWords] at h
          split at h
          · cases h
          · cases h

/-! ## Texts behind each other -/

/-- Behind a text and a line feed, the lines of another text come next. -/
theorem exists_numberedLines_append (source more : String) :
    ∃ later, numberedLines (source ++ "\n" ++ more).toList
      = numberedLines source.toList ++ later := by
  have hText : (source ++ "\n" ++ more).toList = source.toList ++ '\n' :: more.toList := by
    rw [String.toList_append, String.toList_append, List.append_assoc]
    rfl
  obtain ⟨between, -, hLines⟩ := lines_append_cons source.toList more.toList
  exact ⟨_, by rw [numberedLines, hText, hLines, List.zipIdx_append, numberedLines]⟩

/-- **More source text does not change what was assembled**: the words of the text before are the
first words, and its subroutines the first subroutines, of which the last may end later.  And an
unknown mnemonic or a symbol defined twice is reported the same, whatever follows. -/
theorem assemble_append (source more : String) :
    (∀ program longer, assemble source = .ok program →
      assemble (source ++ "\n" ++ more) = .ok longer →
        program.words <+: longer.words ∧ Grows program.subroutines longer.subroutines) ∧
    ∀ number cause, assemble source = .error (.line number cause) → cause.Lasting →
      assemble (source ++ "\n" ++ more) = .error (.line number cause) := by
  obtain ⟨later, hLines⟩ := exists_numberedLines_append source more
  constructor
  · intro program longer hProgram hLonger
    obtain ⟨layout, hLayout, hWords, hTable, -⟩ := exists_layout_of_assemble hProgram
    obtain ⟨final, hFinal, hAll, hFurther, hCheck⟩ := exists_layout_of_assemble hLonger
    have hContinues : layout.Continues final := by
      rw [Layout.ofSource, hLines, Layout.lines_append hLayout] at hFinal
      exact Layout.continues_lines hFinal
    obtain ⟨emissions, -, hLaid⟩ := Layout.exists_laid hFinal
    have hSize : final.address ≤ programSize := by
      rw [Layout.address, ← length_of_encodeAll hAll]
      exact (Program.check_eq_ok_iff.1 hCheck).1
    refine ⟨words_prefix_of_extends hContinues.symbols hContinues.items hWords hAll, ?_⟩
    rw [hTable, hFurther]
    exact hLaid.grows_subroutines hSize hContinues
  · intro number cause hError hLasting
    have hLayout := ofSource_of_lasting hError hLasting
    rw [assemble, Layout.ofSource, hLines, Layout.lines_append_of_error hLayout]

/-! ### Samples -/

/-- A text that ends inside a subroutine. -/
def openSource : String := "main: DW next\n.next:"

/-- More text for it, which goes on with the subroutine and begins another one. -/
def closingSource : String := " RET\nother: JMP main"

def openProgram : Program where
  words := [1]
  subroutines := [⟨"main", 0, 1⟩]

def closedProgram : Program where
  words := [1, 0x090000, 0x070000]
  subroutines := [⟨"main", 0, 2⟩, ⟨"other", 2, 3⟩]

theorem assemble_append_openSource :
    (openProgram.words <+: closedProgram.words ∧
      Grows openProgram.subroutines closedProgram.subroutines) ∧
    assemble ("a:\na:" ++ "\n" ++ closingSource)
      = .error (.line 2 (.duplicateSymbol "a")) := by
  have hOpen : assemble openSource = .ok openProgram := by
    have hResult : (assemble openSource).toOption = some openProgram := by decide +kernel
    exact eq_ok_of_toOption hResult
  have hClosed : assemble (openSource ++ "\n" ++ closingSource) = .ok closedProgram := by
    have hResult : (assemble (openSource ++ "\n" ++ closingSource)).toOption
        = some closedProgram := by decide +kernel
    exact eq_ok_of_toOption hResult
  have hTwice : assemble "a:\na:" = .error (.line 2 (.duplicateSymbol "a")) := by
    decide +kernel
  exact ⟨(assemble_append openSource closingSource).1 _ _ hOpen hClosed,
    (assemble_append "a:\na:" closingSource).2 2 _ hTwice .duplicateSymbol⟩

end ControlUnit.Assembly
