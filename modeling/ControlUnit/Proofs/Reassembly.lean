import ControlUnit.Proofs.Sentence

/-!
# Reassembly

What becomes of listed words that are assembled again, one line to a word.

A word with a known opcode is listed as an instruction or as data, and either line places
one item, which stands for the word again as long as the names of the I/O registers keep
their meaning.  No such line defines a symbol, so nothing ever takes that meaning away and
the lines can be read in any company.  The line of a word with an unknown opcode is
refused at once.

## Main results

* `Instruction.instructionWord_readOperands` — an instruction whose registers exist is
  encoded from its own text.
* `Assembly.Layout.lines_wordTexts`, `Assembly.Layout.lines_of_unknown` — what the lines
  of words do to a layout.
* `assemble_wordTexts` — assembling the listed words.
-/

namespace ControlUnit

open Assembly Text

/-! ## Instructions -/

/-- Words of 24 bits are all significant. -/
theorem significant_eq_self {word : UInt32} (h : word.toNat < 16777216) :
    significant word = word := by
  apply UInt32.toNat_inj.1
  rw [toNat_significant]
  exact Nat.mod_eq_of_lt h

theorem Fields.split_significant (word : UInt32) : split (significant word) = split word := by
  rw [← join_split, split_join]

namespace Opcode

theorem plain_mnemonic (opcode : Opcode) : Plain opcode.mnemonic.toList := by
  cases opcode <;> decide

theorem ofMnemonic?_mnemonic (opcode : Opcode) : ofMnemonic? opcode.mnemonic = some opcode := by
  cases opcode <;> decide

theorem mnemonic_ne_directive (opcode : Opcode) (directive : Directive) :
    opcode.mnemonic.toList.map Char.toUpper ≠ directive.name.toList := by
  cases opcode <;> cases directive <;> decide

end Opcode

namespace Instruction

/-- The operands with which an instruction is listed. -/
def listedOperands : Instruction → List (List Char)
  | nop => []
  | loadImmediate register value => [(registerName register).toList, (hexByte value).toList]
  | move target source => [(registerName target).toList, (registerName source).toList]
  | output address register => [(ioName address).toList, (registerName register).toList]
  | input register address => [(registerName register).toList, (ioName address).toList]
  | store address register => [(hexByte address).toList, (registerName register).toList]
  | load register address => [(registerName register).toList, (hexByte address).toList]
  | jump target => [(decimal target.toNat).toList]
  | call target => [(decimal target.toNat).toList]
  | ret => []
  | push register => [(registerName register).toList]
  | pop register => [(registerName register).toList]

theorem plain_listedOperands (instruction : Instruction) :
    ∀ operand ∈ instruction.listedOperands, Plain operand := by
  cases instruction <;>
    simp [listedOperands, plain_registerName, plain_hexByte, plain_ioName, plain_decimal]

/-- The sentence by which an instruction is listed. -/
def sentence (instruction : Instruction) : Sentence where
  mnemonic := instruction.opcode.mnemonic
  operands := instruction.listedOperands
  plainMnemonic := instruction.opcode.plain_mnemonic
  plainOperands := instruction.plain_listedOperands

theorem toList_text (instruction : Instruction) :
    instruction.text.toList = instruction.sentence.text := by
  cases instruction <;>
    simp [text, sentence, Sentence.text, Sentence.operandList, listedOperands,
      List.intercalate_cons_cons]

/-- The operands that are read where an instruction is listed. -/
def readOperands (instruction : Instruction) : List Operand :=
  List.zipWith Operand.ofText instruction.listedOperands (operandKinds instruction.opcode)

/-- A listed instruction is read as an instruction with the same operation. -/
theorem ofMnemonic_sentence (instruction : Instruction) :
    Statement.ofMnemonic instruction.sentence.mnemonic instruction.sentence.operands
      = .ok (.instruction instruction.opcode instruction.readOperands) := by
  have hCount : instruction.listedOperands.length = (operandKinds instruction.opcode).length := by
    cases instruction <;> simp only [listedOperands, opcode, operandKinds, List.length_cons, List.length_nil]
  simp only [Statement.ofMnemonic, sentence, Opcode.mnemonic_ne_directive, if_false,
    Opcode.ofMnemonic?_mnemonic, hCount, if_true, readOperands]

/-- An instruction whose registers exist is encoded from its own text. -/
theorem instructionWord_readOperands {symbols : Symbols} (hSymbols : symbols.NameIo)
    {instruction : Instruction} (hRegisters : instruction.registersExist = true) :
    instructionWord symbols instruction.opcode instruction.readOperands
      = .ok instruction.encode := by
  have hRegister : ∀ operand ∈ instruction.registers,
      (Operand.ofText (registerName operand).toList .register).byte symbols = .ok operand := by
    intro operand hMem
    have hLess := List.all_eq_true.1 hRegisters operand hMem
    exact byte_registerName symbols (by simpa using hLess)
  have hValue := byte_hexByte symbols
  have hTarget := byte_decimal symbols
  have hAddress := byte_ioName hSymbols
  cases instruction <;>
    simp_all [instructionWord, operandBytes, readOperands, listedOperands, operandKinds, opcode,
      registers, encode, fields, operands]

end Instruction

/-! ## Words -/

namespace Listing

theorem plain_wordDigits (word : UInt32) : Plain (wordDigits word).toList :=
  plain_padded (by decide) (by decide) 6 word.toNat

/-- A mnemonic with the digits of a word behind it. -/
def digitsSentence (mnemonic : String) (hMnemonic : Plain mnemonic.toList) (word : UInt32) :
    Sentence where
  mnemonic := mnemonic
  operands := ['0' :: 'x' :: (wordDigits word).toList]
  plainMnemonic := hMnemonic
  plainOperands := by simp [wordDigits, plain_hex]

theorem text_digitsSentence (mnemonic : String) (hMnemonic : Plain mnemonic.toList) (word : UInt32) :
    (digitsSentence mnemonic hMnemonic word).text
      = mnemonic.toList ++ ' ' :: '0' :: 'x' :: (wordDigits word).toList := by
  simp [digitsSentence, Sentence.text, Sentence.operandList]

/-- The sentence by which a word is listed as data. -/
def dataSentence : UInt32 → Sentence :=
  digitsSentence Directive.word.name (by decide)

def unknownMark : String := "???"

/-- The sentence by which a word with an unknown opcode is listed. -/
def unknownSentence : UInt32 → Sentence :=
  digitsSentence unknownMark (by decide)

/-- A word with a known opcode is listed as an instruction that encodes it, or as data. -/
theorem toList_wordText_of_known {word : UInt32} (h : (Fields.split word).opcode ≤ 0x0B) :
    (∃ instruction : Instruction, instruction.encode = significant word ∧
        instruction.registersExist = true ∧ (wordText word).toList = instruction.sentence.text) ∨
      (wordText word).toList = (dataSentence (significant word)).text := by
  cases hDecode : Instruction.ofFields (.split word) with
  | error reason =>
      have hUnknown := (Instruction.ofFields_eq_error_iff.1 hDecode).1
      exact absurd h (UInt8.not_le.2 hUnknown)
  | ok instruction =>
      by_cases hText : instruction.encode = significant word ∧ instruction.registersExist = true
      · refine .inl ⟨instruction, hText.1, hText.2, ?_⟩
        rw [← Instruction.toList_text]
        simp [wordText, Instruction.decode, Fields.split_significant, hDecode, hText]
      · right
        simp [wordText, Instruction.decode, Fields.split_significant, hDecode, hText, dataSentence,
          text_digitsSentence, Directive.name]

theorem toList_wordText_of_unknown {word : UInt32} (h : 0x0B < (Fields.split word).opcode) :
    (wordText word).toList = (unknownSentence (significant word)).text := by
  have hDecode := Instruction.ofFields_eq_error_iff.2 ⟨h, rfl⟩
  simp [wordText, Instruction.decode, Fields.split_significant, hDecode, unknownSentence,
    text_digitsSentence, unknownMark]

/-- Every word is listed as a sentence. -/
theorem exists_sentence_wordText (word : UInt32) :
    ∃ sentence : Sentence, (wordText word).toList = sentence.text := by
  by_cases h : 0x0B < (Fields.split word).opcode
  · exact ⟨_, toList_wordText_of_unknown h⟩
  · rcases toList_wordText_of_known (UInt8.not_lt.1 h) with ⟨_, -, -, hText⟩ | hText
    · exact ⟨_, hText⟩
    · exact ⟨_, hText⟩

theorem lineFeed_not_mem_wordText (word : UInt32) : '\n' ∉ (wordText word).toList := by
  obtain ⟨sentence, hText⟩ := exists_sentence_wordText word
  rw [hText]
  exact sentence.not_mem_text (by decide) (by decide) (by decide)

end Listing

namespace Assembly

/-- The item is a word under every table that names the I/O registers. -/
def Item.StandsFor (item : Item) (word : UInt32) : Prop :=
  ∀ symbols : Symbols, symbols.NameIo → item.encode symbols = .ok word

/-- The data of a word is the word. -/
theorem standsFor_word (number : Nat) {word : UInt32} (h : word.toNat ≤ 0xFFFFFF) :
    (Item.word number (.ofText ('0' :: 'x' :: (Listing.wordDigits word).toList))).StandsFor word := by
  intro symbols _
  have hInt : (Int64.ofInt word.toNat).toInt = word.toNat := toInt_ofInt_natCast (by omega)
  have hRange : 0 ≤ Int64.ofInt word.toNat ∧ Int64.ofInt word.toNat ≤ 0xFFFFFF :=
    ofInt_between 0xFFFFFF h (by decide)
  have hValue : (Expression.ofText ('0' :: 'x' :: (Listing.wordDigits word).toList)).value symbols
      = .ok (.ofInt word.toNat) := value_hex symbols 6 (by omega)
  have hData : dataWord symbols (.ofText ('0' :: 'x' :: (Listing.wordDigits word).toList)) = .ok word := by
    rw [dataWord, hValue]
    simp only [hRange, and_self, if_true, hInt, Int.toNat_natCast, Nat.toUInt32_eq, UInt32.ofNat_toNat]
  rw [Item.encode, hData]
  rfl

theorem ofMnemonic_word (operand : List Char) :
    Statement.ofMnemonic Directive.word.name [operand] = .ok (.word (.ofText operand)) := by
  have hWord : Directive.word.name.toList.map Char.toUpper = Directive.word.name.toList := by decide
  simp only [Statement.ofMnemonic, hWord, if_true, soleOperand]
  rfl

theorem ofMnemonic_unknownMark (operands : List (List Char)) :
    Statement.ofMnemonic Listing.unknownMark operands
      = .error (.unknownMnemonic Listing.unknownMark) := by
  have hDirective : ∀ directive : Directive,
      Listing.unknownMark.toList.map Char.toUpper ≠ directive.name.toList := by
    intro directive
    cases directive <;> decide
  have hNone : Opcode.ofMnemonic? Listing.unknownMark = none := by decide
  simp only [Statement.ofMnemonic, hDirective, if_false, hNone]

namespace Layout

/-- The line of a word with a known opcode places one item, which stands for the word. -/
theorem line_of_known {word : UInt32} (h : (Fields.split word).opcode ≤ 0x0B) (number : Nat) :
    ∃ item : Item, item.StandsFor (significant word) ∧
      ∀ layout : Layout,
        layout.line number (Listing.wordText word).toList = .ok (layout.placeItem item) := by
  rcases Listing.toList_wordText_of_known h with ⟨instruction, hEncode, hRegisters, hText⟩ | hText
  · refine ⟨.instruction number instruction.opcode instruction.readOperands, ?_, ?_⟩
    · intro symbols hSymbols
      rw [Item.encode, instruction.instructionWord_readOperands hSymbols hRegisters, hEncode]
      rfl
    · intro layout
      rw [hText, line_of_content instruction.sentence.content_text, instruction.ofMnemonic_sentence]
      rfl
  · have hLess := toNat_significant word
    refine ⟨_, standsFor_word number (by omega), ?_⟩
    intro layout
    rw [hText, line_of_content (Sentence.content_text _)]
    simp only [Listing.dataSentence, Listing.digitsSentence, ofMnemonic_word, statement]

/-- That of a word with an unknown opcode is refused. -/
theorem line_of_unknown {word : UInt32} (h : 0x0B < (Fields.split word).opcode)
    (layout : Layout) (number : Nat) :
    layout.line number (Listing.wordText word).toList
      = .error (.unknownMnemonic Listing.unknownMark) := by
  rw [Listing.toList_wordText_of_unknown h, line_of_content (Sentence.content_text _)]
  simp only [Listing.unknownSentence, Listing.digitsSentence, ofMnemonic_unknownMark]

/-- The lines of words with known opcodes place items that stand for the words. -/
theorem lines_wordTexts {words : List UInt32}
    (h : ∀ word ∈ words, (Fields.split word).opcode ≤ 0x0B) (layout : Layout) (start : Nat) :
    ∃ items : List Item,
      layout.lines ((words.map fun word => (Listing.wordText word).toList).zipIdx start)
          = .ok { layout with items := layout.items ++ items } ∧
        ∀ symbols : Symbols, symbols.NameIo →
          encodeAll symbols items = .ok (words.map significant) := by
  induction words generalizing layout start with
  | nil => exact ⟨[], by simp [lines], fun symbols _ => rfl⟩
  | cons word rest ih =>
      obtain ⟨item, hItem, hLine⟩ := line_of_known (h word (by simp)) start
      obtain ⟨items, hLines, hItems⟩ :=
        ih (fun other hMem => h other (by simp [hMem])) (layout.placeItem item) (start + 1)
      refine ⟨item :: items, ?_, ?_⟩
      · simp only [List.map_cons, List.zipIdx_cons, lines, hLine, hLines]
        simp [placeItem]
      · intro symbols hSymbols
        simp only [encodeAll, hItem symbols hSymbols, hItems symbols hSymbols, List.map_cons]

/-- The first word with an unknown opcode ends the reading, on its line. -/
theorem lines_of_unknown {words : List UInt32} {index : Nat}
    (h : words.findIdx? (fun word => 0x0B < (Fields.split word).opcode) = some index)
    (layout : Layout) (start : Nat) :
    layout.lines ((words.map fun word => (Listing.wordText word).toList).zipIdx start)
      = .error (.line (index + start) (.unknownMnemonic Listing.unknownMark)) := by
  induction words generalizing index layout start with
  | nil => cases h
  | cons word rest ih =>
      by_cases hUnknown : 0x0B < (Fields.split word).opcode
      · have hIndex : 0 = index := by simpa [List.findIdx?_cons, hUnknown] using h
        simp only [List.map_cons, List.zipIdx_cons, lines, line_of_unknown hUnknown]
        rw [← hIndex, Nat.zero_add]
      · obtain ⟨item, -, hLine⟩ := line_of_known (UInt8.not_lt.1 hUnknown) start
        obtain ⟨later, hLater, rfl⟩ : ∃ later, rest.findIdx? _ = some later ∧ later + 1 = index := by
          simpa [List.findIdx?_cons, hUnknown] using h
        simp only [List.map_cons, List.zipIdx_cons, lines, hLine, ih hLater]
        rw [Nat.add_assoc, Nat.add_comm 1 start]

end Layout

end Assembly

/-- Words that are listed and assembled again come back without their upper bytes, if all
of them have known opcodes and they fit into program memory.  Else the first word with an
unknown opcode is reported on its line, or the size of the program. -/
theorem assemble_wordTexts (words : List UInt32) :
    assemble (ofLines (words.map Listing.wordText))
      = match words.findIdx? fun word => 0x0B < (Fields.split word).opcode with
        | some index => .error (.line (index + 1) (.unknownMnemonic "???"))
        | none =>
          if words.length ≤ 256 then .ok { words := words.map significant, subroutines := [] }
          else .error (.program (.tooLarge words.length)) := by
  have hLines : numberedLines (ofLines (words.map Listing.wordText)).toList
      = (words.map fun word => (Listing.wordText word).toList).zipIdx 1 := by
    have hFeed : ∀ text ∈ words.map Listing.wordText, '\n' ∉ text.toList := by
      intro text hText
      obtain ⟨word, -, rfl⟩ := List.mem_map.1 hText
      exact Listing.lineFeed_not_mem_wordText word
    rw [numberedLines, lines_ofLines hFeed, List.map_map]
    rfl
  rw [assemble, Layout.ofSource, hLines]
  cases hFind : words.findIdx? fun word => 0x0B < (Fields.split word).opcode with
  | some index =>
      rw [Layout.lines_of_unknown hFind]
      rfl
  | none =>
      have hKnown : ∀ word ∈ words, (Fields.split word).opcode ≤ 0x0B := by
        intro word hMem
        have hNot := List.findIdx?_eq_none_iff.1 hFind word hMem
        exact UInt8.not_lt.1 (of_decide_eq_false hNot)
      obtain ⟨items, hLayout, hItems⟩ := Layout.lines_wordTexts hKnown {} 1
      have hWords := hItems .builtin Symbols.nameIo_builtin
      rw [hLayout]
      simp only [Layout.program, List.nil_append, hWords, Layout.subroutines, Layout.ranges,
        Program.check, Program.checkRanges, Program.size, List.length_map, programSize]
      by_cases hFits : words.length ≤ 256
      · simp only [Nat.not_lt.2 hFits, hFits, if_true, if_false]
      · simp only [Nat.not_le.1 hFits, hFits, if_true, if_false]

end ControlUnit
