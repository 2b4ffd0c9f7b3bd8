import ControlUnit.Proofs.Placement

/-!
# Resolution

What the words of an assembled program are.  `Resolution` describes the program of a source
text without the two passes: its lines with the words that each of them emits, and one table
for the whole text.  A line stands at the number of words emitted before it, which is the
value of its label; a statement emits the words that its operands give under the table,
wherever the symbols it uses are defined; a constant or an origin uses only what stands
before it in the text.

The table of a layout grows line by line and is complete only at its end.  That an early
value is also the final one is the reason why both passes agree, and is carried over from
`Expression.value_of_extends`.

## Main results

* `Emits.of_step` — a step of the layout emits what its statement says.
* `Laid.resolution` — the words that a layout is encoded to resolve its lines.
* `resolution_of_assemble` — every assembled program is the resolution of its source text.
-/

namespace ControlUnit.Assembly

/-! ## What lines mean under one table -/

/-- The byte that the operand of a given kind puts into its field: the number of a register,
or the value of an expression.  A field without an operand is zero. -/
inductive FieldByte (symbols : Symbols) : Option OperandKind → Option Operand → UInt8 → Prop
  | unused : FieldByte symbols none none 0
  | register {number : UInt8} (hNumber : number.toNat < 32) :
      FieldByte symbols (some .register) (some (.register number)) number
  | value {expression : Expression} {found : Int64} {byte : UInt8}
      (hValue : expression.value symbols = .ok found) (hByte : found.toInt = byte.toNat) :
      FieldByte symbols (some .value) (some (.value expression)) byte

/-- The words that the statement of a line emits at an address. -/
inductive Emits (symbols : Symbols) (address : Nat) : Option Statement → List UInt32 → Prop
  | nothing : Emits symbols address none []
  | constant {name : String} {expression : Expression} {value : Int64}
      (hValue : expression.value symbols = .ok value)
      (hName : symbols.value? name = some value) :
      Emits symbols address (some (.constant name expression)) []
  | origin {expression : Expression} {origin : Int64} {count : Nat}
      (hValue : expression.value symbols = .ok origin)
      (hOrigin : origin.toInt = (address + count : Nat)) :
      Emits symbols address (some (.origin expression)) (List.replicate count 0)
  | word {expression : Expression} {value : Int64} {word : UInt32}
      (hValue : expression.value symbols = .ok value) (hWord : value.toInt = word.toNat)
      (hRange : word.toNat ≤ 0xFFFFFF) :
      Emits symbols address (some (.word expression)) [word]
  | instruction {opcode : Opcode} {operands : List Operand} {first second : UInt8}
      (hCount : operands.length = (operandKinds opcode).length)
      (hFirst : FieldByte symbols (operandKinds opcode)[0]? operands[0]? first)
      (hSecond : FieldByte symbols (operandKinds opcode)[1]? operands[1]? second) :
      Emits symbols address (some (.instruction opcode operands))
        [opcode.code.toUInt32 <<< 16 ||| first.toUInt32 <<< 8 ||| second.toUInt32]

/-- The expression that a statement needs at once. -/
def Statement.early? : Statement → Option Expression
  | constant _ value => some value
  | origin address => some address
  | _ => none

/-- The names that are known where a line is laid out: the built-in ones, those of the lines
before, and the label of the line itself. -/
def knownNames (before : List (Emission UInt32)) (line : Line) : List String :=
  Symbols.builtin.names ++ (before.flatMap fun emission => emission.line.names) ++ line.labelNames

/-- The expression uses known names only, and a table of just these gives it the value that
the whole table does. -/
structure Settled (symbols : Symbols) (known : List String) (expression : Expression) : Prop where
  names : ∀ name ∈ expression.names, name ∈ known
  value : ∃ partialTable : Symbols,
    (∀ name, partialTable.value? name = if name ∈ known then symbols.value? name else none) ∧
      ∃ value, expression.value partialTable = .ok value ∧ expression.value symbols = .ok value

/-- What a line says is resolved by the words that it emits behind the lines before. -/
structure Resolved (symbols : Symbols) (before : List (Emission UInt32))
    (emission : Emission UInt32) : Prop where
  label : ∀ label, emission.line.label? = some label →
    ∃ value, symbols.value? label.name = some value ∧ value.toInt = (emittedBy before).length
  words : Emits symbols (emittedBy before).length emission.line.statement? emission.emitted
  early : ∀ statement expression, emission.line.statement? = some statement →
    statement.early? = some expression → Settled symbols (knownNames before emission.line) expression

/-- The table holds the built-in symbols and those that the lines define, each of them once,
and every line is resolved under it. -/
structure Resolution (symbols : Symbols) (emissions : List (Emission UInt32)) : Prop where
  builtin : symbols.Extends Symbols.builtin
  names : ∀ name, (∃ value, symbols.value? name = some value) ↔
    name ∈ Symbols.builtin.names ∨ ∃ emission ∈ emissions, name ∈ emission.line.names
  distinct : (Symbols.builtin.names
    ++ emissions.flatMap fun emission => emission.line.names).Nodup
  resolved : ∀ before emission after, emissions = before ++ emission :: after →
    Resolved symbols before emission

/-! ## Words of items -/

/-- The word that an item is encoded to, if it can be encoded. -/
def Item.encoded (symbols : Symbols) (item : Item) : UInt32 :=
  match item.encode symbols with
  | .ok encoded => encoded
  | .error _ => 0

variable {symbols : Symbols}

theorem encode_of_encodeAll {items : List Item} {words : List UInt32}
    (h : encodeAll symbols items = .ok words) :
    (∀ item ∈ items, item.encode symbols = .ok (item.encoded symbols)) ∧
      words = items.map (Item.encoded symbols) := by
  induction items generalizing words with
  | nil =>
      cases h
      exact ⟨by simp, rfl⟩
  | cons item rest ih =>
      rw [encodeAll] at h
      cases hWord : item.encode symbols with
      | error reason => simp [hWord] at h
      | ok word =>
          have hEncoded : item.encoded symbols = word := by rw [Item.encoded, hWord]
          cases hRest : encodeAll symbols rest with
          | error reason => simp [hWord, hRest] at h
          | ok more =>
              simp only [hWord, hRest, Except.ok.injEq] at h
              subst h
              obtain ⟨hEach, hMore⟩ := ih hRest
              refine ⟨?_, by rw [List.map_cons, hEncoded, hMore]⟩
              rintro other hOther
              rcases List.mem_cons.1 hOther with rfl | hOther
              · rw [hWord, hEncoded]
              · exact hEach other hOther

theorem length_of_encodeAll {items : List Item} {words : List UInt32}
    (h : encodeAll symbols items = .ok words) : words.length = items.length := by
  rw [(encode_of_encodeAll h).2, List.length_map]

/-- Items that cannot be encoded fail like one of them. -/
theorem exists_item_of_encodeAll {items : List Item} {reason : AssemblyError}
    (h : encodeAll symbols items = .error reason) :
    ∃ item ∈ items, item.encode symbols = .error reason := by
  induction items with
  | nil => cases h
  | cons item rest ih =>
      rw [encodeAll] at h
      cases hWord : item.encode symbols with
      | error cause =>
          rw [hWord] at h
          cases h
          exact ⟨item, List.mem_cons_self, hWord⟩
      | ok word =>
          cases hRest : encodeAll symbols rest with
          | error cause =>
              rw [hWord, hRest] at h
              cases h
              obtain ⟨other, hMem, hOther⟩ := ih hRest
              exact ⟨other, List.mem_cons_of_mem item hMem, hOther⟩
          | ok more => simp [hWord, hRest] at h

/-- Data is encoded to the value of its expression. -/
theorem dataWord_eq_ok {expression : Expression} {word : UInt32}
    (h : dataWord symbols expression = .ok word) :
    ∃ value, expression.value symbols = .ok value ∧ value.toInt = word.toNat ∧
      word.toNat ≤ 0xFFFFFF := by
  rw [dataWord] at h
  cases hValue : expression.value symbols with
  | error cause => simp [hValue] at h
  | ok value =>
      simp only [hValue] at h
      split at h
      · rename_i hRange
        cases h
        have hLow : 0 ≤ value.toInt := Int64.le_iff_toInt_le.1 hRange.1
        have hHigh : value.toInt ≤ 0xFFFFFF := Int64.le_iff_toInt_le.1 hRange.2
        have hWord : value.toInt.toNat.toUInt32.toNat = value.toInt.toNat :=
          UInt32.toNat_ofNat_of_lt' (by rw [UInt32.size]; omega)
        exact ⟨value, rfl, by rw [hWord]; omega, by rw [hWord]; omega⟩
      · cases h

/-- An operand is encoded to the byte of its kind. -/
theorem fieldByte_of_byte {operand : Operand} {byte : UInt8} (hExists : operand.Exists)
    (h : operand.byte symbols = .ok byte) :
    FieldByte symbols (some operand.kind) (some operand) byte := by
  cases operand with
  | register number =>
      cases h
      exact .register hExists
  | unknownRegister text => cases h
  | value expression =>
      rw [Operand.byte] at h
      cases hValue : expression.value symbols with
      | error cause => simp [hValue] at h
      | ok found =>
          simp only [hValue] at h
          split at h
          · rename_i hRange
            cases h
            have hLow : 0 ≤ found.toInt := Int64.le_iff_toInt_le.1 hRange.1
            have hHigh : found.toInt ≤ 255 := Int64.le_iff_toInt_le.1 hRange.2
            have hByte : found.toInt.toNat.toUInt8.toNat = found.toInt.toNat :=
              UInt8.toNat_ofNat_of_lt' (by rw [UInt8.size]; omega)
            exact .value hValue (by rw [hByte]; omega)
          · cases h

theorem byte_of_operandBytes {operands : List Operand} {bytes : List UInt8}
    (h : operandBytes symbols operands = .ok bytes) :
    operands.map (Operand.byte symbols) = bytes.map .ok := by
  induction operands generalizing bytes with
  | nil =>
      cases h
      rfl
  | cons operand rest ih =>
      rw [operandBytes] at h
      cases hByte : operand.byte symbols with
      | error cause => simp [hByte] at h
      | ok byte =>
          cases hRest : operandBytes symbols rest with
          | error cause => simp [hByte, hRest] at h
          | ok more =>
              simp only [hByte, hRest, Except.ok.injEq] at h
              subst h
              rw [List.map_cons, List.map_cons, hByte, ih hRest]

/-- Each field of an instruction holds the byte of its operand, if there is one. -/
theorem fieldByte_getElem? {operands : List Operand} {bytes : List UInt8}
    (hExists : ∀ operand ∈ operands, operand.Exists)
    (h : operandBytes symbols operands = .ok bytes) (index : Nat) :
    FieldByte symbols (operands.map Operand.kind)[index]? operands[index]?
      (bytes[index]?.getD 0) := by
  have hBytes := congrArg (·[index]?) (byte_of_operandBytes h)
  simp only [List.getElem?_map] at hBytes
  rw [List.getElem?_map]
  cases hOperand : operands[index]? with
  | none =>
      rw [hOperand, Option.map_none, eq_comm, Option.map_eq_none_iff] at hBytes
      rw [hBytes]
      exact .unused
  | some operand =>
      rw [hOperand, Option.map_some, eq_comm, Option.map_eq_some_iff] at hBytes
      obtain ⟨byte, hByte, hEq⟩ := hBytes
      rw [hByte]
      exact fieldByte_of_byte (hExists operand (List.mem_of_getElem? hOperand)) hEq.symm

/-- An instruction is encoded to its opcode with the bytes of its operands. -/
theorem instructionWord_eq_ok {opcode : Opcode} {operands : List Operand} {word : UInt32}
    (h : instructionWord symbols opcode operands = .ok word) :
    ∃ bytes : List UInt8, operandBytes symbols operands = .ok bytes ∧
      word = Fields.join ⟨opcode.code, bytes[0]?.getD 0, bytes[1]?.getD 0⟩ := by
  rw [instructionWord] at h
  cases hBytes : operandBytes symbols operands with
  | error cause => simp [hBytes] at h
  | ok bytes =>
      simp only [hBytes, Except.ok.injEq] at h
      exact ⟨bytes, rfl, h.symm⟩

theorem eq_ok_of_mapError {ε δ α : Type} {result : Except ε α} {f : ε → δ} {value : α}
    (h : result.mapError f = .ok value) : result = .ok value := by
  cases result with
  | error cause => cases h
  | ok found =>
      cases h
      rfl

/-! ## From layouts to resolutions -/

/-- A step of the layout emits what its statement says, under every table that extends the
one it leaves. -/
theorem Emits.of_step {layout next : Layout} {number : Nat} {statement? : Option Statement}
    {items : List Item} (hStep : Layout.StatementStep number layout statement? items next)
    (hWellFormed : ∀ statement, statement? = some statement → statement.WellFormed)
    (hExtends : symbols.Extends next.symbols)
    (hEncode : ∀ item ∈ items, item.encode symbols = .ok (item.encoded symbols)) :
    Emits symbols layout.address statement? (items.map (Item.encoded symbols)) := by
  have hEarlier : symbols.Extends layout.symbols := hExtends.trans hStep.extends
  cases hStep with
  | none => exact .nothing
  | constant hValue hDefine =>
      refine .constant (Expression.value_of_extends hEarlier hValue) ?_
      exact hExtends _ _ (Symbols.value?_define_self hDefine)
  | origin hValue hOrigin =>
      have hFill : Item.fill.encoded symbols = 0 := rfl
      rw [List.map_replicate, hFill]
      exact .origin (Expression.value_of_extends hEarlier hValue) hOrigin
  | word =>
      have hWord := eq_ok_of_mapError (hEncode _ (List.mem_singleton_self _))
      obtain ⟨value, hValue, hEq, hRange⟩ := dataWord_eq_ok hWord
      exact .word hValue hEq hRange
  | @instruction opcode operands =>
      have hWord := eq_ok_of_mapError (hEncode _ (List.mem_singleton_self _))
      obtain ⟨bytes, hBytes, hEq⟩ := instructionWord_eq_ok hWord
      obtain ⟨hKinds, hExists⟩ := hWellFormed _ rfl
      rw [List.map_singleton, hEq]
      refine .instruction (by rw [← hKinds, List.length_map]) ?_ ?_
      · rw [← hKinds]
        exact fieldByte_getElem? hExists hBytes 0
      · rw [← hKinds]
        exact fieldByte_getElem? hExists hBytes 1

/-- A table that has just the known names settles an expression to which it gives a value. -/
theorem Settled.of_extends {partialTable : Symbols} {known : List String} {expression : Expression}
    {value : Int64} (hExtends : symbols.Extends partialTable)
    (hNames : ∀ name, name ∈ partialTable.names ↔ name ∈ known)
    (hValue : expression.value partialTable = .ok value) : Settled symbols known expression where
  names name hName := (hNames name).1 (Expression.mem_names_of_value hValue name hName)
  value := by
    refine ⟨partialTable, fun name => ?_, value, hValue, Expression.value_of_extends hExtends hValue⟩
    by_cases hKnown : name ∈ known
    · obtain ⟨found, hFound⟩ := Symbols.mem_names_iff.1 ((hNames name).2 hKnown)
      rw [if_pos hKnown, hFound, hExtends name found hFound]
    · have hNotMem : name ∉ partialTable.names := fun hName => hKnown ((hNames name).1 hName)
      rw [if_neg hKnown, Symbols.value?_eq_none_iff.2 hNotMem]

theorem Layout.StatementStep.exists_value_of_early {layout next : Layout} {number : Nat}
    {statement : Statement} {items : List Item}
    (h : StatementStep number layout (some statement) items next) {expression : Expression}
    (hEarly : statement.early? = some expression) :
    ∃ value, expression.value layout.symbols = .ok value := by
  cases h with
  | constant hValue hDefine =>
      cases hEarly
      exact ⟨_, hValue⟩
  | origin hValue hOrigin =>
      cases hEarly
      exact ⟨_, hValue⟩
  | word => cases hEarly
  | instruction => cases hEarly

namespace Laid

variable {emissions : List (Emission Item)} {layout : Layout}

/-- The lines of a layout with the words that their items are encoded to. -/
def resolve (symbols : Symbols) (emissions : List (Emission Item)) : List (Emission UInt32) :=
  emissions.map (Emission.map (Item.encoded symbols))

theorem emittedBy_resolve (symbols : Symbols) (emissions : List (Emission Item)) :
    emittedBy (resolve symbols emissions) = (emittedBy emissions).map (Item.encoded symbols) :=
  emittedBy_map _ emissions

theorem names_resolve (symbols : Symbols) (emissions : List (Emission Item)) :
    ((resolve symbols emissions).flatMap fun emission => emission.line.names)
      = emissions.flatMap fun emission => emission.line.names := by
  rw [resolve, List.flatMap_map]
  rfl

/-- Each line of a layout is resolved by the words of its items. -/
theorem resolved (h : Laid emissions layout)
    (hRead : ∀ emission ∈ emissions, emission.line.WellFormed) {words : List UInt32}
    (hEncode : encodeAll layout.symbols layout.items = .ok words) (hSize : words.length ≤ 256)
    {before after : List (Emission Item)} {emission : Emission Item}
    (hSplit : emissions = before ++ emission :: after) :
    Resolved layout.symbols (resolve layout.symbols before)
      (emission.map (Item.encoded layout.symbols)) := by
  obtain ⟨earlier, labelled, next, number, hEarlier, hLabel, hStatement, hExtends⟩ := h.split hSplit
  have hLabelled : layout.symbols.Extends labelled.symbols := hExtends.trans hStatement.extends
  have hAddress : (emittedBy (resolve layout.symbols before)).length = earlier.address := by
    rw [emittedBy_resolve, List.length_map, hEarlier.address_eq]
  have hSame : labelled.address = earlier.address := by
    rw [Layout.address, Layout.address, hLabel.items_eq]
  have hBound : earlier.address ≤ 256 := by
    have hTotal := length_of_encodeAll hEncode
    rw [h.emitted_eq] at hTotal
    rw [hSplit, emittedBy_append, List.length_append] at hTotal
    rw [hEarlier.address_eq]
    omega
  refine { label := ?_, words := ?_, early := ?_ }
  · intro label hSome
    change emission.line.label? = some label at hSome
    rw [hSome] at hLabel
    cases hLabel with
    | some hDefine =>
        refine ⟨earlier.address.toInt64, hLabelled _ _ (Symbols.value?_define_self hDefine), ?_⟩
        rw [hAddress]
        exact Int64.toInt_ofNat_of_lt (by omega)
  · rw [hAddress, ← hSame]
    refine Emits.of_step hStatement ?_ hExtends ?_
    · exact (hRead emission (by simp [hSplit])).statement
    · intro item hItem
      apply (encode_of_encodeAll hEncode).1
      rw [h.emitted_eq, hSplit, emittedBy_append]
      exact List.mem_append_right _ (List.mem_append_left _ hItem)
  · intro statement expression hSome hEarly
    change emission.line.statement? = some statement at hSome
    rw [hSome] at hStatement
    obtain ⟨value, hValue⟩ := hStatement.exists_value_of_early hEarly
    refine Settled.of_extends hLabelled (fun name => ?_) hValue
    rw [knownNames, names_resolve, hLabel.names_eq.1, List.mem_append, hEarlier.mem_names_iff,
      List.mem_append, List.mem_append, List.mem_flatMap]
    exact Or.comm

/-- The words that a layout is encoded to resolve its lines. -/
theorem resolution (h : Laid emissions layout)
    (hRead : ∀ emission ∈ emissions, emission.line.WellFormed) {words : List UInt32}
    (hEncode : encodeAll layout.symbols layout.items = .ok words) (hSize : words.length ≤ 256) :
    Resolution layout.symbols (resolve layout.symbols emissions) where
  builtin := h.extends_builtin
  names name := by
    rw [← Symbols.mem_names_iff, h.mem_names_iff, ← List.mem_flatMap, ← List.mem_flatMap,
      names_resolve]
  distinct := by
    have hNodup := h.nodup_names
    rw [h.names_eq] at hNodup
    rw [names_resolve]
    exact (((List.reverse_perm _).append_right _).trans List.perm_append_comm).nodup hNodup
  resolved before emission after hSplit := by
    obtain ⟨first, rest, rfl, rfl, hRest⟩ := List.map_eq_append_iff.1 hSplit
    obtain ⟨found, last, rfl, rfl, rfl⟩ := List.map_eq_cons_iff.1 hRest
    exact h.resolved hRead hEncode hSize rfl

end Laid

/-! ## Programs -/

/-- The words of a program are those that the lines of the source text emit, and all lines are
resolved under one table. -/
structure Resolves (symbols : Symbols) (emissions : List (Emission UInt32)) (source : String)
    (program : Program) : Prop where
  lines : (Text.lines source.toList).map Line.ofText
    = emissions.map fun emission => .ok emission.line
  words : program.words = emittedBy emissions
  resolution : Resolution symbols emissions

/-- A program that assembles is that of a layout of the source text whose items can all be
encoded. -/
theorem exists_layout_of_assemble {source : String} {program : Program}
    (h : assemble source = .ok program) :
    ∃ layout, Layout.ofSource source.toList = .ok layout ∧
      encodeAll layout.symbols layout.items = .ok program.words ∧
      program.subroutines = layout.subroutines ∧ program.check = .ok () := by
  rw [assemble] at h
  cases hLayout : Layout.ofSource source.toList with
  | error reason => simp [hLayout] at h
  | ok layout =>
      simp only [hLayout, Layout.program] at h
      cases hWords : encodeAll layout.symbols layout.items with
      | error reason => simp [hWords] at h
      | ok words =>
          simp only [hWords] at h
          split at h
          · rename_i hCheck
            cases h
            exact ⟨layout, rfl, hWords, rfl, hCheck⟩
          · cases h

theorem exists_laid_of_assemble {source : String} {program : Program}
    (h : assemble source = .ok program) :
    ∃ (emissions : List (Emission Item)) (layout : Layout),
      (Text.lines source.toList).map Line.ofText
          = emissions.map (fun emission => .ok emission.line) ∧
        Laid emissions layout ∧ encodeAll layout.symbols layout.items = .ok program.words ∧
        program.subroutines = layout.subroutines ∧ program.check = .ok () := by
  obtain ⟨layout, hLayout, hEncode, hTable, hCheck⟩ := exists_layout_of_assemble h
  obtain ⟨emissions, hLines, hLaid⟩ := Layout.exists_laid hLayout
  exact ⟨emissions, layout, hLines, hLaid, hEncode, hTable, hCheck⟩

/-- Every line of a layout was read from a line of the source text. -/
theorem wellFormed_of_map_ofText {texts : List (List Char)} {emissions : List (Emission Item)}
    (h : texts.map Line.ofText = emissions.map fun emission => .ok emission.line) :
    ∀ emission ∈ emissions, emission.line.WellFormed := by
  intro emission hMem
  have hLines : texts.map Line.ofText = (emissions.map Emission.line).map .ok := by
    rw [h, List.map_map]
    rfl
  obtain ⟨text, -, hText⟩ := exists_of_map_eq_map_ok hLines (List.mem_map_of_mem hMem)
  exact Line.wellFormed_of_ofText hText

theorem Laid.resolves {emissions : List (Emission Item)} {layout : Layout} {source : String}
    {program : Program} (hLaid : Laid emissions layout)
    (hLines : (Text.lines source.toList).map Line.ofText
      = emissions.map fun emission => .ok emission.line)
    (hEncode : encodeAll layout.symbols layout.items = .ok program.words)
    (hSize : program.size ≤ programSize) :
    Resolves layout.symbols (Laid.resolve layout.symbols emissions) source program where
  lines := by
    rw [hLines, Laid.resolve, List.map_map]
    rfl
  words := by
    rw [Laid.emittedBy_resolve, ← hLaid.emitted_eq]
    exact (encode_of_encodeAll hEncode).2
  resolution := hLaid.resolution (wellFormed_of_map_ofText hLines) hEncode hSize

/-- **Every assembled program is the resolution of its source text**: all its lines can be
read, its words are those that the lines emit, in order, and there is one table under which
the lines are resolved. -/
theorem resolution_of_assemble {source : String} {program : Program}
    (h : assemble source = .ok program) :
    ∃ (symbols : Symbols) (emissions : List (Emission UInt32)),
      Resolves symbols emissions source program := by
  obtain ⟨emissions, layout, hLines, hLaid, hEncode, -, hCheck⟩ := exists_laid_of_assemble h
  exact ⟨_, _, hLaid.resolves hLines hEncode (Program.check_eq_ok_iff.1 hCheck).1⟩

/-! ## A sample -/

/-- A text with a symbol that is used before it is defined, words before an origin, and labels
that share an address or stand at the end. -/
def forwardSource : String :=
  "first: LDI R1, last | 1\nSIZE = 1 << 1\nempty:\nsecond: ORG SIZE | 4\n"
    ++ ".last: JMP first\n DW last\nend:"

def forwardProgram : Program where
  words := [0x010107, 0, 0, 0, 0, 0, 0x070000, 0x000006]
  subroutines := [⟨"first", 0, 1⟩, ⟨"second", 1, 8⟩]

theorem assemble_forwardSource : assemble forwardSource = .ok forwardProgram := by
  have hResult : (assemble forwardSource).toOption = some forwardProgram := by decide +kernel
  exact eq_ok_of_toOption hResult

theorem resolution_forwardSource :
    assemble forwardSource = .ok forwardProgram ∧
      ∃ (symbols : Symbols) (emissions : List (Emission UInt32)),
        Resolves symbols emissions forwardSource forwardProgram :=
  ⟨assemble_forwardSource, resolution_of_assemble assemble_forwardSource⟩

end ControlUnit.Assembly
