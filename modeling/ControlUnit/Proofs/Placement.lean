import ControlUnit.Assembly
import ControlUnit.Proofs.Evaluation
import ControlUnit.Proofs.SourceLine

/-!
# Placement

How a source text becomes a layout, line by line.  The label of a line is placed first
(`Layout.LabelStep`), then its statement is carried out with the label already in the table
(`Layout.StatementStep`).  Each relation says everything its step can do, so what holds of a
layout follows by induction over the lines (`Laid`), and never from the text of a line.

An emission is a line with the things it emits: items while the text is laid out, words
once these are encoded.  The address of a line is the number of things that the lines
before it emit.

## Main results

* `Layout.exists_laid` — a layout comes from lines that can all be read.
* `Laid.emitted_eq`, `Laid.openings_eq` — the items and the openings of a layout.
* `Laid.split` — each line was laid out after those before it, and the table has only
  grown since.
-/

namespace ControlUnit.Assembly

/-! ## Emissions -/

/-- A line with what it emits. -/
structure Emission (α : Type) where
  line : Line
  emitted : List α

/-- All that some lines emit, in order. -/
def emittedBy {α : Type} (emissions : List (Emission α)) : List α :=
  emissions.flatMap Emission.emitted

/-- What a label opens at its address, if it is not local. -/
def Label.openings (label : Label) (address : Nat) : List (String × Nat) :=
  if label.isLocal then [] else [(label.name, address)]

/-- The labels of some lines that are not local, with their addresses, in order. -/
def openingsFrom {α : Type} (start : Nat) : List (Emission α) → List (String × Nat)
  | [] => []
  | emission :: rest =>
    emission.line.label?.elim [] (Label.openings · start)
      ++ openingsFrom (start + emission.emitted.length) rest

namespace Emission

variable {α β : Type}

/-- The same line with what is made of the things it emits. -/
def map (f : α → β) (emission : Emission α) : Emission β :=
  ⟨emission.line, emission.emitted.map f⟩

end Emission

section Emissions

variable {α β : Type}

theorem emittedBy_append (first second : List (Emission α)) :
    emittedBy (first ++ second) = emittedBy first ++ emittedBy second := by
  rw [emittedBy, emittedBy, emittedBy, List.flatMap_append]

theorem emittedBy_singleton (emission : Emission α) : emittedBy [emission] = emission.emitted := by
  simp [emittedBy]

theorem emittedBy_map (f : α → β) (emissions : List (Emission α)) :
    emittedBy (emissions.map (Emission.map f)) = (emittedBy emissions).map f := by
  rw [emittedBy, emittedBy, List.flatMap_map, List.map_flatMap]
  rfl

theorem openingsFrom_append (start : Nat) (first second : List (Emission α)) :
    openingsFrom start (first ++ second)
      = openingsFrom start first ++ openingsFrom (start + (emittedBy first).length) second := by
  induction first generalizing start with
  | nil => rfl
  | cons emission rest ih =>
      have hLength : start + (emittedBy (emission :: rest)).length
          = start + emission.emitted.length + (emittedBy rest).length := by
        simp [emittedBy, Nat.add_assoc]
      rw [List.cons_append, openingsFrom, ih, hLength, openingsFrom, List.append_assoc]

/-- Openings do not depend on what the emitted things are. -/
theorem openingsFrom_map (f : α → β) (start : Nat) (emissions : List (Emission α)) :
    openingsFrom start (emissions.map (Emission.map f)) = openingsFrom start emissions := by
  induction emissions generalizing start with
  | nil => rfl
  | cons emission rest ih =>
      rw [List.map_cons, openingsFrom, ih, openingsFrom]
      simp [Emission.map]

end Emissions

/-! ## Steps -/

namespace Layout

variable {layout next : Layout} {number : Nat}

/-- Everything that placing the label of a line can do. -/
inductive LabelStep (layout : Layout) : Option Label → Layout → Prop
  | none : LabelStep layout none layout
  | some {label : Label} {symbols : Symbols}
      (hDefine : layout.symbols.define label.name layout.address.toInt64 = .ok symbols) :
      LabelStep layout (some label)
        { layout with
          symbols := symbols
          openings := layout.openings ++ label.openings layout.address }

/-- Everything that carrying out the statement of a line can do, with the items it places. -/
inductive StatementStep (number : Nat) (layout : Layout) :
    Option Statement → List Item → Layout → Prop
  | none : StatementStep number layout none [] layout
  | constant {name : String} {expression : Expression} {value : Int64} {symbols : Symbols}
      (hValue : expression.value layout.symbols = .ok value)
      (hDefine : layout.symbols.define name value = .ok symbols) :
      StatementStep number layout (some (.constant name expression)) []
        { layout with symbols := symbols }
  | origin {expression : Expression} {origin : Int64} {count : Nat}
      (hValue : expression.value layout.symbols = .ok origin)
      (hOrigin : origin.toInt = (layout.address + count : Nat)) :
      StatementStep number layout (some (.origin expression)) (List.replicate count .fill)
        { layout with items := layout.items ++ List.replicate count .fill }
  | word {expression : Expression} :
      StatementStep number layout (some (.word expression)) [.word number expression]
        { layout with items := layout.items ++ [.word number expression] }
  | instruction {opcode : Opcode} {operands : List Operand} :
      StatementStep number layout (some (.instruction opcode operands))
        [.instruction number opcode operands]
        { layout with items := layout.items ++ [.instruction number opcode operands] }

theorem define_eq_ok {name : String} {value : Int64} (h : layout.define name value = .ok next) :
    ∃ symbols, layout.symbols.define name value = .ok symbols ∧
      next = { layout with symbols := symbols } := by
  rw [define] at h
  cases hSymbols : layout.symbols.define name value with
  | error cause =>
      rw [hSymbols] at h
      cases h
  | ok symbols =>
      rw [hSymbols] at h
      cases h
      exact ⟨symbols, rfl, rfl⟩

theorem labelStep_of_placeLabel {label : Label} (h : layout.placeLabel label = .ok next) :
    LabelStep layout (some label) next := by
  rw [placeLabel] at h
  cases hDefined : layout.define label.name layout.address.toInt64 with
  | error cause => simp [hDefined] at h
  | ok defined =>
      obtain ⟨symbols, hSymbols, rfl⟩ := define_eq_ok hDefined
      have hStep := LabelStep.some hSymbols
      simp only [hDefined] at h
      by_cases hLocal : label.isLocal = true
      · rw [if_pos hLocal] at h
        cases h
        simpa [Label.openings, hLocal] using hStep
      · rw [if_neg hLocal] at h
        cases h
        simpa [Label.openings, hLocal] using hStep

theorem statementStep_of_fillTo {expression : Expression} {origin : Int64}
    (hValue : expression.value layout.symbols = .ok origin)
    (h : layout.fillTo origin = .ok next) :
    ∃ items, StatementStep number layout (some (.origin expression)) items next := by
  rw [fillTo] at h
  split at h
  · cases h
  · rename_i hRange
    cases h
    exact ⟨_, .origin hValue (by omega)⟩

theorem statementStep_of_statement {statement : Statement}
    (h : layout.statement number statement = .ok next) :
    ∃ items, StatementStep number layout (some statement) items next := by
  cases statement with
  | constant name expression =>
      rw [Layout.statement] at h
      cases hValue : expression.value layout.symbols with
      | error cause => simp [hValue] at h
      | ok value =>
          simp only [hValue] at h
          obtain ⟨symbols, hDefine, rfl⟩ := define_eq_ok h
          exact ⟨[], .constant hValue hDefine⟩
  | origin expression =>
      rw [Layout.statement] at h
      cases hValue : expression.value layout.symbols with
      | error cause => simp [hValue] at h
      | ok origin =>
          simp only [hValue] at h
          exact statementStep_of_fillTo hValue h
  | word expression =>
      cases h
      exact ⟨_, .word⟩
  | instruction opcode operands =>
      cases h
      exact ⟨_, .instruction⟩

theorem labelStep_of_placeLabel? {text? : Option (List Char)}
    (h : layout.placeLabel? text? = .ok next) :
    ∃ label?, readLabel? text? = .ok label? ∧ LabelStep layout label? next := by
  cases text? with
  | none =>
      cases h
      exact ⟨none, rfl, .none⟩
  | some text =>
      rw [placeLabel?] at h
      cases hLabel : Label.ofText text with
      | error cause => simp [hLabel] at h
      | ok label =>
          simp only [hLabel] at h
          exact ⟨some label, by rw [readLabel?, hLabel]; rfl, labelStep_of_placeLabel h⟩

theorem statementStep_of_statement? {text : List Char}
    (h : layout.statement? number text = .ok next) :
    ∃ statement? items, readStatement? text = .ok statement? ∧
      StatementStep number layout statement? items next := by
  rw [Layout.statement?] at h
  by_cases hEmpty : text.isEmpty = true
  · simp only [hEmpty, if_true, Except.ok.injEq] at h
    subst h
    exact ⟨none, [], by rw [readStatement?, if_pos hEmpty], .none⟩
  · simp only [hEmpty] at h
    cases hStatement : Statement.ofText text with
    | error cause => simp [hStatement] at h
    | ok statement =>
        simp only [hStatement] at h
        obtain ⟨items, hStep⟩ := statementStep_of_statement h
        exact ⟨some statement, items, by rw [readStatement?, if_neg hEmpty, hStatement]; rfl, hStep⟩

/-- A line that a layout can go on by can be read, and its label and its statement are
placed one after the other. -/
theorem steps_of_line {text : List Char} (h : layout.line number text = .ok next) :
    ∃ line labelled items, Line.ofText text = .ok line ∧
      LabelStep layout line.label? labelled ∧
      StatementStep number labelled line.statement? items next := by
  simp only [Layout.line] at h
  cases hLabelled : layout.placeLabel? (SourceLine.ofText text).label? with
  | error cause => simp [hLabelled] at h
  | ok labelled =>
      simp only [hLabelled] at h
      obtain ⟨label?, hLabel, hLabelStep⟩ := labelStep_of_placeLabel? hLabelled
      obtain ⟨statement?, items, hStatement, hStatementStep⟩ := statementStep_of_statement? h
      refine ⟨⟨label?, statement?⟩, labelled, items, ?_, hLabelStep, hStatementStep⟩
      simp only [Line.ofText, hLabel, hStatement]

/-! ## What steps keep -/

variable {label? : Option Label} {statement? : Option Statement} {items : List Item}

theorem LabelStep.items_eq (h : LabelStep layout label? next) : next.items = layout.items := by
  cases h with
  | none => rfl
  | some hDefine => rfl

theorem LabelStep.openings_eq (h : LabelStep layout label? next) :
    next.openings = layout.openings ++ label?.elim [] (Label.openings · layout.address) := by
  cases h with
  | none => simp
  | some hDefine => rfl

theorem LabelStep.extends (h : LabelStep layout label? next) :
    next.symbols.Extends layout.symbols := by
  cases h with
  | none => exact Symbols.Extends.refl _
  | some hDefine => exact Symbols.extends_define hDefine

/-- A label puts its name in front of the table, which did not have it. -/
theorem LabelStep.names_eq (h : LabelStep layout label? next) :
    next.symbols.names = (label?.map Label.name).toList ++ layout.symbols.names ∧
      (layout.symbols.names.Nodup → next.symbols.names.Nodup) := by
  cases h with
  | none => exact ⟨rfl, id⟩
  | some hDefine =>
      obtain ⟨hNew, hNames⟩ := Symbols.names_define hDefine
      refine ⟨hNames, fun hNodup => ?_⟩
      rw [hNames]
      exact List.nodup_cons.2 ⟨hNew, hNodup⟩

theorem StatementStep.items_eq (h : StatementStep number layout statement? items next) :
    next.items = layout.items ++ items := by
  cases h with
  | none => simp
  | constant hValue hDefine => simp
  | origin hValue hOrigin => rfl
  | word => rfl
  | instruction => rfl

theorem StatementStep.openings_eq (h : StatementStep number layout statement? items next) :
    next.openings = layout.openings := by
  cases h <;> rfl

theorem StatementStep.extends (h : StatementStep number layout statement? items next) :
    next.symbols.Extends layout.symbols := by
  cases h with
  | none => exact Symbols.Extends.refl _
  | constant hValue hDefine => exact Symbols.extends_define hDefine
  | origin hValue hOrigin => exact Symbols.Extends.refl _
  | word => exact Symbols.Extends.refl _
  | instruction => exact Symbols.Extends.refl _

/-- A constant puts its name in front of the table, which did not have it. -/
theorem StatementStep.names_eq (h : StatementStep number layout statement? items next) :
    next.symbols.names
        = (statement?.bind Statement.constantName?).toList ++ layout.symbols.names ∧
      (layout.symbols.names.Nodup → next.symbols.names.Nodup) := by
  cases h with
  | none => exact ⟨rfl, id⟩
  | constant hValue hDefine =>
      obtain ⟨hNew, hNames⟩ := Symbols.names_define hDefine
      refine ⟨hNames, fun hNodup => ?_⟩
      rw [hNames]
      exact List.nodup_cons.2 ⟨hNew, hNodup⟩
  | origin hValue hOrigin => exact ⟨rfl, id⟩
  | word => exact ⟨rfl, id⟩
  | instruction => exact ⟨rfl, id⟩

end Layout

/-! ## Whole texts -/

open Layout

/-- The layout after some lines, with the items that each of them places. -/
inductive Laid : List (Emission Item) → Layout → Prop
  | start : Laid [] {}
  | line {done : List (Emission Item)} {layout labelled next : Layout} {line : Line}
      {items : List Item} {number : Nat} (hDone : Laid done layout)
      (hLabel : LabelStep layout line.label? labelled)
      (hStatement : StatementStep number labelled line.statement? items next) :
      Laid (done ++ [⟨line, items⟩]) next

theorem Layout.exists_laid_lines {done : List (Emission Item)} {layout final : Layout}
    (hDone : Laid done layout) {numbered : List (List Char × Nat)}
    (h : layout.lines numbered = .ok final) :
    ∃ emissions : List (Emission Item),
      numbered.map (fun line => Line.ofText line.1) = emissions.map (fun emission => .ok emission.line) ∧
        Laid (done ++ emissions) final := by
  induction numbered generalizing done layout with
  | nil =>
      cases h
      exact ⟨[], rfl, by rwa [List.append_nil]⟩
  | cons first rest ih =>
      obtain ⟨text, number⟩ := first
      rw [Layout.lines] at h
      cases hNext : layout.line number text with
      | error cause => simp [hNext] at h
      | ok next =>
          simp only [hNext] at h
          obtain ⟨line, labelled, items, hRead, hLabel, hStatement⟩ := steps_of_line hNext
          obtain ⟨emissions, hLines, hLaid⟩ := ih (.line hDone hLabel hStatement) h
          refine ⟨⟨line, items⟩ :: emissions, ?_, ?_⟩
          · rw [List.map_cons, List.map_cons, hLines, hRead]
          · rwa [List.append_assoc] at hLaid

/-- A layout comes from lines that can all be read. -/
theorem Layout.exists_laid {source : List Char} {layout : Layout}
    (h : Layout.ofSource source = .ok layout) :
    ∃ emissions : List (Emission Item),
      (Text.lines source).map Line.ofText = emissions.map (fun emission => .ok emission.line) ∧
        Laid emissions layout := by
  obtain ⟨emissions, hLines, hLaid⟩ := Layout.exists_laid_lines .start h
  refine ⟨emissions, ?_, hLaid⟩
  rw [← hLines, Text.numberedLines]
  conv => lhs; rw [← List.zipIdx_map_fst 1 (Text.lines source), List.map_map]
  rfl

namespace Laid

variable {emissions : List (Emission Item)} {layout : Layout}

/-- The items of a layout are those that its lines place, in order. -/
theorem emitted_eq (h : Laid emissions layout) : layout.items = emittedBy emissions := by
  induction h with
  | start => rfl
  | line hDone hLabel hStatement ih =>
      rw [hStatement.items_eq, hLabel.items_eq, ih, emittedBy_append, emittedBy_singleton]

theorem address_eq (h : Laid emissions layout) : layout.address = (emittedBy emissions).length := by
  rw [Layout.address, h.emitted_eq]

/-- The openings of a layout are the labels of its lines that are not local. -/
theorem openings_eq (h : Laid emissions layout) : layout.openings = openingsFrom 0 emissions := by
  induction h with
  | start => rfl
  | line hDone hLabel hStatement ih =>
      rw [hStatement.openings_eq, hLabel.openings_eq, ih, hDone.address_eq, openingsFrom_append,
        openingsFrom, openingsFrom, List.append_nil, Nat.zero_add]

/-- The table holds the names that the lines define, the last one in front, before the
built-in ones. -/
theorem names_eq (h : Laid emissions layout) :
    layout.symbols.names
      = (emissions.flatMap fun emission => emission.line.names).reverse ++ Symbols.builtin.names := by
  have hReverse : ∀ name? : Option String, name?.toList.reverse = name?.toList := by
    intro name?
    cases name? <;> rfl
  induction h with
  | start => rfl
  | line hDone hLabel hStatement ih =>
      rw [hStatement.names_eq.1, hLabel.names_eq.1, ih, List.flatMap_append, List.reverse_append]
      simp [Line.names, Line.labelNames, hReverse]

theorem mem_names_iff (h : Laid emissions layout) {name : String} :
    name ∈ layout.symbols.names ↔
      name ∈ Symbols.builtin.names ∨ ∃ emission ∈ emissions, name ∈ emission.line.names := by
  rw [h.names_eq, List.mem_append, List.mem_reverse, List.mem_flatMap, Or.comm]

theorem extends_builtin (h : Laid emissions layout) :
    layout.symbols.Extends Symbols.builtin := by
  induction h with
  | start => exact .refl _
  | line hDone hLabel hStatement ih => exact (hStatement.extends.trans hLabel.extends).trans ih

/-- No name is defined twice. -/
theorem nodup_names (h : Laid emissions layout) : layout.symbols.names.Nodup := by
  induction h with
  | start => decide
  | line hDone hLabel hStatement ih => exact hStatement.names_eq.2 (hLabel.names_eq.2 ih)

/-- Each line was laid out after those before it, and the table has only grown since. -/
theorem split (h : Laid emissions layout) {before after : List (Emission Item)}
    {emission : Emission Item} (hSplit : emissions = before ++ emission :: after) :
    ∃ earlier labelled next number, Laid before earlier ∧
      LabelStep earlier emission.line.label? labelled ∧
      StatementStep number labelled emission.line.statement? emission.emitted next ∧
      layout.symbols.Extends next.symbols := by
  induction h generalizing after with
  | start => simp at hSplit
  | @line done current labelled next line items number hDone hLabel hStatement ih =>
      rcases List.eq_nil_or_concat after with rfl | ⟨shorter, last, rfl⟩
      · obtain ⟨rfl, hEmission⟩ := List.append_inj' hSplit rfl
        cases hEmission
        exact ⟨current, labelled, next, number, hDone, hLabel, hStatement, .refl _⟩
      · rw [List.concat_eq_append, ← List.cons_append, ← List.append_assoc] at hSplit
        obtain ⟨rfl, -⟩ := List.append_inj' hSplit rfl
        obtain ⟨earlier, before', after', number', hEarlier, hFirst, hSecond, hExtends⟩ := ih rfl
        exact ⟨earlier, before', after', number', hEarlier, hFirst, hSecond,
          (hStatement.extends.trans hLabel.extends).trans hExtends⟩

end Laid

end ControlUnit.Assembly
