import ControlUnit.Proofs.LabelLine
import ControlUnit.Proofs.SourceText

/-!
# Local labels

A dot before its name makes a label local: it opens no subroutine.  That is all it does.  The
openings of a layout are only ever added to; what else is known after a line (`Layout.contents`)
does not depend on them, and so neither do the words.  Nor can they keep a program from loading,
for the ranges that they begin are always in order.

## Main results

* `SwitchedLine.sameEffect` — a dot matters to the openings only.
* `Laid.words_program` — the words of a layout do not depend on its openings.
* `words_of_switched` — source texts whose labels differ in dots.
-/

namespace ControlUnit.Assembly

open Text

/-! ## Layouts with the same contents -/

namespace Layout

/-- What is known besides the openings. -/
def contents (layout : Layout) : Symbols × List Item := (layout.symbols, layout.items)

variable {one other : Layout}

theorem contents_define (layout : Layout) (name : String) (value : Int64) :
    (layout.define name value).map contents
      = (layout.symbols.define name value).map fun symbols => (symbols, layout.items) := by
  rw [define]
  cases layout.symbols.define name value <;> rfl

theorem contents_placeLabel (layout : Layout) (label : Label) :
    (layout.placeLabel label).map contents
      = (layout.symbols.define label.name layout.items.length.toInt64).map
          fun symbols => (symbols, layout.items) := by
  obtain ⟨name, isLocal⟩ := label
  rw [← contents_define, placeLabel, address]
  cases hDefined : layout.define name layout.items.length.toInt64 with
  | error cause => rfl
  | ok defined => cases isLocal <;> rfl

theorem contents_fillTo (layout : Layout) (origin : Int64) :
    (layout.fillTo origin).map contents
      = if origin.toInt < layout.items.length ∨ (programSize : Int) < origin.toInt then
          .error (.valueOutOfRange origin)
        else
          .ok (layout.symbols,
            layout.items ++ List.replicate (origin.toInt.toNat - layout.items.length) .fill) := by
  rw [fillTo, address]
  split <;> rfl

theorem placeLabel_congr (h : one.contents = other.contents) {label label' : Label}
    (hName : label.name = label'.name) :
    (one.placeLabel label).map contents = (other.placeLabel label').map contents := by
  obtain ⟨hSymbols, hItems⟩ := Prod.mk.inj h
  rw [contents_placeLabel, contents_placeLabel, hName, hSymbols, hItems]

theorem statement_congr (h : one.contents = other.contents) (number : Nat)
    (statement : Statement) :
    (one.statement number statement).map contents
      = (other.statement number statement).map contents := by
  obtain ⟨hSymbols, hItems⟩ := Prod.mk.inj h
  cases statement with
  | constant name value =>
      rw [Layout.statement, Layout.statement, hSymbols]
      cases value.value other.symbols with
      | error cause => rfl
      | ok found =>
          have hDefine : (one.define name found).map contents
              = (other.define name found).map contents := by
            rw [contents_define, contents_define, hSymbols, hItems]
          exact hDefine
  | origin value =>
      rw [Layout.statement, Layout.statement, hSymbols]
      cases value.value other.symbols with
      | error cause => rfl
      | ok found =>
          have hFill : (one.fillTo found).map contents = (other.fillTo found).map contents := by
            rw [contents_fillTo, contents_fillTo, hSymbols, hItems]
          exact hFill
  | word value => exact congrArg Except.ok (by simp [contents, placeItem, hSymbols, hItems])
  | instruction opcode operands =>
      exact congrArg Except.ok (by simp [contents, placeItem, hSymbols, hItems])

theorem statement?_congr (h : one.contents = other.contents) (number : Nat) (text : List Char) :
    (one.statement? number text).map contents = (other.statement? number text).map contents := by
  rw [statement?, statement?]
  split
  · exact congrArg Except.ok h
  · cases Statement.ofText text with
    | error cause => rfl
    | ok statement => exact statement_congr h number statement

/-- A line with the same label as another, dots apart, and the same statement has the same
effect. -/
theorem sameEffect_of_sourceLine {first second : List Char}
    (hLabel : ∀ layout layout' : Layout, layout.contents = layout'.contents →
      (layout.placeLabel? (SourceLine.ofText first).label?).map contents
        = (layout'.placeLabel? (SourceLine.ofText second).label?).map contents)
    (hStatement : (SourceLine.ofText first).statement = (SourceLine.ofText second).statement) :
    SameEffect contents first second := by
  intro one other number h
  rw [line, line]
  rcases cases_of_map_eq_map (hLabel one other h) with
    ⟨cause, hOne, hOther⟩ | ⟨labelled, labelled', hOne, hOther, hLabelled⟩
  · simp only [hOne, hOther]
  · simp only [hOne, hOther, hStatement]
    exact statement?_congr hLabelled number _

theorem placeLabel?_congr (h : one.contents = other.contents) (label? : Option (List Char)) :
    (one.placeLabel? label?).map contents = (other.placeLabel? label?).map contents := by
  cases label? with
  | none => exact congrArg Except.ok h
  | some text =>
      rw [placeLabel?, placeLabel?]
      cases Label.ofText text with
      | error cause => rfl
      | ok label => exact placeLabel_congr h rfl

end Layout

/-! ## Switching dots -/

/-- The second line is the first one, or has its label with a dot where the first one has none, or
without a dot where the first one has one. -/
inductive SwitchedLine : List Char → List Char → Prop
  | same {line : List Char} : SwitchedLine line line
  | label {indent gap rest : List Char} {name : String} {isLocal : Bool}
      (hIndent : allBlank indent = true) (hGap : allBlank gap = true)
      (hName : isName name.toList = true) :
      SwitchedLine (labelLine indent ⟨name, isLocal⟩ gap rest)
        (labelLine indent ⟨name, !isLocal⟩ gap rest)

/-- A dot matters to the openings only. -/
theorem SwitchedLine.sameEffect {line switched : List Char} (h : SwitchedLine line switched) :
    Layout.SameEffect Layout.contents line switched := by
  cases h with
  | same =>
      exact Layout.sameEffect_of_sourceLine
        (fun _ _ hContents => Layout.placeLabel?_congr hContents _) rfl
  | @label indent gap rest name isLocal hIndent hGap hName =>
      obtain ⟨text, hLine, hText⟩ :=
        @sourceLine_labelLine indent gap ⟨name, isLocal⟩ hIndent hGap hName rest
      obtain ⟨text', hLine', hText'⟩ :=
        @sourceLine_labelLine indent gap ⟨name, !isLocal⟩ hIndent hGap hName rest
      refine Layout.sameEffect_of_sourceLine (fun layout layout' hContents => ?_) ?_
      · simp only [hLine, hLine', Layout.placeLabel?, hText, hText']
        exact Layout.placeLabel_congr hContents rfl
      · rw [hLine, hLine']

/-! ## The words of a layout -/

theorem Laid.words_program {emissions : List (Emission Item)} {layout : Layout}
    (h : Laid emissions layout) :
    layout.program.map Program.words
      = match encodeAll layout.symbols layout.items with
        | .error reason => .error reason
        | .ok words =>
          if programSize < words.length then .error (.program (.tooLarge words.length))
          else .ok words := by
  rw [Layout.program]
  cases hWords : encodeAll layout.symbols layout.items with
  | error reason => rfl
  | ok words =>
      simp only [h.check_program hWords]
      by_cases hSize : programSize < words.length
      · simp only [if_pos hSize]
        rfl
      · simp only [if_neg hSize]
        rfl

/-- **Local labels**: every label that can be read has one of the two forms, with a dot or without
one.  Switching some labels of a source text between these forms changes neither the fault with
which it fails nor the words to which it assembles. -/
theorem words_of_switched :
    (∀ (line text : List Char) (label : Label), (SourceLine.ofText line).label? = some text →
        Label.ofText text = .ok label →
          ∃ indent gap rest, allBlank indent = true ∧ allBlank gap = true ∧
            isName label.name.toList = true ∧ line = labelLine indent label gap rest) ∧
      ∀ source switched : String,
        List.Forall₂ SwitchedLine (lines source.toList) (lines switched.toList) →
          (assemble switched).map Program.words = (assemble source).map Program.words := by
  refine ⟨fun line text label hText hLabel => exists_labelLine hText hLabel, ?_⟩
  intro source switched hLines
  have hLayouts := Layout.ofSource_congr (hLines.imp fun _ _ hLine => hLine.sameEffect)
  rw [assemble, assemble]
  rcases Layout.cases_of_map_eq_map hLayouts with
    ⟨reason, hSource, hSwitched⟩ | ⟨layout, layout', hSource, hSwitched, hContents⟩
  · rw [hSource, hSwitched]
  · obtain ⟨_, -, hLaid⟩ := Layout.exists_laid hSource
    obtain ⟨_, -, hLaid'⟩ := Layout.exists_laid hSwitched
    obtain ⟨hSymbols, hItems⟩ := Prod.mk.inj hContents
    simp only [hSource, hSwitched]
    rw [hLaid.words_program, hLaid'.words_program, hSymbols, hItems]

/-! ## A sample -/

/-- A text with labels of both forms. -/
def labelSource : String := "main: LDI R1, loop\n.loop: JMP main ; again\n end : RET"

def switchedSource : String := ".main: LDI R1, loop\nloop: JMP main ; again\n .end : RET"

theorem switched_labelSource :
    List.Forall₂ SwitchedLine (lines labelSource.toList) (lines switchedSource.toList) := by
  have hMain : SwitchedLine "main: LDI R1, loop".toList ".main: LDI R1, loop".toList :=
    @SwitchedLine.label [] [] " LDI R1, loop".toList "main" false (by decide) (by decide)
      (by decide)
  have hLoop : SwitchedLine ".loop: JMP main ; again".toList "loop: JMP main ; again".toList :=
    @SwitchedLine.label [] [] " JMP main ; again".toList "loop" true (by decide) (by decide)
      (by decide)
  have hEnd : SwitchedLine " end : RET".toList " .end : RET".toList :=
    @SwitchedLine.label " ".toList " ".toList " RET".toList "end" false (by decide) (by decide)
      (by decide)
  have hLines : lines labelSource.toList
      = ["main: LDI R1, loop".toList, ".loop: JMP main ; again".toList, " end : RET".toList] := by
    decide +kernel
  have hSwitched : lines switchedSource.toList
      = [".main: LDI R1, loop".toList, "loop: JMP main ; again".toList, " .end : RET".toList] := by
    decide +kernel
  rw [hLines, hSwitched]
  exact .cons hMain (.cons hLoop (.cons hEnd .nil))

theorem words_of_switched_labelSource :
    (∃ indent gap rest, allBlank indent = true ∧ allBlank gap = true ∧
        isName "end".toList = true ∧
          " end : RET".toList = labelLine indent ⟨"end", false⟩ gap rest) ∧
      (assemble switchedSource).map Program.words = (assemble labelSource).map Program.words ∧
      (assemble labelSource).toOption
        = some ⟨[0x010101, 0x070000, 0x090000], [⟨"main", 0, 2⟩, ⟨"end", 2, 3⟩]⟩ ∧
      (assemble switchedSource).toOption
        = some ⟨[0x010101, 0x070000, 0x090000], [⟨"loop", 1, 3⟩]⟩ := by
  obtain ⟨hForms, hSwitched⟩ := words_of_switched
  refine ⟨?_, hSwitched labelSource switchedSource switched_labelSource, ?_, ?_⟩
  · exact hForms " end : RET".toList "end ".toList ⟨"end", false⟩ (by decide +kernel)
      (eq_ok_of_toOption (by decide +kernel))
  · decide +kernel
  · decide +kernel

end ControlUnit.Assembly
