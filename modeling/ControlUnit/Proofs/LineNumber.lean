import ControlUnit.Proofs.Sentence
import ControlUnit.Proofs.SourceText

/-!
# Line numbers

The number of a line is kept with the words that it places, and comes back in a report and
nowhere else.  So lines can be numbered in another way: laying them out and encoding their words
then gives the same with the other numbers (`Layout.lines_renumber`, `Layout.program_renumber`).

Two facts about reports follow from this.  Lines that say nothing can be put between those of a
text, which only numbers the others in another way.  And a report names a line of the text: a
numbering that leaves these alone and changes all other numbers does not change the report.

## Main results

* `Layout.lines_renumber`, `Layout.program_renumber` — other numbers for the same lines.
* `Layout.lines_insertLines` — laying out a text with more lines that say nothing.
* `assemble_insertLines` — what becomes of a report, and which lines it can name.
-/

namespace ControlUnit

namespace Text

/-! ## Lines that say nothing -/

/-- A line that holds at most blanks and a comment. -/
inductive SaysNothing : List Char → Prop
  | blank {blanks : List Char} (hBlanks : allBlank blanks = true) : SaysNothing blanks
  | comment {blanks : List Char} (hBlanks : allBlank blanks = true) (text : List Char) :
      SaysNothing (blanks ++ commentMark :: text)

theorem SaysNothing.content {line : List Char} (h : SaysNothing line) : content line = [] := by
  cases h with
  | blank hBlanks =>
      rw [content_of_not_mem (not_mem_of_allBlank hBlanks (by decide)), trim_of_allBlank hBlanks]
  | comment hBlanks text =>
      rw [content_append_comment (not_mem_of_allBlank hBlanks (by decide)),
        trim_of_allBlank hBlanks]

/-! ## More lines in a text -/

/-- Lines with more lines between them: `before n` right before the line with number `n`, and
the last ones behind all lines.  The first line has the given number. -/
def insertLines (before : Nat → List (List Char)) (number : Nat) :
    List (List Char) → List (List Char)
  | [] => before number
  | line :: rest => before number ++ line :: insertLines before (number + 1) rest

/-- How many lines are inserted before the line with a number. -/
def insertedBefore (before : Nat → List (List Char)) : Nat → Nat
  | 0 => 0
  | number + 1 => insertedBefore before number + (before (number + 1)).length

end Text

/-! ## Other numbers -/

/-- The same report of another line. -/
def AssemblyError.renumber (f : Nat → Nat) : AssemblyError → AssemblyError
  | line number cause => .line (f number) cause
  | program cause => .program cause

namespace Assembly

open Text

/-- The same word of another line. -/
def Item.renumber (f : Nat → Nat) : Item → Item
  | fill => .fill
  | word line value => .word (f line) value
  | instruction line opcode operands => .instruction (f line) opcode operands

def Layout.renumber (f : Nat → Nat) (layout : Layout) : Layout :=
  { layout with items := layout.items.map (Item.renumber f) }

variable {f : Nat → Nat}

namespace Layout

/-! ## Laying out -/

theorem address_renumber (layout : Layout) : (layout.renumber f).address = layout.address :=
  List.length_map _

theorem symbols_renumber (layout : Layout) : (layout.renumber f).symbols = layout.symbols := rfl

theorem define_renumber (layout : Layout) (name : String) (value : Int64) :
    (layout.renumber f).define name value = (layout.define name value).map (renumber f) := by
  rw [define, define, renumber]
  cases layout.symbols.define name value <;> rfl

theorem placeLabel_renumber (layout : Layout) (label : Label) :
    (layout.renumber f).placeLabel label = (layout.placeLabel label).map (renumber f) := by
  rw [placeLabel, placeLabel, address_renumber, define_renumber]
  cases layout.define label.name layout.address.toInt64 with
  | error cause => rfl
  | ok defined => cases label.isLocal <;> simp [Except.map, renumber]

theorem fillTo_renumber (layout : Layout) (origin : Int64) :
    (layout.renumber f).fillTo origin = (layout.fillTo origin).map (renumber f) := by
  rw [fillTo, fillTo, address_renumber]
  split
  · rfl
  · simp [Except.map, renumber, Item.renumber]

theorem placeItem_renumber (layout : Layout) (item : Item) :
    (layout.renumber f).placeItem (item.renumber f) = (layout.placeItem item).renumber f := by
  simp [placeItem, renumber]

theorem statement_renumber (layout : Layout) (number : Nat) (said : Statement) :
    (layout.renumber f).statement (f number) said
      = (layout.statement number said).map (renumber f) := by
  cases said with
  | constant name value =>
      simp only [statement, symbols_renumber]
      cases value.value layout.symbols with
      | error cause => rfl
      | ok found => exact define_renumber layout name found
  | origin address =>
      simp only [statement, symbols_renumber]
      cases address.value layout.symbols with
      | error cause => rfl
      | ok found => exact fillTo_renumber layout found
  | word value => exact congrArg Except.ok (placeItem_renumber layout (.word number value))
  | instruction opcode operands =>
      exact congrArg Except.ok (placeItem_renumber layout (.instruction number opcode operands))

theorem placeLabel?_renumber (layout : Layout) (text? : Option (List Char)) :
    (layout.renumber f).placeLabel? text? = (layout.placeLabel? text?).map (renumber f) := by
  cases text? with
  | none => rfl
  | some text =>
      simp only [placeLabel?]
      cases Label.ofText text with
      | error cause => rfl
      | ok label => exact placeLabel_renumber layout label

theorem statement?_renumber (layout : Layout) (number : Nat) (text : List Char) :
    (layout.renumber f).statement? (f number) text
      = (layout.statement? number text).map (renumber f) := by
  rw [statement?, statement?]
  split
  · rfl
  · cases Statement.ofText text with
    | error cause => rfl
    | ok said => exact statement_renumber layout number said

/-- A line does the same under another number. -/
theorem line_renumber (layout : Layout) (number : Nat) (text : List Char) :
    (layout.renumber f).line (f number) text = (layout.line number text).map (renumber f) := by
  simp only [line, placeLabel?_renumber]
  cases layout.placeLabel? (SourceLine.ofText text).label? with
  | error cause => rfl
  | ok labelled => exact statement?_renumber labelled number _

/-- Lines do the same under other numbers, and reports name them by these. -/
theorem lines_renumber (layout : Layout) (numbered : List (List Char × Nat)) :
    (layout.renumber f).lines (numbered.map fun line => (line.1, f line.2))
      = ((layout.lines numbered).map (renumber f)).mapError (AssemblyError.renumber f) := by
  induction numbered generalizing layout with
  | nil => rfl
  | cons first rest ih =>
      obtain ⟨text, number⟩ := first
      simp only [List.map_cons, lines, line_renumber]
      cases layout.line number text with
      | error cause => rfl
      | ok next => exact ih next

end Layout

/-! ## Encoding -/

theorem Item.encode_renumber (symbols : Symbols) (item : Item) :
    (item.renumber f).encode symbols = (item.encode symbols).mapError (AssemblyError.renumber f) := by
  cases item with
  | fill => rfl
  | word line value =>
      simp only [renumber, encode]
      cases dataWord symbols value <;> rfl
  | instruction line opcode operands =>
      simp only [renumber, encode]
      cases instructionWord symbols opcode operands <;> rfl

theorem encodeAll_renumber (symbols : Symbols) (items : List Item) :
    encodeAll symbols (items.map (Item.renumber f))
      = (encodeAll symbols items).mapError (AssemblyError.renumber f) := by
  induction items with
  | nil => rfl
  | cons item rest ih =>
      rw [List.map_cons, encodeAll, encodeAll, Item.encode_renumber]
      cases item.encode symbols with
      | error reason => rfl
      | ok word =>
          simp only [Except.mapError, ih]
          cases encodeAll symbols rest <;> rfl

/-- Other numbers change nothing but the reports. -/
theorem Layout.program_renumber (layout : Layout) :
    (layout.renumber f).program = layout.program.mapError (AssemblyError.renumber f) := by
  have hWords : encodeAll (layout.renumber f).symbols (layout.renumber f).items
      = (encodeAll layout.symbols layout.items).mapError (AssemblyError.renumber f) :=
    encodeAll_renumber layout.symbols layout.items
  have hTable : (layout.renumber f).subroutines = layout.subroutines := by
    rw [subroutines, subroutines, address_renumber]
    rfl
  simp only [program, hWords, hTable]
  cases encodeAll layout.symbols layout.items with
  | error reason => rfl
  | ok words =>
      simp only [Except.mapError]
      cases Program.check _ <;> rfl

/-- Texts of which the lines are the same under other numbers are assembled alike. -/
theorem assemble_renumber {source other : String}
    (h : Layout.lines {} (numberedLines other.toList)
      = Layout.lines {} ((numberedLines source.toList).map fun line => (line.1, f line.2))) :
    assemble other = (assemble source).mapError (AssemblyError.renumber f) := by
  have hLines : Layout.ofSource other.toList
      = ((Layout.ofSource source.toList).map (Layout.renumber f)).mapError
          (AssemblyError.renumber f) :=
    h.trans (Layout.lines_renumber {} _)
  rw [assemble, assemble, hLines]
  cases Layout.ofSource source.toList with
  | error reason => rfl
  | ok layout => exact Layout.program_renumber layout

/-! ## Inserted lines -/

section Inserted

theorem Layout.lines_saysNothing_append {inserted : List (List Char)}
    (h : ∀ line ∈ inserted, SaysNothing line) (layout : Layout) (rest : List (List Char))
    (start : Nat) :
    layout.lines ((inserted ++ rest).zipIdx start)
      = layout.lines (rest.zipIdx (start + inserted.length)) := by
  induction inserted generalizing start with
  | nil => rfl
  | cons line more ih =>
      obtain ⟨hLine, hMore⟩ := List.forall_mem_cons.1 h
      rw [List.cons_append, List.zipIdx_cons, lines, line_of_blank hLine.content]
      simp only [ih hMore, List.length_cons]
      rw [Nat.add_right_comm, Nat.add_assoc]

variable {before : Nat → List (List Char)}
  (hNothing : ∀ number, ∀ line ∈ before number, SaysNothing line)

include hNothing

/-- Inserted lines only move the numbers of the others. -/
theorem Layout.lines_insertLines (layout : Layout) (number : Nat) (source : List (List Char)) :
    layout.lines ((insertLines before (number + 1) source).zipIdx
        (number + 1 + insertedBefore before number))
      = layout.lines ((source.zipIdx (number + 1)).map fun line =>
          (line.1, line.2 + insertedBefore before line.2)) := by
  induction source generalizing layout number with
  | nil =>
      have hSkip := lines_saysNothing_append (hNothing (number + 1)) layout []
        (number + 1 + insertedBefore before number)
      rwa [List.append_nil] at hSkip
  | cons line rest ih =>
      have hNumber : number + 1 + insertedBefore before number + (before (number + 1)).length
          = number + 1 + insertedBefore before (number + 1) := by
        rw [insertedBefore, Nat.add_assoc]
      rw [insertLines, lines_saysNothing_append (hNothing (number + 1)), hNumber,
        List.zipIdx_cons, List.zipIdx_cons, List.map_cons, lines, lines]
      cases layout.line (number + 1 + insertedBefore before (number + 1)) line with
      | error cause => rfl
      | ok next =>
          have hRest := ih next (number + 1)
          rw [Nat.add_right_comm (number + 1) 1] at hRest
          exact hRest

end Inserted

end Assembly

open Assembly Text

/-- A report names a line of its text. -/
theorem number_of_assemble {source : String} {number : Nat} {cause : LineError}
    (h : assemble source = .error (.line number cause)) :
    1 ≤ number ∧ number ≤ (lines source.toList).length := by
  -- Only the numbers of the lines stay as they are.
  let f (number : Nat) : Nat :=
    if 1 ≤ number ∧ number ≤ (lines source.toList).length then number else number + 1
  have hSame : (numberedLines source.toList).map (fun line => (line.1, f line.2))
      = numberedLines source.toList := by
    refine (List.map_congr_left fun line hMem => ?_).trans (List.map_id _)
    obtain ⟨hFirst, hLast, -⟩ := List.mem_zipIdx hMem
    have hLine : f line.2 = line.2 := if_pos ⟨hFirst, by omega⟩
    rw [hLine]
    rfl
  have hReport : assemble source = (assemble source).mapError (AssemblyError.renumber f) :=
    assemble_renumber (by rw [hSame])
  rw [h] at hReport
  have hFixed : number = f number := by
    injection hReport with hReason
    injection hReason
  by_contra hOutside
  have hMoved : f number = number + 1 := if_neg hOutside
  omega

/-- **Lines that say nothing**: a text into which blank lines and comments are inserted is
assembled to the same program, or refused with the same report, in which the number of the line
has grown by the number of lines inserted before it.  And the number of a report is that of a
line of the text. -/
theorem assemble_insertLines :
    (∀ (source padded : String) (before : Nat → List (List Char)),
      (∀ number, ∀ line ∈ before number, SaysNothing line) →
      lines padded.toList = insertLines before 1 (lines source.toList) →
      assemble padded = (assemble source).mapError
        (AssemblyError.renumber fun number => number + insertedBefore before number)) ∧
    ∀ (source : String) (number : Nat) (cause : LineError),
      assemble source = .error (.line number cause) →
        1 ≤ number ∧ number ≤ (lines source.toList).length := by
  refine ⟨fun source padded before hNothing hLines => ?_, fun source number cause h => ?_⟩
  · apply assemble_renumber
    rw [numberedLines, hLines]
    exact Layout.lines_insertLines hNothing {} 0 (lines source.toList)
  · exact number_of_assemble h

/-! ### A sample -/

def failingSource : String := "JMP there\nRET"

def paddedSource : String := "; title\n\nJMP there\n \t; so far\nRET"

/-- The lines of the padded text that the other one does not have. -/
def remarks : Nat → List (List Char)
  | 1 => ["; title".toList, []]
  | 2 => [" \t; so far".toList]
  | _ => []

theorem saysNothing_remarks : ∀ number, ∀ line ∈ remarks number, SaysNothing line := by
  intro number line hMem
  unfold remarks at hMem
  split at hMem
  · rcases List.mem_pair.1 hMem with rfl | rfl
    · exact @SaysNothing.comment [] rfl " title".toList
    · exact .blank rfl
  · rw [List.mem_singleton.1 hMem]
    exact @SaysNothing.comment " \t".toList (by decide) " so far".toList
  · cases hMem

theorem assemble_insertLines_failingSource :
    assemble failingSource = .error (.line 1 (.undefinedSymbol "there")) ∧
      assemble paddedSource = .error (.line 3 (.undefinedSymbol "there")) ∧
      3 ≤ (lines paddedSource.toList).length := by
  have hSource : assemble failingSource = .error (.line 1 (.undefinedSymbol "there")) := by
    decide +kernel
  have hLines : lines paddedSource.toList = insertLines remarks 1 (lines failingSource.toList) := by
    decide +kernel
  have hPadded : assemble paddedSource = .error (.line 3 (.undefinedSymbol "there")) := by
    rw [assemble_insertLines.1 failingSource paddedSource remarks saysNothing_remarks hLines,
      hSource]
    rfl
  exact ⟨hSource, hPadded, (assemble_insertLines.2 paddedSource 3 _ hPadded).2⟩

end ControlUnit
