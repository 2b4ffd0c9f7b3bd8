import ControlUnit.Assembly.Statement

/-!
# Layout

Where everything goes. Going through the lines of a source text in order gives every
label its address, every constant its value, and every word a place in a list whose
indices are the addresses. What the words are is not decided here, because they may
use symbols of later lines.

A constant and an origin are evaluated at once, with the symbols of the lines before.
-/

namespace ControlUnit.Assembly

/-- What will become a word of the program, with the number of its line. -/
inductive Item where
  /-- A zero word before an origin. -/
  | fill
  | word (line : Nat) (value : Expression)
  | instruction (line : Nat) (opcode : Opcode) (operands : List Operand)
  deriving DecidableEq, Repr

/-- What is known after some lines of a source text. -/
structure Layout where
  symbols : Symbols := .builtin
  /-- The labels that open subroutines, with their addresses, in order. -/
  openings : List (String × Nat) := []
  /-- The words so far. -/
  items : List Item := []
  deriving DecidableEq, Repr

namespace Layout

/-- The address of the next word. -/
def address (layout : Layout) : Nat := layout.items.length

def define (layout : Layout) (name : String) (value : Int64) : Except LineError Layout :=
  (layout.symbols.define name value).map fun symbols => { layout with symbols }

def placeLabel (layout : Layout) (label : Label) : Except LineError Layout :=
  match layout.define label.name layout.address.toInt64 with
  | .error cause => .error cause
  | .ok defined =>
    if label.isLocal then .ok defined
    else .ok { defined with openings := layout.openings ++ [(label.name, layout.address)] }

/-- Fill up to an origin, which lies neither before the next address nor beyond
program memory. -/
def fillTo (layout : Layout) (origin : Int64) : Except LineError Layout :=
  if origin.toInt < layout.address ∨ (programSize : Int) < origin.toInt then
    .error (.valueOutOfRange origin)
  else
    .ok { layout with
      items := layout.items ++ List.replicate (origin.toInt.toNat - layout.address) .fill }

def placeItem (layout : Layout) (item : Item) : Layout :=
  { layout with items := layout.items ++ [item] }

def statement (layout : Layout) (line : Nat) : Statement → Except LineError Layout
  | .constant name value =>
    match value.value layout.symbols with
    | .error cause => .error cause
    | .ok value => layout.define name value
  | .origin address =>
    match address.value layout.symbols with
    | .error cause => .error cause
    | .ok origin => layout.fillTo origin
  | .word value => .ok (layout.placeItem (.word line value))
  | .instruction opcode operands => .ok (layout.placeItem (.instruction line opcode operands))

/-- Place the label of a line, if it has one. -/
def placeLabel? (layout : Layout) : Option (List Char) → Except LineError Layout
  | none => .ok layout
  | some text =>
    match Label.ofText text with
    | .error cause => .error cause
    | .ok label => layout.placeLabel label

/-- Carry out the statement text of a line, which may be empty. -/
def statement? (layout : Layout) (line : Nat) (text : List Char) : Except LineError Layout :=
  if text.isEmpty then .ok layout
  else
    match Statement.ofText text with
    | .error cause => .error cause
    | .ok statement => layout.statement line statement

/-- Go on by one line. -/
def line (layout : Layout) (number : Nat) (text : List Char) : Except LineError Layout :=
  let source := SourceLine.ofText text
  match layout.placeLabel? source.label? with
  | .error cause => .error cause
  | .ok labelled => labelled.statement? number source.statement

/-- Go on by some numbered lines. -/
def lines (layout : Layout) : List (List Char × Nat) → Except AssemblyError Layout
  | [] => .ok layout
  | (text, number) :: rest =>
    match layout.line number text with
    | .error cause => .error (.line number cause)
    | .ok next => next.lines rest

def ofSource (source : List Char) : Except AssemblyError Layout :=
  lines {} (Text.numberedLines source)

/-! ## Subroutines -/

/-- The ranges that openings begin: each up to the next opening, the last up to the
end of the program. A range without addresses is left out. -/
def ranges (stop : Nat) : List (String × Nat) → List Subroutine
  | [] => []
  | (name, start) :: rest =>
    let next := match rest with
      | [] => stop
      | (_, later) :: _ => later
    if start < next then ⟨name, start.toUInt16, next.toUInt16⟩ :: ranges stop rest
    else ranges stop rest

def subroutines (layout : Layout) : List Subroutine := ranges layout.address layout.openings

end Layout

end ControlUnit.Assembly
