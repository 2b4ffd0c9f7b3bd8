import ControlUnit.Debugger
import ControlUnit.Screen.Renderer
import ControlUnit.Snapshot

/-!
# The debugger's screen

Six panels in two columns. On the left the program around the program counter, the
control unit and the status; on the right the registers, the named I/O registers
with the stack, and the keys. A renderer shows them.

Two panels ask the debugger for a number of lines or cells. It adds sizes to find them,
so these panels, and the screen with them, are there only if no sum fails.
-/

namespace ControlUnit.Debugger

open ControlUnit.Screen

/-! ## The left column -/

/-- The mark before the address of the next instruction. -/
def currentMark : String := "▶ "

/-- The mark of a breakpoint. -/
def breakpointMark : String := "●"

/-- An entry of the program panel. -/
def programItem (debugger : Debugger) (line : DisassemblyLine) : Item :=
  let marked := debugger.breakpoints.contains line.address
  { text :=
      (if marked then breakpointMark else " ") ++ " "
        ++ (if line.isCurrent then currentMark else "  ")
        ++ Text.padded 10 3 line.address.toNat ++ ": " ++ Text.flushLeft 18 line.text ++ " "
        ++ debugger.machine.program.subroutineName line.address
    style :=
      if line.isCurrent then { colour? := some .yellow, bold := true }
      else if marked then .ofColour .red
      else .plain }

/-- The panel of the program, with the lines of a disassembly. -/
def programPanel (debugger : Debugger) (lines : List DisassemblyLine) : Panel where
  title := " Program "
  border := .ofColour .cyan
  content := .list (lines.map debugger.programItem)

/-- The number of lines that the program panel of a height asks for. -/
def programLines (height : UInt16) : UInt64 := Size.monus height.toUInt64 2

/-- The panel of the program, for a height. -/
def programPanel? (debugger : Debugger) (height : UInt16) : Option Panel :=
  (debugger.disassembly? (programLines height)).map debugger.programPanel

def phaseColour : Phase → Colour
  | .fetch => .cyan
  | .decode => .yellow
  | .execute => .green

def controlPanel (debugger : Debugger) : Panel :=
  let machine := debugger.machine
  let snapshot := machine.snapshot
  let white (text : String) : Span := ⟨text, .ofColour .white⟩
  { title := " Control Unit "
    border := .ofColour .green
    content := .text
      [[{ text := "State: " }, ⟨machine.phase.name, .ofColour (phaseColour machine.phase)⟩,
        { text := "   Cycles: " }, ⟨Text.decimal machine.cycles, .ofColour .cyan⟩],
       [{ text := "PC: " }, ⟨Text.padded 10 3 machine.pc.toNat, .ofColour .yellow⟩,
        { text := "   MAR: " }, white (Text.padded 10 3 machine.mar.toNat)],
       [{ text := "Fields: " }, white machine.fields.text],
       [{ text := "IR: " }, white snapshot.instructionBits],
       [{ text := "SR (ISNZVC): " }, white snapshot.statusBits],
       [{ text := "Instruction: " }, ⟨snapshot.instruction, .ofColour .green⟩,
        { text := "   in " }, ⟨snapshot.subroutine, .ofColour .magenta⟩]] }

def statusPanel (debugger : Debugger) : Panel where
  title := " Status "
  style := .ofColour .white
  content := .text [[{ text := debugger.status.text }]]

/-! ## The right column -/

/-- A register in the register panel. A register that holds zero is dimmed. -/
def registerSpan (number : Nat) (value : UInt8) : Span where
  text := "R" ++ Text.flushLeft 2 (Text.decimal number) ++ "=" ++ Text.padded 16 2 value.toNat ++ "  "
  style := .ofColour (if value = 0 then .darkGray else .white)

/-- The panel of the registers, four to a line. -/
def registerPanel (debugger : Debugger) : Panel where
  title := " Registers "
  border := .ofColour .magenta
  content := .text <| (List.range (registerCount / 4)).map fun row =>
    (List.range' (4 * row) 4).map fun number =>
      registerSpan number (debugger.machine.registers.get number.toUInt8)

/-- The panel of the named I/O registers, some cells of the extended page and the stack. -/
def memoryPanel (debugger : Debugger) (cells : List (Nat × UInt8)) : Panel :=
  let snapshot := debugger.machine.snapshot
  let io : List Item := snapshot.ioRegisters.map fun register =>
    { text := Text.flushLeft 6 register.1 ++ " " ++ Text.binaryByte register.2 }
  let extended := cells.map fun cell => Text.padded 16 2 cell.2.toNat
  let bytes : List Item := debugger.machine.stack.values.map fun value =>
    { text :=
        "  " ++ Text.flushRight 3 (Text.decimal value.toNat) ++ " (" ++ Text.hexByte value ++ ")" }
  { title := " I/O & Stack "
    border := .ofColour .blue
    content := .list <|
      io
        ++ [{ text := "Ext 0x100: " ++ " ".intercalate extended },
            { text :=
                "Stack: depth " ++ Text.decimal snapshot.stackDepth ++ "  last pushed "
                  ++ Text.decimal snapshot.lastPushed.toNat
              style := .ofColour .cyan }]
        ++ bytes }

/-- The panel of the memories, with the first eight cells of the extended page. -/
def memoryPanel? (debugger : Debugger) : Option Panel :=
  (debugger.extendedCells? 8).map debugger.memoryPanel

def helpPanel : Panel where
  title := " Help "
  style := .ofColour .darkGray
  content := .text
    [[{ text := "s: State step  c: Cycle  r: Run  p: Pause" }],
     [{ text := "b: Breakpoint  x: Reset  0-9: Force state" }],
     [{ text := "q: Quit" }]]

/-! ## The screen -/

/-- The height of the control unit panel, and of the register panel. -/
def tallPanel : UInt16 := 10

def statusHeight : UInt16 := 3

def helpHeight : UInt16 := 5

/-- The screen of a width and a height that has room for the panels. The left column
takes eleven twentieths of the width; in each column one panel takes what the other
panels leave of the height. -/
def view? (renderer : Renderer) (debugger : Debugger) (width height : UInt16) : Option Block := do
  let left := (width.toNat * 11 / 20).toUInt16
  let right := width - left
  let programHeight := (height.toNat - (tallPanel + statusHeight).toNat).toUInt16
  let memoryHeight := (height.toNat - (tallPanel + helpHeight).toNat).toUInt16
  let program ← debugger.programPanel? programHeight
  let memory ← debugger.memoryPanel?
  some <| beside
    (renderer.render program left programHeight
      ++ renderer.render debugger.controlPanel left tallPanel
      ++ renderer.render debugger.statusPanel left statusHeight)
    (renderer.render debugger.registerPanel right tallPanel
      ++ renderer.render memory right memoryHeight
      ++ renderer.render helpPanel right helpHeight)

end ControlUnit.Debugger
