import ControlUnit.DataMemory
import ControlUnit.Instruction
import ControlUnit.Program

/-!
# The sample program

A program that comes with the machine: it makes three pins outputs and then lights
them in turn. Every subroutine has a label in the table.
-/

namespace ControlUnit.Sample

/-! ## Addresses -/

/-- The address at which the machine starts. -/
def resetVector : UInt8 := 0

/-- The address of the main program. -/
def mainProgram : UInt8 := 8

/-- The address of the loop of the main program. -/
def mainLoop : UInt8 := 9

/-- The address of the subroutine that lights the pins. -/
def lightPins : UInt8 := 11

/-- The address of the subroutine that prepares the machine. -/
def setup : UInt8 := 16

/-- The address of the subroutine that prepares the pins. -/
def preparePins : UInt8 := 19

/-- The address of the subroutine that prepares the registers. -/
def prepareRegisters : UInt8 := 22

/-- The address after the program. -/
def stop : UInt8 := 26

/-! ## The program -/

/-- The instructions of the sample program. -/
def instructions : List Instruction :=
  [.jump mainProgram, .nop, .nop, .nop, .nop, .nop, .nop, .nop,
   .call setup,
   .call lightPins, .jump mainLoop,
   .output dataB 16, .output dataB 17, .output dataB 18, .output dataB 19, .ret,
   .call preparePins, .call prepareRegisters, .ret,
   .loadImmediate 16 0b111, .output directionB 16, .ret,
   .loadImmediate 16 0b001, .loadImmediate 17 0b010, .loadImmediate 18 0b100, .ret]

/-- The sample program. -/
def blink : Program where
  words := instructions.map Instruction.encode
  subroutines :=
    [⟨"RESET_vect", resetVector.toUInt16, mainProgram.toUInt16⟩,
     ⟨"main", mainProgram.toUInt16, lightPins.toUInt16⟩,
     ⟨"led_blink", lightPins.toUInt16, setup.toUInt16⟩,
     ⟨"setup", setup.toUInt16, preparePins.toUInt16⟩,
     ⟨"init_ports", preparePins.toUInt16, prepareRegisters.toUInt16⟩,
     ⟨"init_registers", prepareRegisters.toUInt16, stop.toUInt16⟩]

/-- The sample program can be loaded. -/
theorem check_blink : blink.check = .ok () := rfl

end ControlUnit.Sample
