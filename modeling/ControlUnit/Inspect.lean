import ControlUnit.Machine

/-!
# Inspection

The field-by-field text of a value, for diagnosing the machine itself: the name of
the value, then its fields with their names between braces. A value without fields
is its bare name.
-/

namespace ControlUnit.Inspect

/-- Parts with a comma and a space between them. -/
def commaSeparated (parts : List String) : String := ", ".intercalate parts

/-- A named value with its named fields. -/
def fielded (name : String) : List (String × String) → String
  | [] => name
  | fields =>
    name ++ " \x7b " ++ commaSeparated (fields.map fun field => field.1 ++ ": " ++ field.2) ++ " \x7d"

def byteField (name : String) (value : UInt8) : String × String := (name, Text.decimal value.toNat)

def instruction : Instruction → String
  | .nop => "Nop"
  | .loadImmediate register value => fielded "Ldi" [byteField "reg" register, byteField "value" value]
  | .move target source => fielded "Mov" [byteField "dst" target, byteField "src" source]
  | .output address register => fielded "Out" [byteField "io" address, byteField "reg" register]
  | .input register address => fielded "In" [byteField "reg" register, byteField "io" address]
  | .store address register => fielded "Sts" [byteField "addr" address, byteField "reg" register]
  | .load register address => fielded "Lds" [byteField "reg" register, byteField "addr" address]
  | .jump target => fielded "Jmp" [byteField "target" target]
  | .call target => fielded "Call" [byteField "target" target]
  | .ret => "Ret"
  | .push register => fielded "Push" [byteField "reg" register]
  | .pop register => fielded "Pop" [byteField "reg" register]

def effect : Effect → String
  | .nothing => "None"
  | .setRegister register value =>
    fielded "SetRegister" [byteField "reg" register, byteField "value" value]
  | .writeData address value =>
    fielded "WriteData" [("address", Text.decimal address.toNat), byteField "value" value]
  | .jump target => fielded "Jump" [byteField "target" target]
  | .call returnAddress target =>
    fielded "Call" [byteField "return_address" returnAddress, byteField "target" target]
  | .ret => "Return"
  | .push value => fielded "Push" [byteField "value" value]
  | .pop register => fielded "Pop" [byteField "reg" register]

def status (register : StatusRegister) : String :=
  "StatusRegister(" ++ Text.decimal register.raw.toNat ++ ")"

/-- A register that is not zero, with its value. -/
def registerEntry (cell : Nat × UInt8) : String :=
  "R" ++ Text.decimal cell.1 ++ ": " ++ Text.decimal cell.2.toNat

/-- The text of a register file on one line. Registers that hold zero are left out. -/
def registers (file : RegisterFile) : String :=
  "\x7b" ++ commaSeparated (file.nonzero.map registerEntry) ++ "\x7d"

/-- The text of a register file with a line for each register. -/
def registersByLine (file : RegisterFile) : String :=
  match file.nonzero with
  | [] => "\x7b\x7d"
  | cells =>
    "\x7b\n" ++ String.join (cells.map fun cell => "    " ++ registerEntry cell ++ ",\n") ++ "\x7d"

/-- The text of data memory: how many of its cells are in use. -/
def data (memory : DataMemory) : String :=
  fielded "DataMemory"
    [("non_zero_cells", Text.decimal memory.nonzero.length),
     ("total_cells", Text.decimal dataSize)]

def program (memory : ProgramMemory) : String :=
  fielded "ProgramMemory"
    [("words", Text.decimal memory.image.size),
     ("subroutines", Text.decimal memory.image.subroutines.length),
     ("loaded", toString memory.loaded)]

def machine (machine : Machine) : String :=
  fielded "Cpu"
    [("state", machine.phase.name),
     byteField "pc" machine.pc,
     byteField "mar" machine.mar,
     ("ir", "0x" ++ Text.padded 16 6 machine.instructionRegister.toNat),
     ("cycles", Text.decimal machine.cycles),
     ("regs", registers machine.registers)]

end ControlUnit.Inspect
