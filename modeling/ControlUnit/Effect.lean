import ControlUnit.DataMemory
import ControlUnit.Instruction
import ControlUnit.Register

/-!
# Effects

What one instruction does to the machine, as a value. `Instruction.effect` reads
the registers and data memory; the machine then applies the effect, and nothing
else changes.
-/

namespace ControlUnit

/-- The single change an instruction makes. -/
inductive Effect where
  | nothing
  | setRegister (register value : UInt8)
  | writeData (address : UInt16) (value : UInt8)
  /-- The program counter is set. -/
  | jump (target : UInt8)
  /-- The return address is pushed and the program counter is set. -/
  | call (returnAddress target : UInt8)
  /-- The program counter is popped. -/
  | ret
  | push (value : UInt8)
  | pop (register : UInt8)
  deriving DecidableEq, Repr

/-- The address in the extended page that an operand selects. -/
def extendedAddress (operand : UInt8) : UInt16 := operand.toUInt16 + extendedPage

/-- The effect of an instruction. The program counter is the address after the
instruction, which a call pushes as its return address. -/
def Instruction.effect (registers : RegisterFile) (data : DataMemory) (pc : UInt8) :
    Instruction → Effect
  | .nop => .nothing
  | .loadImmediate register value => .setRegister register value
  | .move target source => .setRegister target (registers.get source)
  | .output address register => .writeData address.toUInt16 (registers.get register)
  | .input register address => .setRegister register (data.read address.toUInt16)
  | .store address register => .writeData (extendedAddress address) (registers.get register)
  | .load register address => .setRegister register (data.read (extendedAddress address))
  | .jump target => .jump target
  | .call target => .call pc target
  | .ret => .ret
  | .push register => .push (registers.get register)
  | .pop register => .pop register

/-- Every address of the extended page lies in data memory. -/
theorem toNat_extendedAddress (operand : UInt8) :
    (extendedAddress operand).toNat = operand.toNat + 256 := by
  have := operand.toNat_lt
  simp [extendedAddress, extendedPage]
  omega

end ControlUnit
