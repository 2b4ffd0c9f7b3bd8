import ControlUnit.Machine
import ControlUnit.Text.Column

/-!
# Snapshots

A view of the machine at one moment, for people to read as a framed report. Taking it
changes nothing.
-/

namespace ControlUnit

/-- What a report shows of a machine. -/
structure Snapshot where
  /-- The subroutine that the current instruction belongs to. -/
  subroutine : String
  /-- The mnemonic of the current instruction. -/
  instruction : String
  phase : Phase
  pc : UInt8
  stackDepth : Nat
  lastPushed : UInt8
  instructionRegister : UInt32
  /-- The flags of the status register. -/
  status : UInt8
  /-- Registers with their names. -/
  registers : List (String × UInt8)
  /-- I/O registers with their names. -/
  ioRegisters : List (String × UInt8)
  deriving DecidableEq, Repr

/-- The registers that a report shows. -/
def reportedRegisters : List UInt8 := [16, 17, 18, 24]

def Machine.snapshot (machine : Machine) : Snapshot where
  subroutine := machine.subroutineName
  instruction := machine.instructionName
  phase := machine.phase
  pc := machine.pc
  stackDepth := machine.stack.depth
  lastPushed := machine.stack.lastPushed
  instructionRegister := machine.instructionRegister
  status := machine.status.bits
  registers := reportedRegisters.map fun register =>
    ("R" ++ Text.decimal register.toNat, machine.registers.get register)
  ioRegisters := ControlUnit.ioRegisters.map fun named =>
    (named.1, machine.data.read named.2.toUInt16)

namespace Snapshot

/-- The instruction register as three bytes of base two. -/
def instructionBits (snapshot : Snapshot) : String :=
  let fields := Fields.split snapshot.instructionRegister
  Text.binaryByte fields.opcode ++ " " ++ Text.binaryByte fields.first ++ " "
    ++ Text.binaryByte fields.second

/-- The six flags of the status register. -/
def statusBits (snapshot : Snapshot) : String := Text.padded 2 6 snapshot.status.toNat

/-! ## The report -/

/-- The line above and below a report. -/
def rule : String := String.ofList (List.replicate 80 '-')

/-- A line of a report: a label, and its value from column forty-one on. -/
def entry (label value : String) : String := Text.flushLeft 40 (label ++ ":") ++ value

def reportLines (snapshot : Snapshot) : List String :=
  [rule,
   entry "Current subroutine" snapshot.subroutine,
   entry "Current instruction" snapshot.instruction,
   entry "Current state" snapshot.phase.name,
   "",
   entry "Program counter" (Text.decimal snapshot.pc.toNat),
   entry "Stack depth" (Text.decimal snapshot.stackDepth),
   entry "Last element added to the stack" (Text.decimal snapshot.lastPushed.toNat),
   "",
   entry "Instruction register" snapshot.instructionBits,
   entry "Status register (ISNZVC)" snapshot.statusBits,
   ""]
    ++ snapshot.registers.map (fun register =>
        entry ("Content in CPU register " ++ register.1) (Text.binaryByte register.2))
    ++ [""]
    ++ snapshot.ioRegisters.map (fun register =>
        entry ("Content in I/O register " ++ register.1) (Text.binaryByte register.2))

/-- The framed report, without a line feed at its end. -/
def report (snapshot : Snapshot) : String := Text.ofLines snapshot.reportLines ++ rule

end Snapshot

end ControlUnit
