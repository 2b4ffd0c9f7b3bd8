import ControlUnit.Effect
import ControlUnit.ProgramMemory
import ControlUnit.Stack

/-!
# The machine

The control unit with the memories it drives. An instruction takes three
transitions: in the fetch phase the word at the program counter is loaded into the
instruction register, in the decode phase the word is taken apart, in the execute
phase the instruction takes effect. A cycle runs transitions until an execute phase
is over.

An opcode that encodes nothing, and a forced phase with an unknown code, are faults.
The machine recovers from a fault by a reset, which leaves it as it was when it was
made.

## Main results

* `Machine.step_fetch`, `Machine.step_decode`, `Machine.step_execute` — what a
  transition is in each phase.
* `Machine.reset_reset`, `Machine.reset_ofProgram` — a reset machine, and a new one,
  are not changed by a reset.
-/

namespace ControlUnit

/-! ## Phases, faults and transitions -/

/-- The phases of an instruction cycle. -/
inductive Phase where
  | fetch
  | decode
  | execute
  deriving DecidableEq, Repr, Inhabited

namespace Phase

/-- The phase with a given raw code. -/
def ofCode? (code : UInt8) : Option Phase :=
  if code = 0 then some fetch
  else if code = 1 then some decode
  else if code = 2 then some execute
  else none

def name : Phase → String
  | fetch => "Fetch"
  | decode => "Decode"
  | execute => "Execute"

/-- The phase after this one in a cycle. -/
def next : Phase → Phase
  | fetch => decode
  | decode => execute
  | execute => fetch

end Phase

/-- A condition from which the machine recovers by a reset. -/
inductive Fault where
  /-- The opcode of the instruction at an address encodes nothing. -/
  | unknownOpcode (opcode address : UInt8)
  /-- A phase was forced by a code that no phase has. -/
  | unknownPhase (code : UInt8)
  deriving DecidableEq, Repr

/-- The report of a fault. -/
def Fault.message : Fault → String
  | unknownOpcode opcode address =>
    "unrecognized opcode " ++ Text.hexByte opcode ++ " at address " ++ Text.decimal address.toNat
  | unknownPhase code => "unrecognized state code " ++ Text.decimal code.toNat

/-- What one transition did. -/
inductive Transition where
  /-- A word was loaded from an address. -/
  | fetched (address : UInt8) (word : UInt32)
  /-- The word was taken apart. -/
  | decoded (fields : Fields)
  /-- An instruction took effect. -/
  | executed (instruction : Instruction)
  /-- A fault was met, and the machine was reset. -/
  | recovered (fault : Fault)
  deriving DecidableEq, Repr

/-! ## The machine -/

/-- The state of the control unit and its memories. -/
structure Machine where
  /-- The word being executed. -/
  instructionRegister : UInt32 := 0
  /-- The address of the next word to fetch. -/
  pc : UInt8 := 0
  /-- The address of the word being executed. -/
  mar : UInt8 := 0
  status : StatusRegister := {}
  /-- The fields of the word decoded last. -/
  fields : Fields := {}
  phase : Phase := .fetch
  /-- The number of instructions executed since the last reset. This is a natural number,
  where the counter of the unit has 64 bits: runs of 2^64 cycles without a reset, in which
  that counter would overflow, are outside the model. -/
  cycles : Nat := 0
  registers : RegisterFile := .zeroed
  data : DataMemory := .zeroed
  stack : Stack := .empty
  program : ProgramMemory
  deriving DecidableEq

namespace Machine

/-- Everything is cleared and the program is in memory. -/
def reset (machine : Machine) : Machine := { program := machine.program.load }

/-- A machine for a program, or the reason why the program cannot be loaded. -/
def ofProgram (program : Program) : Except ProgramError Machine :=
  match ProgramMemory.ofProgram program with
  | .ok memory => .ok (reset { program := memory })
  | .error reason => .error reason

/-- The machine after a change has been made to it. -/
def apply (machine : Machine) : Effect → Machine
  | .nothing => machine
  | .setRegister register value =>
    { machine with registers := machine.registers.set register value }
  | .writeData address value => { machine with data := machine.data.write address value }
  | .jump target => { machine with pc := target }
  | .call returnAddress target =>
    { machine with stack := machine.stack.push returnAddress, pc := target }
  | .ret => { machine with pc := machine.stack.popped, stack := machine.stack.pop }
  | .push value => { machine with stack := machine.stack.push value }
  | .pop register =>
    { machine with
      registers := machine.registers.set register machine.stack.popped
      stack := machine.stack.pop }

/-- The fetch phase: load the word at the program counter and move the counter on,
from 255 to zero. -/
def fetch (machine : Machine) : Machine :=
  { machine with
    instructionRegister := machine.program.read machine.pc
    mar := machine.pc
    pc := machine.pc + 1
    phase := .decode }

/-- The decode phase: take the instruction register apart. -/
def decode (machine : Machine) : Machine :=
  { machine with fields := .split machine.instructionRegister, phase := .execute }

/-- The execute phase: apply the effect of the instruction, or reset if there is none. -/
def execute (machine : Machine) : Except Fault Instruction × Machine :=
  match Instruction.ofFields machine.fields with
  | .ok instruction =>
    let effect := instruction.effect machine.registers machine.data machine.pc
    let changed := machine.apply effect
    (.ok instruction, { changed with cycles := changed.cycles + 1, phase := .fetch })
  | .error _ => (.error (.unknownOpcode machine.fields.opcode machine.mar), machine.reset)

def step (machine : Machine) : Transition × Machine :=
  match machine.phase with
  | .fetch =>
    let fetched := machine.fetch
    (.fetched fetched.mar fetched.instructionRegister, fetched)
  | .decode =>
    let decoded := machine.decode
    (.decoded decoded.fields, decoded)
  | .execute =>
    match machine.execute with
    | (.ok instruction, executed) => (.executed instruction, executed)
    | (.error fault, recovered) => (.recovered fault, recovered)

/-- Finish the instruction cycle the machine is in, or run a whole one from the
fetch phase: the instruction executed, or the fault that was met. -/
def cycle (machine : Machine) : Except Fault Instruction × Machine :=
  match machine.phase with
  | .fetch => machine.fetch.decode.execute
  | .decode => machine.decode.execute
  | .execute => machine.execute

/-- Force the machine into the phase with a raw code. An unknown code resets it. -/
def forcePhase (machine : Machine) (code : UInt8) : Except Fault Phase × Machine :=
  match Phase.ofCode? code with
  | some phase => (.ok phase, { machine with phase := phase })
  | none => (.error (.unknownPhase code), machine.reset)

def opcode? (machine : Machine) : Option Opcode := Opcode.ofCode? machine.fields.opcode

def instructionName (machine : Machine) : String :=
  match machine.opcode? with
  | some opcode => opcode.mnemonic
  | none => "Unknown"

/-- The name of the subroutine that the current instruction belongs to. -/
def subroutineName (machine : Machine) : String := machine.program.subroutineName machine.mar

/-! ## Host access -/

def setRegister (machine : Machine) (register value : UInt8) : Machine :=
  { machine with registers := machine.registers.set register value }

def writeData (machine : Machine) (address : UInt16) (value : UInt8) : Machine :=
  { machine with data := machine.data.write address value }

def pushByte (machine : Machine) (value : UInt8) : Machine :=
  { machine with stack := machine.stack.push value }

def popByte (machine : Machine) : UInt8 × Machine :=
  (machine.stack.popped, { machine with stack := machine.stack.pop })

/-! ## Basic facts -/

theorem step_fetch {machine : Machine} (h : machine.phase = .fetch) :
    machine.step
      = (.fetched machine.pc (machine.program.read machine.pc), machine.fetch) := by
  simp [step, h, fetch]

theorem step_decode {machine : Machine} (h : machine.phase = .decode) :
    machine.step = (.decoded (.split machine.instructionRegister), machine.decode) := by
  simp [step, h, decode]

theorem step_execute {machine : Machine} (h : machine.phase = .execute) :
    machine.step.2 = machine.execute.2 := by
  simp only [step, h]
  split <;> simp_all

/-- A reset machine is not changed by a reset. -/
@[simp] theorem reset_reset (machine : Machine) : machine.reset.reset = machine.reset := by
  simp [reset]

/-- A new machine is not changed by a reset. -/
theorem reset_ofProgram {program : Program} {machine : Machine}
    (h : ofProgram program = .ok machine) : machine.reset = machine := by
  rw [ofProgram] at h
  split at h
  · cases h
    exact reset_reset _
  · cases h

end Machine

end ControlUnit
