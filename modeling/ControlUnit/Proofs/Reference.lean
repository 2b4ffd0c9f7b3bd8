import ControlUnit.Proofs.Operation
import Mathlib.Logic.Function.Basic

/-!
# The reference machine

The instruction set as its table describes it: one state, in which the registers and
the cells of data memory are functions and the stack is a list, and one step that
carries out a whole instruction.  There are no phases, effects or operand types; an
instruction is an opcode byte and two operand bytes, taken off the word by division.

A machine is seen as a state of the reference machine by `Reference.ofMachine`, which
forgets nothing but the program memory.  One cycle from the fetch phase is then one
step of the reference machine, and whole runs follow by induction on their length.

## Main results

* `Reference.ofMachine_injective` — machines with one program memory that look the same
  are the same.
* `Reference.table_apply` — the table gives what the effect of an instruction does.
* `Reference.cycle_ofMachine` — a cycle is a step of the reference machine.
* `Reference.cycles_refine_table` — runs of cycles, transitions and reference steps
  agree.
-/

namespace ControlUnit

/-! ## The instruction table -/

/-- The state of the reference machine. -/
structure Reference where
  instructionRegister : UInt32 := 0
  pc : UInt8 := 0
  mar : UInt8 := 0
  status : StatusRegister := {}
  fields : Fields := {}
  phase : Phase := .fetch
  cycles : Nat := 0
  registers : Fin 32 → UInt8 := fun _ => 0
  data : Fin 512 → UInt8 := fun _ => 0
  /-- The bytes on the stack, the top one first. -/
  stack : List UInt8 := []
  lastPushed : UInt8 := 0

namespace Reference

def registerNumber (operand : UInt8) : Fin 32 := ⟨operand.toNat % 32, Nat.mod_lt _ (by decide)⟩

/-- The cell of data memory that an operand selects for input and output. -/
def ioCell (operand : UInt8) : Fin 512 :=
  ⟨operand.toNat, Nat.lt_trans operand.toNat_lt (by decide)⟩

/-- The cell of data memory that an operand selects for storing and loading. -/
def extendedCell (operand : UInt8) : Fin 512 :=
  ⟨operand.toNat + 256, Nat.add_lt_add_right operand.toNat_lt 256⟩

def register (state : Reference) (operand : UInt8) : UInt8 :=
  state.registers (registerNumber operand)

def setRegister (state : Reference) (operand value : UInt8) : Reference :=
  { state with registers := Function.update state.registers (registerNumber operand) value }

def setCell (state : Reference) (cell : Fin 512) (value : UInt8) : Reference :=
  { state with data := Function.update state.data cell value }

/-- The state after a push, which a stack of 256 bytes drops. -/
def push (state : Reference) (value : UInt8) : Reference :=
  if state.stack.length < 256 then
    { state with stack := value :: state.stack, lastPushed := value }
  else state

/-- The byte that a pop gives, zero from the empty stack. -/
def popped (state : Reference) : UInt8 := state.stack.headD 0

def pop (state : Reference) : Reference := { state with stack := state.stack.tail }

/-- What an instruction does, given its three bytes.  The counter is already that of the
next instruction.  An opcode above eleven has no entry. -/
def table (opcode first second : UInt8) (state : Reference) : Option Reference :=
  match opcode.toNat with
  | 0x00 => some state
  | 0x01 => some (state.setRegister first second)
  | 0x02 => some (state.setRegister first (state.register second))
  | 0x03 => some (state.setCell (ioCell first) (state.register second))
  | 0x04 => some (state.setRegister first (state.data (ioCell second)))
  | 0x05 => some (state.setCell (extendedCell first) (state.register second))
  | 0x06 => some (state.setRegister first (state.data (extendedCell second)))
  | 0x07 => some { state with pc := first }
  | 0x08 => some { state.push state.pc with pc := first }
  | 0x09 => some { state.pop with pc := state.popped }
  | 0x0A => some (state.push (state.register first))
  | 0x0B => some (state.pop.setRegister first state.popped)
  | _ => none

/-- The bytes of a word, as digits of base 256. -/
def bytes (word : UInt32) : Fields where
  opcode := .ofNat (word.toNat / 65536)
  first := .ofNat (word.toNat / 256)
  second := .ofNat word.toNat

/-- The state with the word at the counter read and the counter moved on. -/
def fetch (program : Program) (state : Reference) : Reference :=
  { state with
    instructionRegister := program.cell state.pc
    mar := state.pc
    pc := state.pc + 1
    fields := bytes (program.cell state.pc) }

/-- One instruction: fetch, and make the change of the table.  A word without an entry
clears everything. -/
def cycle (program : Program) (state : Reference) : Reference :=
  let fields := bytes (program.cell state.pc)
  match table fields.opcode fields.first fields.second (state.fetch program) with
  | some changed => { changed with cycles := changed.cycles + 1 }
  | none => {}

/-- What the instruction at an address reports: itself, or a fault if its opcode is
above eleven. -/
def result (program : Program) (address : UInt8) : Except Fault Instruction :=
  match Instruction.decode (program.cell address) with
  | .ok instruction => .ok instruction
  | .error _ => .error (.unknownOpcode (bytes (program.cell address)).opcode address)

/-! ## Seeing a machine as a state -/

/-- The state in which a machine is. -/
def ofMachine (machine : Machine) : Reference where
  instructionRegister := machine.instructionRegister
  pc := machine.pc
  mar := machine.mar
  status := machine.status
  fields := machine.fields
  phase := machine.phase
  cycles := machine.cycles
  registers number := machine.registers.cells.get number
  data cell := machine.data.cells.get cell
  stack := machine.stack.values
  lastPushed := machine.stack.lastPushed

private theorem vector_ext_get {count : Nat} {first second : Vector UInt8 count}
    (h : (fun index => first.get index) = fun index => second.get index) : first = second := by
  apply Vector.ext
  intro index hIndex
  exact congrFun h ⟨index, hIndex⟩

/-- Machines with one program memory that look the same are the same. -/
theorem ofMachine_injective {first second : Machine} (hView : ofMachine first = ofMachine second)
    (hProgram : first.program = second.program) : first = second := by
  obtain ⟨_, _, _, _, _, _, _, ⟨firstRegisters⟩, ⟨firstData⟩, ⟨_, _⟩, _⟩ := first
  obtain ⟨_, _, _, _, _, _, _, ⟨secondRegisters⟩, ⟨secondData⟩, ⟨_, _⟩, _⟩ := second
  simp only [ofMachine, Reference.mk.injEq] at hView hProgram
  obtain ⟨rfl, rfl, rfl, rfl, rfl, rfl, rfl, hRegisters, hData, rfl, rfl⟩ := hView
  obtain rfl := vector_ext_get hRegisters
  obtain rfl := vector_ext_get hData
  rw [hProgram]

variable {machine : Machine}

theorem data_ofMachine {address : UInt16} {cell : Fin 512} (hCell : address.toNat = cell.val) :
    (ofMachine machine).data cell = machine.data.read address := by
  have hSize : address.toNat < dataSize := hCell ▸ cell.isLt
  have hIndex : (⟨address.toNat, hSize⟩ : Fin dataSize) = cell := Fin.ext hCell
  rw [DataMemory.read, dif_pos hSize, ← hIndex]
  rfl

private theorem get_set_eq_update {count : Nat} (cells : Vector UInt8 count) (index : Fin count)
    (value : UInt8) :
    (fun other => (cells.set index value).get other)
      = Function.update (fun other => cells.get other) index value := by
  funext other
  rw [Function.update_apply]
  show (cells.set index value)[other.val] = _
  rw [Vector.getElem_set]
  by_cases hIndex : other = index
  · simp [hIndex]
  · have hNat : ¬index.val = other.val := fun h => hIndex (Fin.ext h.symm)
    simp only [hNat, hIndex, if_false]
    rfl

theorem ofMachine_setRegister (operand value : UInt8) :
    ofMachine { machine with registers := machine.registers.set operand value }
      = (ofMachine machine).setRegister operand value := by
  have hUpdate := get_set_eq_update machine.registers.cells (registerIndex operand) value
  simp only [ofMachine, setRegister, RegisterFile.set, Reference.mk.injEq, true_and, and_true]
  exact hUpdate

theorem ofMachine_writeData {address : UInt16} {cell : Fin 512} (hCell : address.toNat = cell.val)
    (value : UInt8) :
    ofMachine { machine with data := machine.data.write address value }
      = (ofMachine machine).setCell cell value := by
  have hSize : address.toNat < dataSize := hCell ▸ cell.isLt
  have hIndex : cell = ⟨address.toNat, hSize⟩ := Fin.ext hCell.symm
  have hUpdate := get_set_eq_update machine.data.cells ⟨address.toNat, hSize⟩ value
  have hWrite : machine.data.write address value
      = ⟨machine.data.cells.set address.toNat value⟩ := by
    rw [DataMemory.write, dif_pos hSize]
  simp only [ofMachine, setCell, hWrite, hIndex, Reference.mk.injEq, true_and, and_true]
  exact hUpdate

theorem ofMachine_push (value : UInt8) :
    ofMachine { machine with stack := machine.stack.push value }
      = (ofMachine machine).push value := by
  by_cases hDepth : machine.stack.values.length < 256
  · have hPush : machine.stack.push value = ⟨value :: machine.stack.values, value⟩ :=
      Stack.push_of_lt hDepth value
    simp only [ofMachine, push, hPush, hDepth, if_true]
  · have hPush : machine.stack.push value = machine.stack :=
      Stack.push_of_le (Nat.not_lt.1 hDepth) value
    simp only [ofMachine, push, hPush, hDepth, if_false]

/-- The table gives what the effect of an instruction does. -/
theorem table_apply (opcode : Opcode) (first second : UInt8) (machine : Machine) :
    table opcode.code first second (ofMachine machine)
      = some (ofMachine (machine.apply
          ((Instruction.ofOpcode first second opcode).effect machine.registers machine.data
            machine.pc))) := by
  cases opcode with
  | nop => rfl
  | loadImmediate => exact congrArg some (ofMachine_setRegister first second).symm
  | move => exact congrArg some (ofMachine_setRegister first (machine.registers.get second)).symm
  | output =>
      have hCell : first.toUInt16.toNat = (ioCell first).val := UInt8.toNat_toUInt16 first
      exact congrArg some (ofMachine_writeData hCell (machine.registers.get second)).symm
  | input =>
      have hCell : second.toUInt16.toNat = (ioCell second).val := UInt8.toNat_toUInt16 second
      show some ((ofMachine machine).setRegister first ((ofMachine machine).data (ioCell second)))
        = _
      rw [data_ofMachine hCell, ← ofMachine_setRegister]
      rfl
  | store =>
      have hCell : (extendedAddress first).toNat = (extendedCell first).val :=
        toNat_extendedAddress first
      exact congrArg some (ofMachine_writeData hCell (machine.registers.get second)).symm
  | load =>
      have hCell : (extendedAddress second).toNat = (extendedCell second).val :=
        toNat_extendedAddress second
      show some ((ofMachine machine).setRegister first
        ((ofMachine machine).data (extendedCell second))) = _
      rw [data_ofMachine hCell, ← ofMachine_setRegister]
      rfl
  | jump => rfl
  | call =>
      show some { (ofMachine machine).push machine.pc with pc := first } = _
      rw [← ofMachine_push]
      rfl
  | ret => rfl
  | push =>
      show some ((ofMachine machine).push (machine.registers.get first)) = _
      rw [← ofMachine_push]
      rfl
  | pop =>
      let rest : Machine := { machine with stack := machine.stack.pop }
      have hPop : (ofMachine rest).setRegister first machine.stack.popped
          = ofMachine { rest with registers := rest.registers.set first machine.stack.popped } :=
        (ofMachine_setRegister first machine.stack.popped).symm
      exact congrArg some hPop

theorem table_eq_none {opcode : UInt8} (hOpcode : 0x0B < opcode) (first second : UInt8)
    (state : Reference) : table opcode first second state = none := by
  have hNat : 11 < opcode.toNat := UInt8.lt_iff_toNat_lt.1 hOpcode
  unfold table
  split <;> first | omega | rfl

/-! ## Cycles -/

/-- The bytes of a word are its fields. -/
theorem bytes_eq_split (word : UInt32) : bytes word = .split word := by
  obtain ⟨hOpcode, hFirst, hSecond⟩ := Fields.toNat_split word
  have hByte : ∀ {byte : UInt8} {n : Nat}, byte.toNat = n % 256 → UInt8.ofNat n = byte := by
    intro byte n h
    apply UInt8.toNat_inj.1
    rw [h, UInt8.toNat_ofNat']
  rw [bytes, hByte hOpcode, hByte hFirst, hByte hSecond]

/-- A machine with its next instruction fetched and decoded, the phase left alone. -/
def fetched (program : Program) (machine : Machine) : Machine :=
  { machine with
    instructionRegister := program.cell machine.pc
    mar := machine.pc
    pc := machine.pc + 1
    fields := bytes (program.cell machine.pc) }

theorem atExecute_of_fetch {program : Program}
    (hCells : ∀ address, machine.program.read address = program.cell address)
    (hPhase : machine.phase = .fetch) :
    machine.atExecute = { fetched program machine with phase := .execute } := by
  simp only [Machine.atExecute, hPhase, Machine.fetch, Machine.decode, fetched, hCells,
    bytes_eq_split]

theorem fields_atExecute {program : Program}
    (hCells : ∀ address, machine.program.read address = program.cell address)
    (hPhase : machine.phase = .fetch) :
    machine.atExecute.fields = bytes (program.cell machine.pc) ∧
      machine.atExecute.mar = machine.pc := by
  rw [atExecute_of_fetch hCells hPhase]
  exact ⟨rfl, rfl⟩

/-- What an instruction does is independent of the phase. -/
theorem executed_of_phase (machine : Machine) (phase : Phase) (instruction : Instruction) :
    { machine with phase := phase }.executed instruction = machine.executed instruction := by
  unfold Machine.executed
  cases instruction <;> rfl

theorem ofMachine_reset (machine : Machine) : ofMachine machine.reset = {} := by
  have hZero : ∀ count, (fun index => (Vector.replicate count (0 : UInt8)).get index)
      = fun _ => 0 := by
    intro count
    funext index
    exact Vector.getElem_replicate index.isLt
  have hRegisters := hZero registerCount
  have hData := hZero dataSize
  simp only [ofMachine, Machine.reset, Reference.mk.injEq, true_and]
  exact ⟨hRegisters, hData, rfl, rfl⟩

theorem cycle_ofMachine_of_ok {program : Program} {instruction : Instruction}
    (hPhase : machine.phase = .fetch)
    (hDecode : Instruction.ofFields (bytes (program.cell machine.pc)) = .ok instruction) :
    cycle program (ofMachine machine)
      = ofMachine ((fetched program machine).executed instruction) := by
  obtain ⟨opcode, hOpcode, hInstruction⟩ := Instruction.ofFields_eq_ok_iff.1 hDecode
  have hTable := table_apply opcode (bytes (program.cell machine.pc)).first
    (bytes (program.cell machine.pc)).second (fetched program machine)
  rw [hOpcode, hInstruction] at hTable
  have hFetch : (ofMachine machine).fetch program = ofMachine (fetched program machine) := rfl
  have hPc : (ofMachine machine).pc = machine.pc := rfl
  simp only [cycle, hFetch, hPc, hTable]
  simp only [ofMachine, Machine.executed, Machine.apply_cycles, Machine.apply_phase]
  simp only [fetched, hPhase]

theorem cycle_ofMachine_of_error {program : Program} {reason : DecodeError}
    (hDecode : Instruction.ofFields (bytes (program.cell machine.pc)) = .error reason) :
    cycle program (ofMachine machine) = {} := by
  have hOpcode := (Instruction.ofFields_eq_error_iff.1 hDecode).1
  have hPc : (ofMachine machine).pc = machine.pc := rfl
  simp only [cycle, hPc, table_eq_none hOpcode]

/-- A cycle is a step of the reference machine, and reports what it reports. -/
theorem cycle_ofMachine {program : Program}
    (hCells : ∀ address, machine.program.read address = program.cell address)
    (hPhase : machine.phase = .fetch) :
    ofMachine machine.afterCycle = cycle program (ofMachine machine) ∧
      machine.cycle.1 = result program machine.pc := by
  have hAt := atExecute_of_fetch hCells hPhase
  obtain ⟨hFields, hMar⟩ := fields_atExecute hCells hPhase
  rw [Machine.afterCycle, result, Instruction.decode, ← bytes_eq_split, ← hFields]
  rcases Machine.cycle_cases machine with ⟨instruction, hOk, hCycle⟩ | ⟨reason, hError, hCycle⟩
  · rw [hCycle, hOk]
    rw [hFields] at hOk
    refine ⟨?_, rfl⟩
    rw [cycle_ofMachine_of_ok hPhase hOk, hAt, executed_of_phase]
  · rw [hCycle, hError]
    rw [hFields] at hError
    refine ⟨?_, by rw [hMar]⟩
    rw [cycle_ofMachine_of_error hError]
    exact ofMachine_reset machine

/-! ## Runs -/

theorem phase_afterCycle (machine : Machine) : machine.afterCycle.phase = .fetch := by
  rw [Machine.afterCycle]
  rcases Machine.cycle_cases machine with ⟨instruction, -, hCycle⟩ | ⟨reason, -, hCycle⟩
  · rw [hCycle]
    rfl
  · rw [hCycle]
    rfl

theorem phase_afterCycle_iterate (hPhase : machine.phase = .fetch) (count : Nat) :
    (Machine.afterCycle^[count] machine).phase = .fetch := by
  cases count with
  | zero => exact hPhase
  | succ count =>
      rw [Function.iterate_succ_apply']
      exact phase_afterCycle _

theorem afterCycle_iterate (hPhase : machine.phase = .fetch) (count : Nat) :
    Machine.afterCycle^[count] machine = Machine.afterStep^[3 * count] machine := by
  induction count generalizing machine with
  | zero => rfl
  | succ count ih =>
      have hThree : machine.afterCycle = Machine.afterStep^[3] machine := by
        rw [Machine.afterCycle_eq, hPhase]
        rfl
      rw [Function.iterate_succ_apply, ih (phase_afterCycle machine), hThree,
        ← Function.iterate_add_apply, Nat.mul_succ]

/-- The first of some cycles takes the transitions that its phase leaves, every other one
takes three. -/
theorem afterCycle_iterate_succ (machine : Machine) (count : Nat) :
    Machine.afterCycle^[count + 1] machine
      = Machine.afterStep^[machine.phase.transitionsLeft + 3 * count] machine := by
  rw [Function.iterate_succ_apply, afterCycle_iterate (phase_afterCycle machine),
    Machine.afterCycle_eq, ← Function.iterate_add_apply, Nat.add_comm]

theorem program_afterCycle_iterate (hLoaded : machine.program.load = machine.program)
    (count : Nat) : (Machine.afterCycle^[count] machine).program = machine.program := by
  induction count generalizing machine with
  | zero => rfl
  | succ count ih =>
      have hProgram : machine.afterCycle.program = machine.program :=
        Machine.program_cycle hLoaded
      rw [Function.iterate_succ_apply, ih (by rw [hProgram, hLoaded]), hProgram]

/-- Cycles from the fetch phase are steps of the reference machine. -/
theorem ofMachine_iterate {program : Program}
    (hLoaded : machine.program.load = machine.program)
    (hCells : ∀ address, machine.program.read address = program.cell address)
    (hPhase : machine.phase = .fetch) (count : Nat) :
    ofMachine (Machine.afterCycle^[count] machine)
      = (cycle program)^[count] (ofMachine machine) := by
  induction count generalizing machine with
  | zero => rfl
  | succ count ih =>
      have hProgram : machine.afterCycle.program = machine.program :=
        Machine.program_cycle hLoaded
      rw [Function.iterate_succ_apply, Function.iterate_succ_apply,
        ← (cycle_ofMachine hCells hPhase).1]
      exact ih (by rw [hProgram, hLoaded]) (by rw [hProgram]; exact hCells)
        (phase_afterCycle machine)

/-- **Cycles refine the instruction table.**  From the fetch phase of a reachable machine,
any number of cycles are three times as many transitions, lead to the state to which the
reference machine comes in that number of steps, leave the program memory alone, and the
next one reports what the reference machine does; a byte above eleven is a fault, and
leaves the reset machine.  From any phase, a cycle makes the transitions that are left of
it, and reports what the last of them does. -/
theorem cycles_refine_table {program : Program} (hReachable : machine.Reachable program) :
    (machine.phase = .fetch → ∀ count,
      Machine.afterCycle^[count] machine = Machine.afterStep^[3 * count] machine ∧
      ofMachine (Machine.afterCycle^[count] machine)
        = (cycle program)^[count] (ofMachine machine) ∧
      (Machine.afterCycle^[count] machine).program = machine.program ∧
      (Machine.afterCycle^[count] machine).cycle.1
        = result program (Machine.afterCycle^[count] machine).pc) ∧
    (machine.phase = .fetch → 0x0B < (bytes (program.cell machine.pc)).opcode →
      machine.cycle
        = (.error (.unknownOpcode (bytes (program.cell machine.pc)).opcode machine.pc),
            machine.reset)) ∧
    (∀ count, Machine.afterCycle^[count + 1] machine
      = Machine.afterStep^[machine.phase.transitionsLeft + 3 * count] machine) ∧
    (machine.transitions machine.phase.transitionsLeft).map Event.result?
      = List.replicate (machine.phase.transitionsLeft - 1) none ++ [some machine.cycle.1] := by
  obtain ⟨new, hNew, hProgram⟩ := hReachable.program_eq
  have hLoaded : machine.program.load = machine.program := by
    rw [hProgram, Machine.load_of_ofProgram hNew]
  have hCells : ∀ address, machine.program.read address = program.cell address := by
    intro address
    rw [hProgram, Machine.read_of_ofProgram hNew]
  refine ⟨?_, ?_, afterCycle_iterate_succ machine, ?_⟩
  · intro hPhase count
    have hAfter := program_afterCycle_iterate hLoaded count
    have hAfterPhase : (Machine.afterCycle^[count] machine).phase = .fetch := by
      cases count with
      | zero => exact hPhase
      | succ count =>
          rw [Function.iterate_succ_apply']
          exact phase_afterCycle _
    refine ⟨afterCycle_iterate hPhase count, ofMachine_iterate hLoaded hCells hPhase count,
      hAfter, ?_⟩
    exact (cycle_ofMachine (by rw [hAfter]; exact hCells) hAfterPhase).2
  · intro hPhase hOpcode
    obtain ⟨hFields, hMar⟩ := fields_atExecute hCells hPhase
    rw [← hFields, ← hMar]
    rw [← hFields] at hOpcode
    rcases Machine.cycle_cases machine with ⟨instruction, hOk, -⟩ | ⟨reason, -, hCycle⟩
    · rw [Instruction.ofFields_eq_error_iff.2 ⟨hOpcode, rfl⟩] at hOk
      cases hOk
    · exact hCycle
  · have hLeft : machine.phase.transitionsLeft = machine.phase.transitionsLeft - 1 + 1 := by
      cases machine.phase <;> rfl
    rw [hLeft]
    exact Machine.results_transitions hLeft

set_option maxRecDepth 10000 in
/-- Two cycles of the program that faults load a register and save it; the third is a
fault, and a reset. -/
theorem cycles_refine_table_faultingMachine :
    let saved := Machine.afterCycle^[2] faultingMachine
    saved.Reachable faultingProgram ∧ saved.phase = .fetch ∧ (0x0B : UInt8) < 0x7F ∧
      Machine.afterCycle^[2] saved = Machine.afterStep^[6] saved ∧
      saved.cycle = (.error (.unknownOpcode 0x7F 2), saved.reset) := by
  intro saved
  have hReachable : saved.Reachable faultingProgram :=
    ⟨faultingMachine, [.cycle, .cycle], ofProgram_faultingProgram, rfl⟩
  have hPhase : saved.phase = .fetch := phase_afterCycle _
  have hPc : saved.pc = 2 := by decide
  have hOpcode : (bytes (faultingProgram.cell 2)).opcode = 0x7F := by decide
  have hAbove : (0x0B : UInt8) < 0x7F := by decide
  obtain ⟨hRuns, hFault, -⟩ := cycles_refine_table hReachable
  rw [hPc, hOpcode] at hFault
  exact ⟨hReachable, hPhase, hAbove, (hRuns hPhase 2).1, hFault hPhase hAbove⟩

end Reference

end ControlUnit
