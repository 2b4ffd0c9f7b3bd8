import ControlUnit.Proofs.Lockstep
import ControlUnit.Proofs.Reference

/-!
# Data independence

Which words a machine fetches, and where it goes on, is decided by its control state: its
phase, its program counter, the word it is at and the stack.  Registers and data memory
come into this state in one way only, through an instruction that pushes a register.  In
a program without such an instruction they decide nothing: two machines that agree in
their control state make the same transitions, whatever their registers and data memory
hold.

That no pushing instruction is executed needs an invariant (`Pushless`), because a forced
phase can execute fields that were decoded long before, or decode a word that was fetched
long before.

## Main results

* `Machine.Pushless.perform` — nothing that a host does brings in a pushing instruction.
* `Machine.lockstep_samePath` — machines with one control state make the same transitions.
* `Machine.performAll_dataIndependent` — reachable machines with one control state report
  the same.
-/

namespace ControlUnit

namespace Machine

/-! ## Machines that never push a register -/

/-- No word that a machine holds, and no fields, are those of a pushing instruction. -/
structure Pushless (machine : Machine) : Prop where
  loaded : machine.program.load = machine.program
  cells : ∀ address,
    (Fields.split (machine.program.read address)).opcode ≠ Opcode.push.code
  instructionRegister : (Fields.split machine.instructionRegister).opcode ≠ Opcode.push.code
  fields : machine.fields.opcode ≠ Opcode.push.code

variable {machine first second : Machine}

theorem Pushless.opcode_ne (h : machine.Pushless) {instruction : Instruction}
    (hFields : Instruction.ofFields machine.fields = .ok instruction) :
    instruction.opcode ≠ .push := by
  obtain ⟨opcode, hOpcode, rfl⟩ := Instruction.ofFields_eq_ok_iff.1 hFields
  intro hPush
  apply h.fields
  rw [← hOpcode, ← hPush]
  cases opcode <;> rfl

theorem Pushless.reset (h : machine.Pushless) : machine.reset.Pushless := by
  constructor
  · exact ProgramMemory.load_load machine.program
  · show ∀ address, (Fields.split (machine.program.load.read address)).opcode ≠ _
    rw [h.loaded]
    exact h.cells
  · show (Fields.split 0).opcode ≠ Opcode.push.code
    decide
  · show ({} : Fields).opcode ≠ Opcode.push.code
    decide

theorem Pushless.afterStep (h : machine.Pushless) : machine.afterStep.Pushless := by
  rw [Machine.afterStep]
  rcases step_cases machine with
    ⟨-, hStep⟩ | ⟨-, hStep⟩ | ⟨instruction, -, -, hStep⟩ | ⟨reason, -, -, hStep⟩
  · rw [hStep]
    exact { h with instructionRegister := h.cells machine.pc }
  · rw [hStep]
    exact { h with fields := h.instructionRegister }
  · rw [hStep]
    constructor
    · simpa only [program_executed] using h.loaded
    · simpa only [program_executed] using h.cells
    · simpa only [instructionRegister_executed] using h.instructionRegister
    · simpa only [fields_executed] using h.fields
  · rw [hStep]
    exact h.reset

/-- Nothing that a host does brings in a pushing instruction. -/
theorem Pushless.perform (h : machine.Pushless) (operation : Operation) :
    (machine.perform operation).2.Pushless := by
  cases operation with
  | step => exact h.afterStep
  | cycle =>
      show machine.afterCycle.Pushless
      rw [afterCycle_eq]
      exact iterate_afterStep (fun before hBefore => hBefore.afterStep) h _
  | reset => exact h.reset
  | forcePhase code =>
      simp only [Machine.perform, forcePhase]
      cases Phase.ofCode? code with
      | some phase => exact { h with }
      | none => exact h.reset
  | setRegister register value => exact { h with }
  | writeData address value => exact { h with }
  | pushByte value => exact { h with }
  | popByte => exact { h with }

/-- A machine that runs a program without pushing instructions never comes to hold one. -/
theorem Reachable.pushless {program : Program} (h : machine.Reachable program)
    (hCells : ∀ address,
      (Reference.bytes (program.cell address)).opcode ≠ Opcode.push.code) : machine.Pushless := by
  obtain ⟨new, operations, hNew, rfl⟩ := h
  have hStart : new.Pushless := by
    have hRead : ∀ address,
        (Fields.split (new.program.read address)).opcode ≠ Opcode.push.code := by
      intro address
      rw [read_of_ofProgram hNew, ← Reference.bytes_eq_split]
      exact hCells address
    have hRegister : new.instructionRegister = 0 := by rw [eq_of_ofProgram hNew]
    have hFields : new.fields = {} := by rw [eq_of_ofProgram hNew]
    refine ⟨load_of_ofProgram hNew, hRead, ?_, ?_⟩
    · rw [hRegister]
      decide
    · rw [hFields]
      decide
  exact performAll_induction hStart fun before operation _ hBefore => hBefore.perform operation

/-! ## The control state -/

/-- Machines that agree in all that decides where they go on. -/
structure SameControl (first second : Machine) : Prop where
  phase : first.phase = second.phase
  pc : first.pc = second.pc
  mar : first.mar = second.mar
  instructionRegister : first.instructionRegister = second.instructionRegister
  fields : first.fields = second.fields
  cycles : first.cycles = second.cycles
  stack : first.stack = second.stack

/-- Machines with one control state and one program, which has no pushing instruction. -/
structure SamePath (first second : Machine) : Prop extends SameControl first second where
  program : first.program = second.program
  pushless : first.Pushless

theorem SameControl.eq_with (h : SameControl first second) :
    second = { first with
      status := second.status
      registers := second.registers
      data := second.data
      program := second.program } := by
  obtain ⟨hPhase, hPc, hMar, hRegister, hFields, hCycles, hStack⟩ := h
  simp only [hPhase, hPc, hMar, hRegister, hFields, hCycles, hStack]

/-- An instruction that does not push leaves one control state where it found one. -/
theorem SameControl.executed (h : SameControl first second) {instruction : Instruction}
    (hPush : instruction.opcode ≠ .push) :
    SameControl (first.executed instruction) (second.executed instruction) := by
  rw [h.eq_with]
  -- Only a push brings the contents of a register into the control state.
  cases instruction with
  | push register => exact absurd rfl hPush
  | _ => exact ⟨rfl, rfl, rfl, rfl, rfl, rfl, rfl⟩

theorem SamePath.reset (h : SamePath first second) : SamePath first.reset second.reset := by
  have hReset : first.reset = second.reset := by rw [Machine.reset, Machine.reset, h.program]
  rw [← hReset]
  exact ⟨⟨rfl, rfl, rfl, rfl, rfl, rfl, rfl⟩, rfl, h.pushless.reset⟩

/-- Machines with one control state make the same transition, and have one control state
after it. -/
theorem SamePath.step (h : SamePath first second) :
    first.step.1 = second.step.1 ∧ SamePath first.step.2 second.step.2 := by
  have hPushless : first.step.2.Pushless := h.pushless.afterStep
  cases hPhase : first.phase with
  | fetch =>
      have hWord : first.program.read first.pc = second.program.read second.pc := by
        rw [h.program, h.pc]
      rw [step_fetch hPhase] at hPushless ⊢
      rw [step_fetch (h.phase ▸ hPhase), ← hWord, h.pc]
      exact ⟨rfl,
        { h with
          phase := rfl
          pc := congrArg (· + 1) h.pc
          mar := h.pc
          instructionRegister := hWord
          pushless := hPushless }⟩
  | decode =>
      have hFields := congrArg Fields.split h.instructionRegister
      rw [step_decode hPhase] at hPushless ⊢
      rw [step_decode (h.phase ▸ hPhase), hFields]
      exact ⟨rfl, { h with phase := rfl, fields := hFields, pushless := hPushless }⟩
  | execute =>
      have hOther : second.phase = .execute := h.phase ▸ hPhase
      simp only [Machine.step, hPhase, hOther] at hPushless ⊢
      cases hFields : Instruction.ofFields first.fields with
      | ok instruction =>
          rw [execute_of_ok hFields] at hPushless ⊢
          rw [execute_of_ok (h.fields ▸ hFields)]
          refine ⟨rfl, h.toSameControl.executed (h.pushless.opcode_ne hFields), ?_, hPushless⟩
          simpa only [program_executed] using h.program
      | error reason =>
          rw [execute_of_error hFields, execute_of_error (h.fields ▸ hFields), h.fields, h.mar]
          exact ⟨rfl, h.reset⟩

theorem lockstep_samePath : Lockstep SamePath Eq where
  phase h := h.phase
  transition h := h.step.1
  afterStep h := h.step.2

theorem SamePath.perform (h : SamePath first second) (operation : Operation) :
    (first.perform operation).1 = (second.perform operation).1 ∧
      SamePath (first.perform operation).2 (second.perform operation).2 := by
  have hPushless := h.pushless.perform operation
  cases operation with
  | step => exact ⟨congrArg Report.moved h.step.1, h.step.2⟩
  | cycle =>
      obtain ⟨hLast, hAfter⟩ := lockstep_samePath.cycle h
      have hResult : some first.cycle.1 = some second.cycle.1 := by
        rw [← result_atExecute, ← result_atExecute, hLast]
      exact ⟨congrArg Report.cycled (Option.some.inj hResult), hAfter⟩
  | reset => exact ⟨rfl, h.reset⟩
  | forcePhase code =>
      simp only [Machine.perform, forcePhase]
      cases Phase.ofCode? code with
      | some phase => exact ⟨rfl, { h with phase := rfl, pushless := { h.pushless with } }⟩
      | none => exact ⟨rfl, h.reset⟩
  | setRegister register value => exact ⟨rfl, { h with pushless := hPushless }⟩
  | writeData address value => exact ⟨rfl, { h with pushless := hPushless }⟩
  | pushByte value =>
      exact ⟨rfl, { h with stack := congrArg (·.push value) h.stack, pushless := hPushless }⟩
  | popByte =>
      have hPopped : first.stack.popped = second.stack.popped := congrArg Stack.popped h.stack
      exact ⟨congrArg Report.popped hPopped,
        { h with stack := congrArg Stack.pop h.stack, pushless := hPushless }⟩

/-! ## Runs -/

/-- **Without pushing instructions, data decides nothing.**  Reachable machines for a
program that has none, with one control state and any registers and data memory, give the
same reports to the same operations, and have one control state after them. -/
theorem performAll_dataIndependent {program : Program}
    (hCells : ∀ address, (Reference.bytes (program.cell address)).opcode ≠ Opcode.push.code)
    (hFirst : first.Reachable program) (hSecond : second.Reachable program)
    (hControl : SameControl first second) (operations : List Operation) :
    (first.performAll operations).1 = (second.performAll operations).1 ∧
      SameControl (first.performAll operations).2 (second.performAll operations).2 := by
  obtain ⟨new, hNew, hFirstProgram⟩ := hFirst.program_eq
  obtain ⟨other, hOther, hSecondProgram⟩ := hSecond.program_eq
  have hSame : new = other := Except.ok.inj (hNew.symm.trans hOther)
  have hProgram : first.program = second.program := by
    rw [hFirstProgram, hSecondProgram, hSame]
  have hStart : SamePath first second := ⟨hControl, hProgram, hFirst.pushless hCells⟩
  obtain ⟨hReports, hEnd⟩ := performAll_related SamePath.perform hStart operations
  rw [List.forall₂_eq_eq_eq] at hReports
  exact ⟨hReports, hEnd.toSameControl⟩

/-- Call a subroutine that reads the pins into a register, saves it in the extended page
and returns; an unknown opcode follows the call. -/
def callingProgram : Program :=
  { words := [0x080200, 0x7F0000, 0x040103, 0x052001, 0x090000] }

def callingMachine : Machine := { program := ProgramMemory.load { image := callingProgram } }

set_option maxRecDepth 10000 in
/-- Other pins and another register change nothing in what is fetched, decoded and
executed, nor in the fault after the return. -/
theorem performAll_dataIndependent_callingProgram :
    let first := (callingMachine.performAll [.cycle, .writeData 3 7]).2
    let second := (callingMachine.performAll [.setRegister 9 200, .cycle]).2
    let operations : List Operation :=
      [.cycle, .step, .step, .forcePhase 0, .cycle, .cycle, .cycle, .cycle, .reset, .step]
    first ≠ second ∧ SameControl first second ∧
      (first.performAll operations).1 = (second.performAll operations).1 := by
  intro first second operations
  have hWords : (callingProgram.words.all fun word =>
      (Reference.bytes word).opcode ≠ Opcode.push.code) = true := by decide
  have hCells : ∀ address,
      (Reference.bytes (callingProgram.cell address)).opcode ≠ Opcode.push.code :=
    Program.forall_cell (by decide) hWords
  have hFirst : first.Reachable callingProgram := ⟨callingMachine, _, rfl, rfl⟩
  have hSecond : second.Reachable callingProgram := ⟨callingMachine, _, rfl, rfl⟩
  have hControl : SameControl first second := ⟨rfl, rfl, rfl, rfl, rfl, rfl, rfl⟩
  refine ⟨by decide, hControl, ?_⟩
  exact (performAll_dataIndependent hCells hFirst hSecond hControl operations).1

end Machine

end ControlUnit
