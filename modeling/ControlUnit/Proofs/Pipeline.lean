import ControlUnit.Proofs.Operation

/-!
# The pipeline

What the registers of the control unit say about each other.  The instruction register
holds the word at the memory address register, the program counter is one ahead of it
until the instruction takes effect, and the fields are those of the instruction
register once it has been decoded.  How much of this holds depends on the phase, so
the invariant (`Pipeline`) has a part for each phase.

A forced phase breaks the order of the phases and with it the invariant; every other
operation keeps it.  From the invariant follows what an executed instruction and a
fault have to do with the program: they are read off the word at the memory address
register.  The cycle counter is settled by the log alone, in any run.

## Main results

* `Machine.pipeline_step` — a transition keeps the invariant.
* `Machine.cycles_performAll` — the counter is the number of executed instructions
  since the last reset.
* `Machine.pipeline_performAll` — what holds in every state of a run without forced
  phases.
-/

namespace ControlUnit

/-! ## The invariant -/

namespace Machine

/-- The registers of the control unit are as they are after a reset. -/
def AsReset (machine : Machine) : Prop :=
  machine.instructionRegister = 0 ∧ machine.mar = 0 ∧ machine.pc = 0 ∧ machine.cycles = 0

/-- What the registers of the control unit say about each other in each phase. -/
def PhaseInvariant (program : Program) (machine : Machine) : Prop :=
  match machine.phase with
  | .fetch =>
    machine.fields = .split machine.instructionRegister ∧
      (machine.AsReset ∨
        machine.instructionRegister = program.cell machine.mar ∧ 0 < machine.cycles)
  | .decode =>
    machine.instructionRegister = program.cell machine.mar ∧ machine.pc = machine.mar + 1
  | .execute =>
    machine.instructionRegister = program.cell machine.mar ∧ machine.pc = machine.mar + 1 ∧
      machine.fields = .split machine.instructionRegister

/-- The program is in memory, the flags are clear, and the registers of the control unit
agree with the program. -/
structure Pipeline (program : Program) (machine : Machine) : Prop where
  loaded : machine.program.load = machine.program
  cells : ∀ address, machine.program.read address = program.cell address
  status : machine.status = {}
  phase : machine.PhaseInvariant program

variable {program : Program} {machine : Machine}

theorem pipeline_reset (hLoaded : machine.program.load = machine.program)
    (hCells : ∀ address, machine.program.read address = program.cell address) :
    machine.reset.Pipeline program := by
  have hFields : ({} : Fields) = .split 0 := by decide
  refine { loaded := ProgramMemory.load_load _, cells := ?_, status := rfl, phase := ?_ }
  · intro address
    show machine.program.load.read address = program.cell address
    rw [hLoaded, hCells]
  · exact ⟨hFields, .inl ⟨rfl, rfl, rfl, rfl⟩⟩

theorem pipeline_ofProgram {new : Machine} (hNew : ofProgram program = .ok new) :
    new.Pipeline program := by
  rw [← reset_ofProgram hNew]
  exact pipeline_reset (load_of_ofProgram hNew) (read_of_ofProgram hNew)

/-! ## What keeps the invariant -/

theorem pipeline_fetch (h : machine.Pipeline program) : machine.fetch.Pipeline program where
  loaded := h.loaded
  cells := h.cells
  status := h.status
  phase := ⟨h.cells machine.pc, rfl⟩

theorem pipeline_decode (hPhase : machine.phase = .decode) (h : machine.Pipeline program) :
    machine.decode.Pipeline program := by
  have hInvariant := h.phase
  simp only [PhaseInvariant, hPhase] at hInvariant
  exact
    { loaded := h.loaded
      cells := h.cells
      status := h.status
      phase := ⟨hInvariant.1, hInvariant.2, rfl⟩ }

/-- An executed instruction leaves the word and its fields in place, and has been
counted. -/
theorem pipeline_executed (hPhase : machine.phase = .execute) (h : machine.Pipeline program)
    (instruction : Instruction) : (machine.executed instruction).Pipeline program := by
  have hInvariant := h.phase
  simp only [PhaseInvariant, hPhase] at hInvariant
  obtain ⟨hWord, -, hFields⟩ := hInvariant
  have hPositive : 0 < machine.cycles + 1 := Nat.succ_pos _
  refine { loaded := ?_, cells := ?_, status := ?_, phase := ?_ }
  · simpa only [executed, apply_program] using h.loaded
  · simpa only [executed, apply_program] using h.cells
  · simpa only [executed, apply_status] using h.status
  · simp only [PhaseInvariant, executed, apply_fields, apply_instructionRegister, apply_mar]
    exact ⟨hFields, .inr ⟨hWord, hPositive⟩⟩

/-- A transition keeps the invariant. -/
theorem pipeline_step (h : machine.Pipeline program) : machine.afterStep.Pipeline program := by
  rw [afterStep]
  rcases step_cases machine with ⟨-, hStep⟩ | ⟨hPhase, hStep⟩ | ⟨instruction, hPhase, -, hStep⟩ |
      ⟨reason, -, -, hStep⟩
  · rw [hStep]
    exact pipeline_fetch h
  · rw [hStep]
    exact pipeline_decode hPhase h
  · rw [hStep]
    exact pipeline_executed hPhase h instruction
  · rw [hStep]
    exact pipeline_reset h.loaded h.cells

/-- A cycle keeps the invariant. -/
theorem pipeline_afterCycle (h : machine.Pipeline program) :
    machine.afterCycle.Pipeline program := by
  rw [afterCycle_eq]
  exact iterate_afterStep (fun _ hBefore => pipeline_step hBefore) h _

/-- Every operation but a forced phase keeps the invariant. -/
theorem pipeline_perform (h : machine.Pipeline program) {operation : Operation}
    (hFree : operation.isForced = false) : (machine.perform operation).2.Pipeline program := by
  cases operation with
  | step => exact pipeline_step h
  | cycle => exact pipeline_afterCycle h
  | reset => exact pipeline_reset h.loaded h.cells
  | forcePhase code => cases hFree
  -- A host writes registers, data and stack, of which the invariant does not speak.
  | setRegister register value => exact ⟨h.loaded, h.cells, h.status, h.phase⟩
  | writeData address value => exact ⟨h.loaded, h.cells, h.status, h.phase⟩
  | pushByte value => exact ⟨h.loaded, h.cells, h.status, h.phase⟩
  | popByte => exact ⟨h.loaded, h.cells, h.status, h.phase⟩

/-! ## What the log says -/

/-- The machines of a stretch of transitions have what every transition keeps. -/
theorem of_mem_transitions {motive : Machine → Prop}
    (hKeep : ∀ before, motive before → motive before.afterStep) {count : Nat}
    (hStart : motive machine) {before : Machine} {transition : Transition}
    (hMem : .transition before transition ∈ machine.transitions count) :
    motive before ∧ transition = before.step.1 := by
  induction count generalizing machine with
  | zero => simp [transitions] at hMem
  | succ count ih =>
      simp only [transitions, List.mem_cons, Event.transition.injEq] at hMem
      rcases hMem with ⟨rfl, rfl⟩ | hLater
      · exact ⟨hStart, rfl⟩
      · exact ih (hKeep machine hStart) hLater

/-- Every transition in the log of a run without forced phases was made by a machine in
order. -/
theorem pipeline_of_mem_logAll (h : machine.Pipeline program) {operations : List Operation}
    (hFree : ∀ operation ∈ operations, operation.isForced = false) {before : Machine}
    {transition : Transition}
    (hMem : .transition before transition ∈ machine.logAll operations) :
    before.Pipeline program ∧ transition = before.step.1 := by
  induction operations generalizing machine with
  | nil => simp [logAll] at hMem
  | cons operation rest ih =>
      rw [logAll, List.mem_append] at hMem
      rcases hMem with hHere | hLater
      · have hKeep : ∀ before : Machine, before.Pipeline program →
            before.afterStep.Pipeline program := fun _ hBefore => pipeline_step hBefore
        cases operation with
        | step => exact of_mem_transitions hKeep h hHere
        | cycle => exact of_mem_transitions hKeep h hHere
        | reset => simp [log] at hHere
        | forcePhase code => simpa [Operation.isForced] using hFree (.forcePhase code) (by simp)
        | setRegister register value => simp [log] at hHere
        | writeData address value => simp [log] at hHere
        | pushByte value => simp [log] at hHere
        | popByte => simp [log] at hHere
      · have hNext := pipeline_perform h (hFree operation (by simp))
        exact ih hNext (fun other hOther => hFree other (by simp [hOther])) hLater

/-- An executed instruction is the one at the memory address register. -/
theorem decode_of_executed (h : machine.Pipeline program) {instruction : Instruction}
    (hStep : machine.step.1 = .executed instruction) :
    Instruction.decode (program.cell machine.mar) = .ok instruction := by
  have hInvariant := h.phase
  rcases step_cases machine with ⟨-, hCase⟩ | ⟨-, hCase⟩ | ⟨found, hPhase, hFields, hCase⟩ |
      ⟨reason, -, -, hCase⟩
  · simp [hCase] at hStep
  · simp [hCase] at hStep
  · simp only [hCase, Transition.executed.injEq] at hStep
    subst hStep
    simp only [PhaseInvariant, hPhase] at hInvariant
    obtain ⟨hWord, -, hSplit⟩ := hInvariant
    rw [Instruction.decode, ← hWord, ← hSplit]
    exact hFields
  · simp [hCase] at hStep

/-- A fault tells the opcode at the memory address register, and that address. -/
theorem fault_of_recovered (h : machine.Pipeline program) {fault : Fault}
    (hStep : machine.step.1 = .recovered fault) :
    fault = .unknownOpcode (Fields.split (program.cell machine.mar)).opcode machine.mar := by
  have hInvariant := h.phase
  rcases step_cases machine with ⟨-, hCase⟩ | ⟨-, hCase⟩ | ⟨instruction, -, -, hCase⟩ |
      ⟨reason, hPhase, -, hCase⟩
  · simp [hCase] at hStep
  · simp [hCase] at hStep
  · simp [hCase] at hStep
  · simp only [hCase, Transition.recovered.injEq] at hStep
    simp only [PhaseInvariant, hPhase] at hInvariant
    obtain ⟨hWord, -, hSplit⟩ := hInvariant
    rw [← hStep, hSplit, hWord]

end Machine

/-! ## The cycle counter -/

/-- The number of executed instructions after one more event, since the last reset. -/
def Event.count (sofar : Nat) : Event → Nat
  | .transition _ (.fetched ..) => sofar
  | .transition _ (.decoded _) => sofar
  | .transition _ (.executed _) => sofar + 1
  | .transition _ (.recovered _) => 0
  | .reset => 0

/-- The number of executed instructions in a log since the last reset in it. -/
def executedSinceReset (log : List Event) : Nat := log.foldl Event.count 0

namespace Machine

variable {machine : Machine}

theorem cycles_afterStep (machine : Machine) :
    machine.afterStep.cycles = Event.count machine.cycles (.transition machine machine.step.1) := by
  rw [afterStep]
  rcases step_cases machine with ⟨-, hStep⟩ | ⟨-, hStep⟩ | ⟨instruction, -, -, hStep⟩ |
      ⟨reason, -, -, hStep⟩
  · rw [hStep]
    rfl
  · rw [hStep]
    rfl
  · rw [hStep]
    rfl
  · rw [hStep]
    rfl

theorem cycles_iterate_afterStep (machine : Machine) (count : Nat) :
    (afterStep^[count] machine).cycles
      = (machine.transitions count).foldl Event.count machine.cycles := by
  induction count generalizing machine with
  | zero => rfl
  | succ count ih =>
      rw [Function.iterate_succ_apply, ih, cycles_afterStep]
      rfl

theorem cycles_perform (machine : Machine) (operation : Operation) :
    (machine.perform operation).2.cycles
      = (machine.log operation).foldl Event.count machine.cycles := by
  cases operation with
  | step => exact cycles_iterate_afterStep machine 1
  | cycle =>
      show machine.afterCycle.cycles = _
      rw [afterCycle_eq, cycles_iterate_afterStep]
      rfl
  | reset => rfl
  | forcePhase code =>
      cases hPhase : Phase.ofCode? code with
      | none => simp [perform, forcePhase, log, hPhase, reset, Event.count]
      | some phase => simp [perform, forcePhase, log, hPhase]
  | setRegister register value => rfl
  | writeData address value => rfl
  | pushByte value => rfl
  | popByte => rfl

theorem cycles_performAll_eq_foldl (machine : Machine) (operations : List Operation) :
    (machine.performAll operations).2.cycles
      = (machine.logAll operations).foldl Event.count machine.cycles := by
  induction operations generalizing machine with
  | nil => rfl
  | cons operation rest ih =>
      rw [logAll, List.foldl_append, ← cycles_perform]
      exact ih (machine.perform operation).2

/-- The counter of a machine that was new is the number of executed instructions since
the last reset. -/
theorem cycles_performAll {program : Program} {new : Machine}
    (hNew : ofProgram program = .ok new) (operations : List Operation) :
    (new.performAll operations).2.cycles = executedSinceReset (new.logAll operations) := by
  have hCycles : new.cycles = 0 := by rw [eq_of_ofProgram hNew]
  rw [cycles_performAll_eq_foldl, hCycles, executedSinceReset]

/-! ## Every state of a run -/

/-- **The pipeline invariant**: in every state of a run without forced phases the
registers agree with the program as the phase says, every executed instruction and
every fault is that of the word at the memory address register, and the counter is the
number of executed instructions since the last reset. -/
theorem pipeline_performAll {program : Program} {new : Machine}
    (hNew : ofProgram program = .ok new) (operations : List Operation)
    (hFree : ∀ operation ∈ operations, operation.isForced = false) :
    (new.performAll operations).2.Pipeline program ∧
      (∀ before instruction,
        .transition before (.executed instruction) ∈ new.logAll operations →
          Instruction.decode (program.cell before.mar) = .ok instruction) ∧
      (∀ before fault,
        .transition before (.recovered fault) ∈ new.logAll operations →
          fault = .unknownOpcode (Fields.split (program.cell before.mar)).opcode before.mar) ∧
      (new.performAll operations).2.cycles = executedSinceReset (new.logAll operations) := by
  have hStart := pipeline_ofProgram hNew
  refine ⟨?_, ?_, ?_, cycles_performAll hNew operations⟩
  · apply performAll_induction hStart
    intro before operation hMem hBefore
    exact pipeline_perform hBefore (hFree operation hMem)
  · intro before instruction hMem
    obtain ⟨hBefore, hStep⟩ := pipeline_of_mem_logAll hStart hFree hMem
    exact decode_of_executed hBefore hStep.symm
  · intro before fault hMem
    obtain ⟨hBefore, hStep⟩ := pipeline_of_mem_logAll hStart hFree hMem
    exact fault_of_recovered hBefore hStep.symm

/-- A run with a fault in the middle, in which the host writes between transitions. -/
theorem pipeline_faultingMachine :
    let operations : List Operation :=
      [.cycle, .step, .setRegister 3 4, .step, .popByte, .step, .cycle, .cycle]
    (∀ operation ∈ operations, operation.isForced = false) ∧
      (faultingMachine.performAll operations).2.Pipeline faultingProgram := by
  intro operations
  have hFree : ∀ operation ∈ operations, operation.isForced = false := by decide
  exact ⟨hFree, (pipeline_performAll ofProgram_faultingProgram operations hFree).1⟩

end Machine

end ControlUnit
