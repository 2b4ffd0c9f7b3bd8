import ControlUnit.Machine
import Mathlib.Logic.Function.Iterate

/-!
# Operations on a machine

A host drives a machine by transitions, whole cycles, resets and forced phases, and
may write its registers, its data memory and its stack in between.  This module
names these operations, runs any sequence of them, and keeps the log of what went on
inside: every transition with the machine it started from, and every reset.

A transition has one of four outcomes (`step_cases`), and a cycle is the transitions
that its phase leaves to be made (`afterCycle_eq`), so what holds of one
transition extends to whole runs.

## Main results

* `Machine.step_cases` — everything a transition can do.
* `Machine.cycle_eq` — a cycle makes transitions until one of them ends it.
* `Machine.performAll_induction` — what every operation keeps holds after all of them.
* `Machine.program_performAll` — no sequence of operations changes a loaded program.
-/

namespace ControlUnit

/-! ## Operations and reports -/

/-- What a host can do to a machine. -/
inductive Operation where
  | step
  | cycle
  | reset
  | forcePhase (code : UInt8)
  | setRegister (register value : UInt8)
  | writeData (address : UInt16) (value : UInt8)
  | pushByte (value : UInt8)
  | popByte
  deriving DecidableEq, Repr

/-- What an operation reports to its host. -/
inductive Report where
  | nothing
  | moved (transition : Transition)
  | cycled (result : Except Fault Instruction)
  | forced (result : Except Fault Phase)
  | popped (byte : UInt8)
  deriving Repr

def Operation.isForced : Operation → Bool
  | .forcePhase _ => true
  | _ => false

/-- The result with which a transition ends a cycle, if it ends one. -/
def Transition.result? : Transition → Option (Except Fault Instruction)
  | .fetched .. => none
  | .decoded _ => none
  | .executed instruction => some (.ok instruction)
  | .recovered fault => some (.error fault)

/-- The number of transitions that a phase leaves to be made in its cycle. -/
def Phase.transitionsLeft : Phase → Nat
  | .fetch => 3
  | .decode => 2
  | .execute => 1

/-- The word that a program puts at an address, zero beyond its end. -/
def Program.cell (program : Program) (address : UInt8) : UInt32 :=
  (program.words[address.toNat]?).getD 0

/-- What can be checked of zero and of each word of a program holds of its cells. -/
theorem Program.forall_cell {motive : UInt32 → Prop} [DecidablePred motive] {program : Program}
    (hZero : motive 0) (hWords : program.words.all (fun word => motive word) = true)
    (address : UInt8) : motive (program.cell address) := by
  rw [cell]
  cases hWord : program.words[address.toNat]? with
  | none => exact hZero
  | some word =>
      have hChecked := List.all_eq_true.1 hWords word (List.mem_of_getElem? hWord)
      exact of_decide_eq_true hChecked

/-- What goes on inside a machine. -/
inductive Event where
  /-- A transition, and the machine that made it. -/
  | transition (before : Machine) (transition : Transition)
  /-- A reset by the host, or by a forced phase with an unknown code. -/
  | reset

/-- The result with which an event ends a cycle, if it ends one. -/
def Event.result? : Event → Option (Except Fault Instruction)
  | .transition _ made => made.result?
  | .reset => none

namespace Machine

def afterStep (machine : Machine) : Machine := machine.step.2

def afterCycle (machine : Machine) : Machine := machine.cycle.2

/-- The transitions of some steps, in order. -/
def transitions (machine : Machine) : Nat → List Event
  | 0 => []
  | count + 1 => .transition machine machine.step.1 :: machine.afterStep.transitions count

/-- Carry out one operation: its report, and the machine after it. -/
def perform (machine : Machine) : Operation → Report × Machine
  | .step => (.moved machine.step.1, machine.step.2)
  | .cycle => (.cycled machine.cycle.1, machine.cycle.2)
  | .reset => (.nothing, machine.reset)
  | .forcePhase code => (.forced (machine.forcePhase code).1, (machine.forcePhase code).2)
  | .setRegister register value => (.nothing, machine.setRegister register value)
  | .writeData address value => (.nothing, machine.writeData address value)
  | .pushByte value => (.nothing, machine.pushByte value)
  | .popByte => (.popped machine.popByte.1, machine.popByte.2)

/-- Carry out several operations in order. -/
def performAll (machine : Machine) : List Operation → List Report × Machine
  | [] => ([], machine)
  | operation :: rest =>
    let after := (machine.perform operation).2.performAll rest
    ((machine.perform operation).1 :: after.1, after.2)

/-- The events of one operation. -/
def log (machine : Machine) : Operation → List Event
  | .step => machine.transitions 1
  | .cycle => machine.transitions machine.phase.transitionsLeft
  | .reset => [.reset]
  | .forcePhase code => if (Phase.ofCode? code).isNone then [.reset] else []
  | .setRegister .. => []
  | .writeData .. => []
  | .pushByte _ => []
  | .popByte => []

/-- The events of several operations. -/
def logAll (machine : Machine) : List Operation → List Event
  | [] => []
  | operation :: rest => machine.log operation ++ (machine.perform operation).2.logAll rest

/-- Whether some host can bring a new machine for a program into this state. -/
def Reachable (program : Program) (machine : Machine) : Prop :=
  ∃ new operations, ofProgram program = .ok new ∧ (new.performAll operations).2 = machine

theorem performAll_append (machine : Machine) (first second : List Operation) :
    (machine.performAll (first ++ second)).2
      = ((machine.performAll first).2.performAll second).2 := by
  induction first generalizing machine with
  | nil => rfl
  | cons operation rest ih => exact ih (machine.perform operation).2

/-- What every operation of a sequence keeps, the whole sequence keeps. -/
theorem performAll_induction {motive : Machine → Prop} {machine : Machine}
    {operations : List Operation} (hStart : motive machine)
    (hKeep : ∀ before, ∀ operation ∈ operations, motive before →
      motive (before.perform operation).2) :
    motive (machine.performAll operations).2 := by
  induction operations generalizing machine with
  | nil => exact hStart
  | cons operation rest ih =>
      have hNext := hKeep machine operation (by simp) hStart
      exact ih hNext fun before other hMem => hKeep before other (by simp [hMem])

/-! ## One transition -/

variable {machine : Machine}

@[simp] theorem apply_instructionRegister (effect : Effect) :
    (machine.apply effect).instructionRegister = machine.instructionRegister := by
  cases effect <;> rfl

@[simp] theorem apply_mar (effect : Effect) : (machine.apply effect).mar = machine.mar := by
  cases effect <;> rfl

@[simp] theorem apply_status (effect : Effect) :
    (machine.apply effect).status = machine.status := by
  cases effect <;> rfl

@[simp] theorem apply_fields (effect : Effect) :
    (machine.apply effect).fields = machine.fields := by
  cases effect <;> rfl

@[simp] theorem apply_phase (effect : Effect) :
    (machine.apply effect).phase = machine.phase := by
  cases effect <;> rfl

@[simp] theorem apply_cycles (effect : Effect) :
    (machine.apply effect).cycles = machine.cycles := by
  cases effect <;> rfl

@[simp] theorem apply_program (effect : Effect) :
    (machine.apply effect).program = machine.program := by
  cases effect <;> rfl

/-- The machine after an instruction has taken effect. -/
def executed (machine : Machine) (instruction : Instruction) : Machine :=
  { machine.apply (instruction.effect machine.registers machine.data machine.pc) with
    cycles := machine.cycles + 1
    phase := .fetch }

@[simp] theorem instructionRegister_executed (instruction : Instruction) :
    (machine.executed instruction).instructionRegister = machine.instructionRegister :=
  apply_instructionRegister _

@[simp] theorem fields_executed (instruction : Instruction) :
    (machine.executed instruction).fields = machine.fields :=
  apply_fields _

@[simp] theorem program_executed (instruction : Instruction) :
    (machine.executed instruction).program = machine.program :=
  apply_program _

theorem execute_of_ok {instruction : Instruction}
    (h : Instruction.ofFields machine.fields = .ok instruction) :
    machine.execute = (.ok instruction, machine.executed instruction) := by
  simp only [execute, h, executed, apply_cycles]

theorem execute_of_error {reason : DecodeError}
    (h : Instruction.ofFields machine.fields = .error reason) :
    machine.execute
      = (.error (.unknownOpcode machine.fields.opcode machine.mar), machine.reset) := by
  simp only [execute, h]

/-- Everything a transition can do: it fetches, decodes, executes a known opcode, or
recovers from an unknown one. -/
theorem step_cases (machine : Machine) :
    (machine.phase = .fetch ∧
      machine.step = (.fetched machine.pc (machine.program.read machine.pc), machine.fetch)) ∨
    (machine.phase = .decode ∧
      machine.step = (.decoded (.split machine.instructionRegister), machine.decode)) ∨
    (∃ instruction, machine.phase = .execute ∧
      Instruction.ofFields machine.fields = .ok instruction ∧
      machine.step = (.executed instruction, machine.executed instruction)) ∨
    (∃ reason, machine.phase = .execute ∧
      Instruction.ofFields machine.fields = .error reason ∧
      machine.step
        = (.recovered (.unknownOpcode machine.fields.opcode machine.mar), machine.reset)) := by
  cases hPhase : machine.phase with
  | fetch => exact .inl ⟨rfl, step_fetch hPhase⟩
  | decode => exact .inr (.inl ⟨rfl, step_decode hPhase⟩)
  | execute =>
      cases hFields : Instruction.ofFields machine.fields with
      | ok instruction =>
          refine .inr (.inr (.inl ⟨instruction, rfl, rfl, ?_⟩))
          simp only [step, hPhase, execute_of_ok hFields]
      | error reason =>
          refine .inr (.inr (.inr ⟨reason, rfl, rfl, ?_⟩))
          simp only [step, hPhase, execute_of_error hFields]

/-! ## One cycle -/

def atExecute (machine : Machine) : Machine :=
  match machine.phase with
  | .fetch => machine.fetch.decode
  | .decode => machine.decode
  | .execute => machine

theorem cycle_eq_execute (machine : Machine) : machine.cycle = machine.atExecute.execute := by
  unfold cycle atExecute
  cases machine.phase <;> rfl

/-- Everything a cycle can do: it executes a known opcode, or recovers from an unknown
one. -/
theorem cycle_cases (machine : Machine) :
    (∃ instruction, Instruction.ofFields machine.atExecute.fields = .ok instruction ∧
      machine.cycle = (.ok instruction, machine.atExecute.executed instruction)) ∨
    (∃ reason, Instruction.ofFields machine.atExecute.fields = .error reason ∧
      machine.cycle
        = (.error (.unknownOpcode machine.atExecute.fields.opcode machine.atExecute.mar),
            machine.reset)) := by
  rw [cycle_eq_execute]
  cases hFields : Instruction.ofFields machine.atExecute.fields with
  | ok instruction => exact .inl ⟨instruction, rfl, execute_of_ok hFields⟩
  | error reason =>
      have hReset : machine.atExecute.reset = machine.reset := by
        unfold atExecute
        cases machine.phase <;> rfl
      refine .inr ⟨reason, rfl, ?_⟩
      rw [execute_of_error hFields, hReset]

/-- A cycle makes transitions until one of them ends it. -/
theorem cycle_eq (machine : Machine) :
    machine.cycle =
      match machine.step.1.result? with
      | some result => (result, machine.step.2)
      | none => machine.step.2.cycle := by
  rcases step_cases machine with
    ⟨hPhase, hStep⟩ | ⟨hPhase, hStep⟩ | ⟨instruction, hPhase, hFields, hStep⟩ |
      ⟨reason, hPhase, hFields, hStep⟩
  · rw [hStep]
    simp only [Transition.result?, cycle, hPhase, fetch]
  · rw [hStep]
    simp only [Transition.result?, cycle, hPhase, decode]
  · rw [hStep]
    simp only [Transition.result?, cycle, hPhase, execute_of_ok hFields]
  · rw [hStep]
    simp only [Transition.result?, cycle, hPhase, execute_of_error hFields]

theorem cycle_afterStep (h : machine.phase ≠ .execute) :
    machine.step.1.result? = none ∧ machine.afterStep.cycle = machine.cycle ∧
      machine.phase.transitionsLeft = machine.afterStep.phase.transitionsLeft + 1 := by
  have hCycle := cycle_eq machine
  rw [afterStep]
  rcases step_cases machine with
    ⟨hPhase, hStep⟩ | ⟨hPhase, hStep⟩ | ⟨instruction, hPhase, -⟩ | ⟨reason, hPhase, -⟩
  · rw [hStep] at hCycle ⊢
    rw [hPhase]
    exact ⟨rfl, hCycle.symm, rfl⟩
  · rw [hStep] at hCycle ⊢
    rw [hPhase]
    exact ⟨rfl, hCycle.symm, rfl⟩
  · exact absurd hPhase h
  · exact absurd hPhase h

theorem result_of_execute (h : machine.phase = .execute) :
    machine.step.1.result? = some machine.cycle.1 := by
  have hCycle := cycle_eq machine
  rcases step_cases machine with
    ⟨hPhase, -⟩ | ⟨hPhase, -⟩ | ⟨instruction, -, -, hStep⟩ | ⟨reason, -, -, hStep⟩
  · simp [h] at hPhase
  · simp [h] at hPhase
  · rw [hStep] at hCycle ⊢
    rw [hCycle]
    rfl
  · rw [hStep] at hCycle ⊢
    rw [hCycle]
    rfl

/-- None of the transitions of a cycle gives a result but for the last, which gives that
of the cycle. -/
theorem results_transitions {left : Nat} (h : machine.phase.transitionsLeft = left + 1) :
    (machine.transitions (left + 1)).map Event.result?
      = List.replicate left none ++ [some machine.cycle.1] := by
  induction left generalizing machine with
  | zero =>
      have hPhase : machine.phase = .execute := by
        cases hPhase : machine.phase with
        | fetch => simp [hPhase, Phase.transitionsLeft] at h
        | decode => simp [hPhase, Phase.transitionsLeft] at h
        | execute => rfl
      simp [transitions, Event.result?, result_of_execute hPhase]
  | succ left ih =>
      have hPhase : machine.phase ≠ .execute := by
        intro hPhase
        simp [hPhase, Phase.transitionsLeft] at h
      obtain ⟨hResult, hCycle, hLeft⟩ := cycle_afterStep hPhase
      rw [transitions, List.map_cons, ih (by omega), hCycle, List.replicate_succ]
      simp [Event.result?, hResult]

/-- A cycle has one result, the instruction executed or the fault met. -/
theorem results_log_cycle (machine : Machine) :
    (machine.log .cycle).filterMap Event.result? = [machine.cycle.1] := by
  obtain ⟨left, hLeft⟩ : ∃ left, machine.phase.transitionsLeft = left + 1 := by
    cases machine.phase <;> exact ⟨_, rfl⟩
  calc (machine.log .cycle).filterMap Event.result?
    _ = ((machine.transitions (left + 1)).map Event.result?).filterMap id := by
        rw [log, hLeft, List.filterMap_map]
        rfl
    _ = [machine.cycle.1] := by
        rw [results_transitions hLeft, List.filterMap_append]
        simp

/-- The transitions before the execute phase bring the machine to it. -/
theorem afterStep_iterate_eq_atExecute (machine : Machine) :
    afterStep^[machine.phase.transitionsLeft - 1] machine = machine.atExecute := by
  cases hPhase : machine.phase with
  | fetch =>
      have hFetch : machine.afterStep = machine.fetch := by rw [afterStep, step_fetch hPhase]
      have hDecode : machine.fetch.afterStep = machine.fetch.decode := by
        rw [afterStep, step_decode rfl]
      show machine.afterStep.afterStep = machine.atExecute
      rw [hFetch, hDecode, atExecute, hPhase]
  | decode =>
      have hDecode : machine.afterStep = machine.decode := by rw [afterStep, step_decode hPhase]
      show machine.afterStep = machine.atExecute
      rw [hDecode, atExecute, hPhase]
  | execute =>
      show machine = machine.atExecute
      rw [atExecute, hPhase]

@[simp] theorem phase_atExecute (machine : Machine) : machine.atExecute.phase = .execute := by
  cases hPhase : machine.phase <;> simp only [atExecute, hPhase, decode]

theorem cycle_atExecute (machine : Machine) : machine.atExecute.cycle = machine.cycle := by
  rw [cycle_eq_execute machine, cycle, phase_atExecute]

/-- The last transition of a cycle ends it. -/
theorem afterStep_atExecute (machine : Machine) :
    machine.atExecute.afterStep = machine.afterCycle := by
  rw [afterStep, step_execute (phase_atExecute machine), afterCycle, cycle_eq_execute]

/-- The last transition of a cycle gives its result. -/
theorem result_atExecute (machine : Machine) :
    machine.atExecute.step.1.result? = some machine.cycle.1 := by
  rw [result_of_execute (phase_atExecute machine), cycle_atExecute]

/-- A cycle is the transitions that its phase leaves to be made. -/
theorem afterCycle_eq (machine : Machine) :
    machine.afterCycle = afterStep^[machine.phase.transitionsLeft] machine := by
  have hLeft : machine.phase.transitionsLeft = machine.phase.transitionsLeft - 1 + 1 := by
    cases machine.phase <;> rfl
  rw [hLeft, Function.iterate_succ_apply', afterStep_iterate_eq_atExecute, afterStep_atExecute]

/-! ## The program in memory -/

/-- A new machine is cleared and holds its program. -/
theorem eq_of_ofProgram {program : Program} {new : Machine} (h : ofProgram program = .ok new) :
    new = { program := ProgramMemory.load { image := program } } := by
  rw [ofProgram, ProgramMemory.ofProgram] at h
  cases hCheck : program.check with
  | ok =>
      simp only [hCheck, Except.ok.injEq] at h
      exact h.symm
  | error reason => simp [hCheck] at h

/-- The cells of a new machine hold the words of its program, and zero beyond them. -/
theorem read_of_ofProgram {program : Program} {new : Machine}
    (h : ofProgram program = .ok new) (address : UInt8) :
    new.program.read address = program.cell address := by
  rw [eq_of_ofProgram h]
  have hEmpty : ProgramMemory.read { image := program } address = 0 := by
    rw [ProgramMemory.read]
    exact Vector.getElem_replicate address.toNat_lt
  rw [ProgramMemory.read_load rfl, hEmpty]
  rfl

theorem load_of_ofProgram {program : Program} {new : Machine}
    (h : ofProgram program = .ok new) : new.program.load = new.program := by
  rw [eq_of_ofProgram h]
  exact ProgramMemory.load_load _

theorem program_step (h : machine.program.load = machine.program) :
    machine.step.2.program = machine.program := by
  rcases step_cases machine with ⟨-, hStep⟩ | ⟨-, hStep⟩ | ⟨instruction, -, -, hStep⟩ |
      ⟨reason, -, -, hStep⟩
  · rw [hStep]
    rfl
  · rw [hStep]
    rfl
  · rw [hStep]
    exact apply_program _
  · rw [hStep]
    exact h

theorem iterate_afterStep {motive : Machine → Prop}
    (hKeep : ∀ before, motive before → motive before.afterStep) (hStart : motive machine)
    (count : Nat) : motive (afterStep^[count] machine) := by
  induction count with
  | zero => exact hStart
  | succ count ih =>
      rw [Function.iterate_succ_apply']
      exact hKeep _ ih

theorem program_cycle (h : machine.program.load = machine.program) :
    machine.cycle.2.program = machine.program := by
  have hKeep : ∀ before : Machine, before.program = machine.program →
      before.afterStep.program = machine.program := by
    intro before hBefore
    exact (program_step (by rw [hBefore, h])).trans hBefore
  have hAfter : machine.afterCycle.program = machine.program := by
    rw [afterCycle_eq]
    exact iterate_afterStep hKeep rfl _
  exact hAfter

theorem program_perform (h : machine.program.load = machine.program) (operation : Operation) :
    (machine.perform operation).2.program = machine.program := by
  cases operation with
  | step => exact program_step h
  | cycle => exact program_cycle h
  | reset => exact h
  | forcePhase code =>
      simp only [perform, forcePhase]
      split
      · rfl
      · exact h
  | setRegister register value => rfl
  | writeData address value => rfl
  | pushByte value => rfl
  | popByte => rfl

/-- No sequence of operations changes a loaded program. -/
theorem program_performAll (h : machine.program.load = machine.program)
    (operations : List Operation) :
    (machine.performAll operations).2.program = machine.program := by
  apply performAll_induction (motive := fun after => after.program = machine.program) rfl
  intro before operation _ hBefore
  exact (program_perform (by rw [hBefore, h]) operation).trans hBefore

/-- A reachable machine has the program memory of a new one, whose cells hold the
words of the program. -/
theorem Reachable.program_eq {program : Program} (h : machine.Reachable program) :
    ∃ new, ofProgram program = .ok new ∧ machine.program = new.program := by
  obtain ⟨new, operations, hNew, rfl⟩ := h
  exact ⟨new, hNew, program_performAll (load_of_ofProgram hNew) operations⟩

/-- A reset takes a machine with the program memory of a new one back to the new one. -/
theorem reset_eq_new {program : Program} {new : Machine} (hNew : ofProgram program = .ok new)
    (h : machine.program = new.program) : machine.reset = new := by
  rw [← reset_ofProgram hNew, reset, reset, h]

end Machine

/-! ## A program that faults -/

/-- Load a register, save it, and meet an opcode that encodes nothing. -/
def faultingProgram : Program := { words := [0x011F07, 0x0A1F00, 0x7F1234] }

/-- The new machine for the program that faults. -/
def faultingMachine : Machine := { program := ProgramMemory.load { image := faultingProgram } }

theorem ofProgram_faultingProgram : Machine.ofProgram faultingProgram = .ok faultingMachine := rfl

end ControlUnit
