import ControlUnit.Proofs.DebuggerRun
import ControlUnit.Proofs.Pipeline
import ControlUnit.Proofs.Reference

/-!
# Commands to a debugger

A person drives a debugger by commands, and a host may write into its machine in between.  A
command comes down to at most one operation on the machine (`Debugger.operation?`): a tick, for
example, to a cycle or to none.  So the machine of a debugger is always one that operations have
led to, and what is known of these is known of it.

The log of a debugger is that of the operations on its machine.

## Main results

* `Debugger.machine_performAll` — the machine after some commands is that after their operations.
* `Debugger.pipeline_machine` — without forced phases its registers are in order.
* `Debugger.cycles_machine` — its counter is the number of executed instructions since the last
  reset.
* `Debugger.phase_performAll` — only single transitions and forced phases leave it within a cycle.
-/

namespace ControlUnit.Debugger

/-! ## Commands -/

/-- What can be done to a debugger, and by a host to its machine. -/
inductive Command where
  | stepPhase
  | stepCycle
  | run
  | tick
  | toggleBreakpoint
  | forcePhase (code : UInt8)
  | reset
  | setRegister (register value : UInt8)
  | writeData (address : UInt16) (value : UInt8)
  | pushByte (value : UInt8)
  deriving DecidableEq, Repr

def Command.isForced : Command → Bool
  | .forcePhase _ => true
  | _ => false

/-- The debugger after one command. -/
def perform (debugger : Debugger) : Command → Debugger
  | .stepPhase => debugger.stepPhase
  | .stepCycle => debugger.stepCycle
  | .run => debugger.run
  | .tick => debugger.tick
  | .toggleBreakpoint => debugger.toggleBreakpoint
  | .forcePhase code => debugger.forcePhase code
  | .reset => debugger.reset
  | .setRegister register value =>
    { debugger with machine := debugger.machine.setRegister register value }
  | .writeData address value =>
    { debugger with machine := debugger.machine.writeData address value }
  | .pushByte value => { debugger with machine := debugger.machine.pushByte value }

/-- The debugger after several commands in order. -/
def performAll (debugger : Debugger) : List Command → Debugger
  | [] => debugger
  | command :: rest => (debugger.perform command).performAll rest

/-! ## Operations on the machine -/

/-- The operation on the machine that a command comes down to, if it does anything to it. -/
def operation? (debugger : Debugger) : Command → Option Operation
  | .stepPhase => some .step
  | .stepCycle => some .cycle
  | .run => none
  | .tick => if debugger.runsCycle then some .cycle else none
  | .toggleBreakpoint => none
  | .forcePhase code => some (.forcePhase code)
  | .reset => some .reset
  | .setRegister register value => some (.setRegister register value)
  | .writeData address value => some (.writeData address value)
  | .pushByte value => some (.pushByte value)

/-- The operations that several commands come down to, in order. -/
def operations (debugger : Debugger) : List Command → List Operation
  | [] => []
  | command :: rest =>
    (debugger.operation? command).toList ++ (debugger.perform command).operations rest

/-- The events in the machine during one command. -/
def log (debugger : Debugger) (command : Command) : List Event :=
  debugger.machine.logAll (debugger.operation? command).toList

/-- The events in the machine during several commands. -/
def logAll (debugger : Debugger) (commands : List Command) : List Event :=
  debugger.machine.logAll (debugger.operations commands)

variable {debugger : Debugger}

theorem machine_stepPhase (debugger : Debugger) :
    debugger.stepPhase.machine = debugger.machine.afterStep := rfl

/-- A tick runs a cycle, or leaves the machine as it is. -/
theorem machine_tick (debugger : Debugger) :
    debugger.tick.machine
      = if debugger.runsCycle then debugger.machine.afterCycle else debugger.machine := by
  rw [tick, runsCycle, ← machine_stepCycle]
  cases debugger.running <;> cases debugger.atBreakpoint <;> rfl

theorem machine_forcePhase (debugger : Debugger) (code : UInt8) :
    (debugger.forcePhase code).machine = (debugger.machine.forcePhase code).2 := by
  rw [forcePhase]
  rcases debugger.machine.forcePhase code with ⟨result, next⟩
  cases result <;> rfl

/-- The machine after a command is that after its operation. -/
theorem machine_perform (debugger : Debugger) (command : Command) :
    (debugger.perform command).machine
      = (debugger.machine.performAll (debugger.operation? command).toList).2 := by
  cases command with
  | stepPhase => exact machine_stepPhase debugger
  | stepCycle => exact machine_stepCycle debugger
  | run => rfl
  | tick =>
      rw [perform, machine_tick, operation?]
      cases debugger.runsCycle <;> rfl
  | toggleBreakpoint => rfl
  | forcePhase code => exact machine_forcePhase debugger code
  | reset => rfl
  | setRegister register value => rfl
  | writeData address value => rfl
  | pushByte value => rfl

/-- The machine after several commands is that after their operations. -/
theorem machine_performAll (debugger : Debugger) (commands : List Command) :
    (debugger.performAll commands).machine
      = (debugger.machine.performAll (debugger.operations commands)).2 := by
  induction commands generalizing debugger with
  | nil => rfl
  | cons command rest ih =>
      rw [performAll, ih, operations, Machine.performAll_append, ← machine_perform]

theorem performAll_append (debugger : Debugger) (first second : List Command) :
    debugger.performAll (first ++ second) = (debugger.performAll first).performAll second := by
  induction first generalizing debugger with
  | nil => rfl
  | cons command rest ih => exact ih (debugger.perform command)

/-- Only a forced phase comes down to one. -/
theorem isForced_of_operation? {command : Command} {operation : Operation}
    (h : debugger.operation? command = some operation) :
    operation.isForced = command.isForced := by
  cases command with
  | run => cases h
  | toggleBreakpoint => cases h
  | tick =>
      rw [operation?, Option.ite_none_right_eq_some] at h
      obtain ⟨-, hCycle⟩ := h
      cases hCycle
      rfl
  | stepPhase | stepCycle | reset =>
      cases h
      rfl
  | forcePhase code | pushByte code =>
      cases h
      rfl
  | setRegister place value | writeData place value =>
      cases h
      rfl

theorem isForced_of_mem_operations {commands : List Command}
    (hFree : ∀ command ∈ commands, command.isForced = false) :
    ∀ operation ∈ debugger.operations commands, operation.isForced = false := by
  induction commands generalizing debugger with
  | nil => simp [operations]
  | cons command rest ih =>
      intro operation hMem
      rw [operations, List.mem_append, Option.mem_toList] at hMem
      rcases hMem with hHere | hLater
      · exact (isForced_of_operation? hHere).trans (hFree command List.mem_cons_self)
      · exact ih (fun other hOther => hFree other (List.mem_cons_of_mem _ hOther)) operation hLater

/-! ## The machine of a debugger -/

section Commands

variable {program : Program} {fresh : Debugger} (hFresh : ofProgram program = .ok fresh)

include hFresh

theorem machine_of_ofProgram : Machine.ofProgram program = .ok fresh.machine := by
  rw [ofProgram] at hFresh
  cases hNew : Machine.ofProgram program with
  | ok new =>
      rw [hNew] at hFresh
      cases hFresh
      rfl
  | error reason => simp [hNew] at hFresh

/-- Without forced phases the registers of the machine agree with the program. -/
theorem pipeline_machine {commands : List Command}
    (hFree : ∀ command ∈ commands, command.isForced = false) :
    (fresh.performAll commands).machine.Pipeline program := by
  rw [machine_performAll]
  apply Machine.performAll_induction
    (Machine.pipeline_ofProgram (machine_of_ofProgram hFresh))
  intro before operation hMem hBefore
  exact Machine.pipeline_perform hBefore (isForced_of_mem_operations hFree operation hMem)

/-- No commands change what program memory holds. -/
theorem read_machine (commands : List Command) (address : UInt8) :
    (fresh.performAll commands).machine.program.read address = program.cell address := by
  have hNew := machine_of_ofProgram hFresh
  rw [machine_performAll, Machine.program_performAll (Machine.load_of_ofProgram hNew)]
  exact Machine.read_of_ofProgram hNew address

/-- The counter of the machine is the number of executed instructions since the last reset. -/
theorem cycles_machine (commands : List Command) :
    (fresh.performAll commands).machine.cycles = executedSinceReset (fresh.logAll commands) := by
  rw [machine_performAll]
  exact Machine.cycles_performAll (machine_of_ofProgram hFresh) _

end Commands

/-! ## Between two cycles -/

/-- Whether a command leads a machine from between two cycles to between two cycles. -/
def Command.isWhole : Command → Bool
  | .stepPhase => false
  | .forcePhase _ => false
  | _ => true

theorem phase_perform {command : Command} (hPhase : debugger.machine.phase = .fetch)
    (hWhole : command.isWhole = true) : (debugger.perform command).machine.phase = .fetch := by
  cases command with
  | stepPhase => cases hWhole
  | forcePhase code => cases hWhole
  | stepCycle =>
      rw [perform, machine_stepCycle]
      exact Reference.phase_afterCycle _
  | tick =>
      rw [perform, machine_tick]
      split
      · exact Reference.phase_afterCycle _
      · exact hPhase
  | reset => rfl
  | run => exact hPhase
  | toggleBreakpoint => exact hPhase
  | setRegister register value => exact hPhase
  | writeData address value => exact hPhase
  | pushByte value => exact hPhase

/-- A machine that has been between two cycles still is, if no single transition was made since
and no phase forced. -/
theorem phase_performAll {before after : List Command}
    (hPhase : (debugger.performAll before).machine.phase = .fetch)
    (hWhole : ∀ command ∈ after, command.isWhole = true) :
    (debugger.performAll (before ++ after)).machine.phase = .fetch := by
  rw [performAll_append]
  generalize debugger.performAll before = start at hPhase ⊢
  induction after generalizing start with
  | nil => exact hPhase
  | cons command rest ih =>
      have hNext := phase_perform hPhase (hWhole command List.mem_cons_self)
      exact ih (fun other hOther => hWhole other (List.mem_cons_of_mem _ hOther)) _ hNext

end ControlUnit.Debugger
