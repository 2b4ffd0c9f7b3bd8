import ControlUnit.Proofs.CallFrame
import ControlUnit.Proofs.DataPages
import ControlUnit.Proofs.Pipeline
import ControlUnit.Proofs.Reference

/-!
# Where instructions are fetched from

The fetches in a log, by their addresses.  A machine fetches in the fetch phase and in no other,
so any three transitions in a row fetch once: at once from the program counter, or else from
where the cycle under way leaves it.

Behind a fetch the memory address register keeps its address until the next one.  A forced phase
can begin a cycle without a fetch; in a run without one, the register tells at the end of every
cycle where the instruction has been fetched from.

## Main results

* `Machine.fetchAddresses_cycle` — from where a cycle fetches.
* `Machine.fetchAddresses_three` — from where three transitions fetch.
* `Machine.tellsFetch_performAll` — after a run without forced phases the memory address register
  holds the address of the last fetch.
-/

namespace ControlUnit

/-- The address that an event fetches from, if it is a fetch. -/
def Event.fetchAddress? : Event → Option UInt8
  | .transition _ (.fetched address _) => some address
  | .transition _ (.decoded _) => none
  | .transition _ (.executed _) => none
  | .transition _ (.recovered _) => none
  | .reset => none

/-- The addresses of the fetches in a log, in order. -/
def fetchAddresses (log : List Event) : List UInt8 := log.filterMap Event.fetchAddress?

namespace Machine

variable {machine : Machine} {log : List Event}

/-! ## The fetches of a cycle -/

theorem phase_afterStep (machine : Machine) : machine.afterStep.phase = machine.phase.next := by
  rw [afterStep]
  rcases step_cases machine with ⟨hPhase, hStep⟩ | ⟨hPhase, hStep⟩ |
      ⟨instruction, hPhase, -, hStep⟩ | ⟨reason, hPhase, -, hStep⟩
  all_goals
    rw [hStep, hPhase]
    rfl

/-- A transition fetches from the program counter in the fetch phase, and in no other. -/
theorem fetchAddress?_step (machine : Machine) :
    Event.fetchAddress? (.transition machine machine.step.1)
      = if machine.phase = .fetch then some machine.pc else none := by
  rcases step_cases machine with ⟨hPhase, hStep⟩ | ⟨hPhase, hStep⟩ |
      ⟨instruction, hPhase, -, hStep⟩ | ⟨reason, hPhase, -, hStep⟩
  all_goals
    rw [hStep, hPhase]
    rfl

theorem fetchAddresses_succ (machine : Machine) (count : Nat) :
    fetchAddresses (machine.transitions (count + 1))
      = (if machine.phase = .fetch then [machine.pc] else [])
        ++ fetchAddresses (machine.afterStep.transitions count) := by
  have hStep := fetchAddress?_step machine
  by_cases hPhase : machine.phase = .fetch
  · rw [if_pos hPhase] at hStep ⊢
    exact List.filterMap_cons_some hStep
  · rw [if_neg hPhase] at hStep ⊢
    exact List.filterMap_cons_none hStep

/-- A cycle fetches if it begins in the fetch phase, and then once. -/
theorem fetchAddresses_cycle (machine : Machine) :
    fetchAddresses (machine.log .cycle)
      = if machine.phase = .fetch then [machine.pc] else [] := by
  have hNone : ∀ after : Machine, fetchAddresses (after.transitions 0) = [] := fun _ => rfl
  rw [Machine.log]
  cases hPhase : machine.phase <;>
    simp [Phase.transitionsLeft, fetchAddresses_succ, hNone, phase_afterStep, hPhase, Phase.next]

/-- Of any three transitions in a row one is a fetch: from the program counter in the fetch
phase, and else from where it is after the cycle under way. -/
theorem fetchAddresses_three (machine : Machine) :
    fetchAddresses (machine.transitions 3)
      = [if machine.phase = .fetch then machine.pc else machine.afterCycle.pc] := by
  have hNone : ∀ after : Machine, fetchAddresses (after.transitions 0) = [] := fun _ => rfl
  have hAfter : afterStep^[machine.phase.transitionsLeft] machine = machine.afterCycle :=
    (afterCycle_eq machine).symm
  have hBoundary := Reference.phase_afterCycle machine
  cases hPhase : machine.phase with
  | fetch =>
      have hCycle := fetchAddresses_cycle machine
      rwa [Machine.log, hPhase] at hCycle
  | decode =>
      rw [hPhase] at hAfter
      have hNext : machine.afterStep.afterStep = machine.afterCycle := hAfter
      simp [fetchAddresses_succ, hNone, phase_afterStep, hPhase, Phase.next, hNext, hBoundary]
  | execute =>
      rw [hPhase] at hAfter
      have hNext : machine.afterStep = machine.afterCycle := hAfter
      simp [fetchAddresses_succ, hNone, phase_afterStep, hPhase, Phase.next, hNext, hBoundary]

/-! ## The instruction under way -/

/-- Within a cycle the program counter is one ahead of the instruction under way. -/
theorem pc_of_ne_fetch {program : Program} (h : machine.Pipeline program)
    (hPhase : machine.phase ≠ .fetch) : machine.pc = machine.mar + 1 := by
  have hInvariant := h.phase
  cases hCase : machine.phase with
  | fetch => exact absurd hCase hPhase
  | decode =>
      simp only [PhaseInvariant, hCase] at hInvariant
      exact hInvariant.2
  | execute =>
      simp only [PhaseInvariant, hCase] at hInvariant
      exact hInvariant.2.1

/-- An executed instruction leaves the memory address register as it was fetched or found. -/
theorem mar_afterCycle {instruction : Instruction} (h : machine.cycle.1 = .ok instruction) :
    machine.afterCycle.mar = if machine.phase = .fetch then machine.pc else machine.mar := by
  rw [afterCycle_of_ok h]
  refine (apply_mar _).trans ?_
  rw [atExecute]
  cases machine.phase <;> rfl

/-- A cycle that executes an instruction leaves the address of its word in the memory address
register, if the registers agree with the program. -/
theorem decode_mar_afterCycle {program : Program} {instruction : Instruction}
    (hAfter : machine.afterCycle.Pipeline program) (h : machine.cycle.1 = .ok instruction) :
    Instruction.decode (program.cell machine.afterCycle.mar) = .ok instruction := by
  have hInvariant := hAfter.phase
  simp only [PhaseInvariant, Reference.phase_afterCycle] at hInvariant
  obtain ⟨hSplit, hWord⟩ := hInvariant
  have hExecuted := afterCycle_of_ok h
  have hPositive : machine.afterCycle.cycles ≠ 0 := by
    rw [hExecuted]
    exact Nat.succ_ne_zero _
  obtain ⟨hCell, -⟩ := hWord.resolve_left fun hReset => hPositive hReset.2.2.2
  have hFields : machine.afterCycle.fields = machine.atExecute.fields := by
    rw [hExecuted, fields_executed]
  rw [Instruction.decode, ← hCell, ← hSplit, hFields]
  rcases cycle_cases machine with ⟨found, hFound, hCycle⟩ | ⟨reason, -, hCycle⟩
  · rw [hCycle] at h
    rw [hFound, Except.ok.inj h]
  · rw [hCycle] at h
    cases h

/-! ## The last fetch of a run -/

/-- The memory address register holds the address of the last fetch in a log since the last reset
in it, unless none has been made. -/
def TellsFetch (machine : Machine) (log : List Event) : Prop :=
  latest Event.fetchAddress? log = some machine.mar ∨
    machine.phase = .fetch ∧ machine.cycles = 0

theorem tellsFetch_afterStep (h : machine.TellsFetch log) :
    machine.afterStep.TellsFetch (log ++ [.transition machine machine.step.1]) := by
  rw [TellsFetch, latest_concat, afterStep]
  rcases step_cases machine with ⟨-, hStep⟩ | ⟨hPhase, hStep⟩ | ⟨instruction, hPhase, -, hStep⟩ |
      ⟨reason, -, -, hStep⟩
  · rw [hStep]
    exact .inl rfl
  · have hBegun : machine.phase ≠ .fetch := by
      rw [hPhase]
      decide
    rw [hStep]
    exact .inl (h.resolve_right fun hStart => hBegun hStart.1)
  · have hBegun : machine.phase ≠ .fetch := by
      rw [hPhase]
      decide
    rw [hStep]
    refine .inl ((h.resolve_right fun hStart => hBegun hStart.1).trans ?_)
    exact congrArg some (apply_mar _).symm
  · rw [hStep]
    exact .inr ⟨rfl, rfl⟩

/-- An operation without events keeps what the register tells: it is a write by the host. -/
theorem tellsFetch_of_silent {operation : Operation} (hFree : operation.isForced = false)
    (hSilent : machine.log operation = []) (h : machine.TellsFetch log) :
    (machine.perform operation).2.TellsFetch log := by
  cases operation with
  | step => cases hSilent
  | cycle => exact absurd hSilent (log_cycle_ne_nil machine)
  | reset => cases hSilent
  | forcePhase code => cases hFree
  | setRegister register value => exact h
  | writeData address value => exact h
  | pushByte value => exact h
  | popByte => exact h

/-- In a run without forced phases the memory address register tells the last fetch. -/
theorem tellsFetch_performAll {program : Program} {new : Machine}
    (hNew : ofProgram program = .ok new) {operations : List Operation}
    (hFree : ∀ operation ∈ operations, operation.isForced = false) :
    (new.performAll operations).2.TellsFetch (new.logAll operations) := by
  have hStart : new.TellsFetch [] := by
    rw [eq_of_ofProgram hNew]
    exact .inr ⟨rfl, rfl⟩
  refine logAll_induction (motive := fun log machine => machine.TellsFetch log) hStart ?_ ?_ ?_
  · exact fun log before hBefore => tellsFetch_afterStep hBefore
  · exact fun log before _ => .inr ⟨rfl, rfl⟩
  · exact fun log before operation hMem hSilent hBefore =>
      tellsFetch_of_silent (hFree operation hMem) hSilent hBefore

/-- Where an instruction has been executed since the last reset, the register tells the last
fetch. -/
theorem TellsFetch.latest_eq (h : machine.TellsFetch log) (hPositive : 0 < machine.cycles) :
    latest Event.fetchAddress? log = some machine.mar :=
  h.resolve_right fun hStart => absurd hStart.2 (Nat.ne_of_gt hPositive)

end Machine

end ControlUnit
