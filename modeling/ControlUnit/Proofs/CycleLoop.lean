import ControlUnit.Proofs.Operation
import ControlUnit.Run
import ControlUnit.Session
import Mathlib.Data.Nat.Count

/-!
# Loops of cycles

Several loops run a machine cycle by cycle and count the faults: the run of a session, and
the run of the command line, which also records what happens and stops at breakpoints.
Each is described here by the cycles of its machine alone.  The number of faults is that
of the cycles that meet one (`Machine.faultCount`), and does not depend on the loop.

## Main results

* `Machine.afterCycle_of_meetsFault` — a cycle that meets a fault is a reset.
* `Session.runFrom_eq` — what the run of a session counts and where it ends.
* `Run.iterate_cycle` — how far a run has come after some cycles.
* `Run.continueFor_cases` — where a run ends, and what it records there.
-/

namespace ControlUnit

namespace Machine

/-- Whether the next cycle meets a fault. -/
def meetsFault (machine : Machine) : Bool :=
  match machine.cycle.1 with
  | .ok _ => false
  | .error _ => true

/-- The number of faults that some cycles meet. -/
def faultCount (machine : Machine) (count : Nat) : Nat :=
  Nat.count (fun index => (afterCycle^[index] machine).meetsFault = true) count

/-- The cycle with a number, counted from one, is the first that meets a fault. -/
structure FirstFault (machine : Machine) (number : Nat) : Prop where
  pos : 0 < number
  meets : (afterCycle^[number - 1] machine).meetsFault = true
  before : ∀ index, index + 1 < number → (afterCycle^[index] machine).meetsFault = false

set_option maxRecDepth 10000 in
/-- The program that faults does so in its third cycle. -/
theorem firstFault_faultingMachine : faultingMachine.FirstFault 3 := by
  refine ⟨by decide, by decide, fun index hIndex => ?_⟩
  have hSmall : index = 0 ∨ index = 1 := by omega
  rcases hSmall with rfl | rfl
  · decide
  · decide

variable {machine : Machine}

/-- A cycle meets a fault and is a reset, or executes one instruction. -/
theorem afterCycle_cases (machine : Machine) :
    (machine.meetsFault = true ∧ machine.afterCycle = machine.reset) ∨
    (∃ instruction, machine.meetsFault = false ∧
      machine.afterCycle = machine.atExecute.executed instruction) := by
  rw [meetsFault, afterCycle]
  rcases cycle_cases machine with ⟨instruction, -, hCycle⟩ | ⟨reason, -, hCycle⟩
  · rw [hCycle]
    exact .inr ⟨instruction, rfl, rfl⟩
  · rw [hCycle]
    exact .inl ⟨rfl, rfl⟩

/-- A cycle that meets a fault is a reset. -/
theorem afterCycle_of_meetsFault (h : machine.meetsFault = true) :
    machine.afterCycle = machine.reset := by
  rcases afterCycle_cases machine with ⟨-, hReset⟩ | ⟨instruction, hNone, -⟩
  · exact hReset
  · rw [h] at hNone
    cases hNone

/-- A cycle that meets no fault counts as one more. -/
theorem cycles_afterCycle (h : machine.meetsFault = false) :
    machine.afterCycle.cycles = machine.cycles + 1 := by
  have hBefore : machine.atExecute.cycles = machine.cycles := by
    rw [atExecute]
    cases machine.phase <;> rfl
  rcases afterCycle_cases machine with ⟨hMeets, -⟩ | ⟨instruction, -, hExecuted⟩
  · rw [h] at hMeets
    cases hMeets
  · rw [hExecuted, ← hBefore]
    rfl

/-- The number of faults, with the first cycle counted apart. -/
theorem faultCount_succ (machine : Machine) (count : Nat) :
    machine.faultCount (count + 1)
      = (if machine.meetsFault then 1 else 0) + machine.afterCycle.faultCount count := by
  rw [faultCount, Nat.count_succ', Nat.add_comm]
  rfl

end Machine

/-! ## The run of a session -/

/-- The run of a session counts the faults, and ends after all of its cycles. -/
theorem Session.runFrom_eq (faults count : Nat) (machine : Machine) :
    runFrom faults count machine
      = (faults + machine.faultCount count, Machine.afterCycle^[count] machine) := by
  induction count generalizing faults machine with
  | zero => rfl
  | succ count ih =>
      rw [Machine.faultCount_succ, Function.iterate_succ_apply, ← Nat.add_assoc, runFrom,
        Machine.meetsFault, Machine.afterCycle]
      rcases machine.cycle with ⟨result, next⟩
      cases result with
      | ok instruction => exact ih faults next
      | error fault => exact ih (faults + 1) next

/-! ## The run of the command line -/

namespace Run

/-- One cycle of a run, whatever it records. -/
theorem cycle_counts (trace : Bool) (run : Run) :
    (run.cycle trace).machine = run.machine.afterCycle ∧
      (run.cycle trace).cycles = run.cycles + 1 ∧
      (run.cycle trace).faults = run.faults + if run.machine.meetsFault then 1 else 0 := by
  rw [cycle, Machine.afterCycle, Machine.meetsFault]
  rcases run.machine.cycle with ⟨result, next⟩
  cases result with
  | ok instruction => cases trace <;> exact ⟨rfl, rfl, rfl⟩
  | error fault => exact ⟨rfl, rfl, rfl⟩

/-- How far a run has come after some cycles, whatever it records. -/
theorem iterate_cycle (trace : Bool) (run : Run) (count : Nat) :
    ((cycle trace)^[count] run).machine = Machine.afterCycle^[count] run.machine ∧
      ((cycle trace)^[count] run).cycles = run.cycles + count ∧
      ((cycle trace)^[count] run).faults = run.faults + run.machine.faultCount count := by
  induction count generalizing run with
  | zero => exact ⟨rfl, rfl, rfl⟩
  | succ count ih =>
      obtain ⟨hMachine, hCycles, hFaults⟩ := ih (run.cycle trace)
      obtain ⟨hNext, hOne, hFault⟩ := cycle_counts trace run
      rw [hNext] at hMachine hFaults
      simp only [Function.iterate_succ_apply]
      refine ⟨hMachine, ?_, ?_⟩
      · omega
      · rw [hFaults, hFault, Machine.faultCount_succ]
        omega

/-- No cycle records a breakpoint. -/
theorem breakpoint_mem_cycle {trace : Bool} {run : Run} {address : UInt8}
    (h : .breakpoint address ∈ (run.cycle trace).events) : .breakpoint address ∈ run.events := by
  rw [cycle] at h
  rcases hCycle : run.machine.cycle with ⟨result, next⟩
  rw [hCycle] at h
  cases result with
  | ok instruction =>
      cases trace with
      | false => exact h
      | true => simpa [record] using h
  | error fault => simpa [record] using h

/-- A run ends before the first cycle that would begin at a breakpoint, which it records,
or after all of its cycles. -/
theorem continueFor_cases (trace : Bool) (breakpoints : List UInt8) (limit : Nat) (run : Run) :
    ∃ count, (∀ index < count, ((cycle trace)^[index] run).atBreakpoint breakpoints = false) ∧
      (count = limit ∧ continueFor trace breakpoints limit run = (cycle trace)^[count] run ∨
        count < limit ∧ ((cycle trace)^[count] run).atBreakpoint breakpoints = true ∧
          continueFor trace breakpoints limit run = ((cycle trace)^[count] run).record
            (.breakpoint ((cycle trace)^[count] run).machine.pc)) := by
  induction limit generalizing run with
  | zero => exact ⟨0, fun index hIndex => absurd hIndex (Nat.not_lt_zero index), .inl ⟨rfl, rfl⟩⟩
  | succ limit ih =>
      rw [continueFor]
      by_cases hBreakpoint : run.atBreakpoint breakpoints = true
      · rw [if_pos hBreakpoint]
        refine ⟨0, fun index hIndex => absurd hIndex (Nat.not_lt_zero index), .inr ?_⟩
        exact ⟨Nat.succ_pos limit, hBreakpoint, rfl⟩
      · rw [if_neg hBreakpoint]
        obtain ⟨count, hFree, hEnd⟩ := ih (run.cycle trace)
        refine ⟨count + 1, ?_, ?_⟩
        · intro index hIndex
          cases index with
          | zero => exact Bool.eq_false_of_not_eq_true hBreakpoint
          | succ index => exact hFree index (Nat.lt_of_succ_lt_succ hIndex)
        · rcases hEnd with ⟨hCount, hRun⟩ | ⟨hCount, hAt, hRun⟩
          · exact .inl ⟨congrArg (· + 1) hCount, hRun⟩
          · exact .inr ⟨Nat.succ_lt_succ hCount, hAt, hRun⟩

/-- Nothing but a breakpoint ends a run early. -/
theorem continueFor_eq_iterate {trace : Bool} {breakpoints : List UInt8} {limit : Nat} {run : Run}
    (h : ∀ index < limit, ((cycle trace)^[index] run).atBreakpoint breakpoints = false) :
    continueFor trace breakpoints limit run = (cycle trace)^[limit] run := by
  obtain ⟨count, -, ⟨rfl, hRun⟩ | ⟨hCount, hAt, -⟩⟩ :=
    continueFor_cases trace breakpoints limit run
  · exact hRun
  · rw [h count hCount] at hAt
    cases hAt

/-- Without breakpoints a run has all of its cycles, and counts the faults they meet. -/
theorem ofMachine_of_no_breakpoints {settings : Settings} (h : settings.breakpoints = [])
    (machine : Machine) :
    (ofMachine settings machine).machine
        = Machine.afterCycle^[settings.maxCycles.toNat] machine ∧
      (ofMachine settings machine).cycles = settings.maxCycles.toNat ∧
      (ofMachine settings machine).faults = machine.faultCount settings.maxCycles.toNat := by
  obtain ⟨hMachine, hCycles, hFaults⟩ :=
    iterate_cycle settings.trace { machine := machine } settings.maxCycles.toNat
  have hFree : ∀ index < settings.maxCycles.toNat,
      ((cycle settings.trace)^[index] { machine := machine }).atBreakpoint [] = false :=
    fun index _ => Bool.and_false _
  rw [ofMachine, h, continueFor_eq_iterate hFree]
  exact ⟨hMachine, hCycles.trans (Nat.zero_add _), hFaults.trans (Nat.zero_add _)⟩

end Run

end ControlUnit
