import ControlUnit.Debugger
import ControlUnit.Proofs.CycleLoop

/-!
# The debugger and the run of the command line

Both run a machine cycle by cycle and stop at breakpoints, each in its own way.  A tick of
the debugger looks for a breakpoint unless the machine has executed nothing since its last
reset; the run looks for one unless it has made no cycle.  The debugger pauses at a fault,
and the run goes on.

As long as there is no fault the two counters are equal, so a debugger and a run that
start together keep in step (`Debugger.InStep`), find the same breakpoint and stop there
together.  At the first fault the machine is reset and its counter with it: this is where
the two would part, and where the debugger pauses.

## Main results

* `Debugger.InStep.cycle` — a cycle without a fault keeps them in step.
* `Debugger.InStep.tick_of_breakpoint`, `Debugger.InStep.tick_of_fault` — how the debugger
  pauses.
* `Debugger.ticks_agree_with_run` — what ticks and a run have in common.
-/

namespace ControlUnit

/-- Some cycles of a run, none of which begins at a breakpoint or meets a fault. -/
structure Run.Clear (trace : Bool) (breakpoints : List UInt8) (limit : Nat) (run : Run) : Prop where
  breakpoint : ∀ index < limit, ((cycle trace)^[index] run).atBreakpoint breakpoints = false
  fault : ∀ index < limit, (Machine.afterCycle^[index] run.machine).meetsFault = false

namespace Debugger

/-- A running debugger and a run that have come equally far, and met no breakpoint. -/
structure InStep (breakpoints : List UInt8) (debugger : Debugger) (run : Run) : Prop where
  running : debugger.running = true
  machine : debugger.machine = run.machine
  breakpoints : ∀ address, address ∈ debugger.breakpoints ↔ address ∈ breakpoints
  cycles : run.machine.cycles = run.cycles
  status : ∀ address, debugger.status ≠ .stopped address
  events : ∀ address, .breakpoint address ∉ run.events

/-- Whether a tick runs a cycle. -/
def runsCycle (debugger : Debugger) : Bool := debugger.running && !debugger.atBreakpoint

/-- The number of cycles that some ticks run. -/
def cyclesIn (debugger : Debugger) (count : Nat) : Nat :=
  Nat.count (fun index => (tick^[index] debugger).runsCycle = true) count

variable {trace : Bool} {breakpoints : List UInt8} {limit : Nat} {debugger : Debugger} {run : Run}

theorem ticks_eq_iterate (count : Nat) (debugger : Debugger) :
    ticks count debugger = tick^[count] debugger := by
  induction count generalizing debugger with
  | zero => rfl
  | succ count ih =>
      rw [ticks, Function.iterate_succ_apply]
      exact ih debugger.tick

/-- Ticks do nothing to a debugger that is paused. -/
theorem iterate_tick_of_paused (h : debugger.running = false) (count : Nat) :
    tick^[count] debugger = debugger := by
  have hTick : debugger.tick = debugger := by
    rw [tick, h]
    rfl
  exact Function.iterate_fixed hTick count

/-! ## One cycle -/

theorem machine_stepCycle (debugger : Debugger) :
    debugger.stepCycle.machine = debugger.machine.afterCycle := by
  rw [stepCycle, Machine.afterCycle]
  rcases debugger.machine.cycle with ⟨result, next⟩
  cases result <;> rfl

/-- A fault pauses the debugger. -/
theorem running_stepCycle (debugger : Debugger) :
    debugger.stepCycle.running = (debugger.running && !debugger.machine.meetsFault) := by
  rw [stepCycle, Machine.meetsFault]
  rcases debugger.machine.cycle with ⟨result, next⟩
  cases result with
  | ok instruction => exact (Bool.and_true debugger.running).symm
  | error fault => exact (Bool.and_false debugger.running).symm

theorem breakpoints_stepCycle (debugger : Debugger) :
    debugger.stepCycle.breakpoints = debugger.breakpoints := by
  rw [stepCycle]
  rcases debugger.machine.cycle with ⟨result, next⟩
  cases result <;> rfl

/-- Only at a breakpoint does the debugger report that it has stopped. -/
theorem status_stepCycle_ne (debugger : Debugger) (address : UInt8) :
    debugger.stepCycle.status ≠ .stopped address := by
  rw [stepCycle]
  rcases debugger.machine.cycle with ⟨result, next⟩
  cases result with
  | ok instruction => exact DebuggerStatus.noConfusion
  | error fault => exact DebuggerStatus.noConfusion

/-! ## One tick -/

/-- Both find the same breakpoint. -/
theorem InStep.atBreakpoint (h : InStep breakpoints debugger run) :
    debugger.atBreakpoint = run.atBreakpoint breakpoints := by
  have hContains : debugger.breakpoints.contains run.machine.pc
      = breakpoints.contains run.machine.pc := by
    rw [Bool.eq_iff_iff, List.contains_iff_mem, List.contains_iff_mem]
    exact h.breakpoints run.machine.pc
  rw [Debugger.atBreakpoint, Run.atBreakpoint, h.machine, h.cycles, hContains, Bool.and_comm]

/-- A tick without a breakpoint runs a cycle. -/
theorem InStep.tick_eq (h : InStep breakpoints debugger run)
    (hBreakpoint : run.atBreakpoint breakpoints = false) :
    debugger.tick = debugger.stepCycle := by
  rw [Debugger.tick, if_pos h.running, h.atBreakpoint, hBreakpoint]
  rfl

/-- A cycle without a fault keeps a debugger and a run in step. -/
theorem InStep.cycle (h : InStep breakpoints debugger run) (trace : Bool)
    (hBreakpoint : run.atBreakpoint breakpoints = false)
    (hFault : run.machine.meetsFault = false) :
    InStep breakpoints debugger.tick (run.cycle trace) := by
  obtain ⟨hMachine, hCycles, -⟩ := Run.cycle_counts trace run
  have hEvents : ∀ address, .breakpoint address ∉ (run.cycle trace).events :=
    fun address hMem => h.events address (Run.breakpoint_mem_cycle hMem)
  have hCounter : (run.cycle trace).machine.cycles = (run.cycle trace).cycles := by
    rw [hMachine, hCycles, Machine.cycles_afterCycle hFault, h.cycles]
  rw [h.tick_eq hBreakpoint]
  exact
    { running := by rw [running_stepCycle, h.running, h.machine, hFault]; rfl
      machine := by rw [machine_stepCycle, h.machine, hMachine]
      breakpoints := by rw [breakpoints_stepCycle]; exact h.breakpoints
      cycles := hCounter
      status := status_stepCycle_ne debugger
      events := hEvents }

/-- At a breakpoint the debugger pauses. -/
theorem InStep.tick_of_breakpoint (h : InStep breakpoints debugger run)
    (hBreakpoint : run.atBreakpoint breakpoints = true) :
    debugger.tick.running = false ∧ debugger.tick.machine = run.machine ∧
      debugger.tick.status = .stopped run.machine.pc := by
  rw [Debugger.tick, if_pos h.running, h.atBreakpoint, if_pos hBreakpoint, h.machine]
  exact ⟨rfl, rfl, rfl⟩

/-- At a fault the debugger pauses, with the machine that the fault leaves. -/
theorem InStep.tick_of_fault (h : InStep breakpoints debugger run)
    (hBreakpoint : run.atBreakpoint breakpoints = false)
    (hFault : run.machine.meetsFault = true) :
    debugger.tick.running = false ∧ debugger.tick.machine = run.machine.afterCycle := by
  rw [h.tick_eq hBreakpoint, running_stepCycle, machine_stepCycle, h.machine, hFault]
  exact ⟨Bool.and_false debugger.running, rfl⟩

/-! ## Ticks -/

/-- As long as there is neither a breakpoint nor a fault, a debugger and a run keep in
step. -/
theorem InStep.iterate (h : InStep breakpoints debugger run)
    (hClear : run.Clear trace breakpoints limit) : ∀ count ≤ limit,
      InStep breakpoints (tick^[count] debugger) ((Run.cycle trace)^[count] run) := by
  intro count hCount
  induction count with
  | zero => exact h
  | succ count ih =>
      have hBefore := ih (Nat.le_of_succ_le hCount)
      rw [Function.iterate_succ_apply', Function.iterate_succ_apply']
      apply hBefore.cycle trace (hClear.breakpoint count hCount)
      rw [(Run.iterate_cycle trace run count).1]
      exact hClear.fault count hCount

/-- Once a debugger is paused, the ticks that follow change nothing. -/
theorem iterate_tick_of_le {count later : Nat} (hPaused : (tick^[count] debugger).running = false)
    (hLater : count ≤ later) : tick^[later] debugger = tick^[count] debugger := by
  have hSplit : later = later - count + count := by omega
  rw [hSplit, Function.iterate_add_apply]
  exact iterate_tick_of_paused hPaused _

/-- Every tick that meets neither a breakpoint nor a fault runs a cycle. -/
theorem InStep.cyclesIn_of_clear (h : InStep breakpoints debugger run)
    (hClear : run.Clear trace breakpoints limit) : debugger.cyclesIn limit = limit := by
  apply Nat.count_of_forall
  intro index hIndex
  have hIn := h.iterate hClear index (Nat.le_of_lt hIndex)
  rw [runsCycle, hIn.running, hIn.atBreakpoint, hClear.breakpoint index hIndex]
  rfl

/-- No tick runs a cycle from the one that meets a breakpoint on. -/
theorem InStep.cyclesIn_of_breakpoint {last : Nat} (h : InStep breakpoints debugger run)
    (hClear : run.Clear trace breakpoints last) (hLast : last < limit)
    (hAt : ((Run.cycle trace)^[last] run).atBreakpoint breakpoints = true) :
    debugger.cyclesIn limit = last := by
  have hAtLast := h.iterate hClear last (Nat.le_refl last)
  have hPaused := (hAtLast.tick_of_breakpoint hAt).1
  rw [← Function.iterate_succ_apply' tick] at hPaused
  -- The tick that stops runs no cycle, and neither do the ticks of a paused debugger.
  have hAfter : Nat.count (fun index => (tick^[last + index] debugger).runsCycle = true)
      (limit - last) = 0 := by
    apply Nat.count_of_forall_not
    intro index _
    cases index with
    | zero =>
        rw [Nat.add_zero, runsCycle, hAtLast.atBreakpoint, hAt, Bool.not_true, Bool.and_false]
        exact Bool.false_ne_true
    | succ index =>
        rw [iterate_tick_of_le hPaused (by omega), runsCycle, hPaused]
        exact Bool.false_ne_true
  have hSplit : limit = last + (limit - last) := by omega
  calc
    debugger.cyclesIn limit = debugger.cyclesIn last + 0 := by
      rw [cyclesIn, hSplit, Nat.count_add, hAfter]
      rfl
    _ = last := h.cyclesIn_of_clear hClear

/-- Some ticks of a debugger have done what a run has done: as many cycles, with the same
machine in the end, and a stop at the same breakpoint or at none. -/
structure Agree (debugger : Debugger) (limit : Nat) (run : Run) : Prop where
  cycles : debugger.cyclesIn limit = run.cycles
  machine : (ticks limit debugger).machine = run.machine
  stopped : ∀ address,
    (∃ count ≤ limit, (ticks count debugger).status = .stopped address) ↔
      .breakpoint address ∈ run.events

/-- Ticks that meet neither a breakpoint nor a fault do what a run of as many cycles does. -/
theorem InStep.agree_of_clear (h : InStep breakpoints debugger run) (hStart : run.cycles = 0)
    (hClear : run.Clear trace breakpoints limit) :
    Agree debugger limit ((Run.cycle trace)^[limit] run) := by
  have hKeep := h.iterate hClear
  constructor
  · rw [(Run.iterate_cycle trace run limit).2.1, hStart, Nat.zero_add]
    exact h.cyclesIn_of_clear hClear
  · rw [ticks_eq_iterate]
    exact (hKeep limit (Nat.le_refl limit)).machine
  · intro address
    constructor
    · rintro ⟨count, hCount, hStatus⟩
      rw [ticks_eq_iterate] at hStatus
      exact absurd hStatus ((hKeep count hCount).status address)
    · intro hEvent
      exact absurd hEvent ((hKeep limit (Nat.le_refl limit)).events address)

/-- Ticks that meet a breakpoint before any fault do what a run does that ends there. -/
theorem InStep.agree_of_breakpoint {last : Nat} (h : InStep breakpoints debugger run)
    (hStart : run.cycles = 0) (hClear : run.Clear trace breakpoints last) (hLast : last < limit)
    (hAt : ((Run.cycle trace)^[last] run).atBreakpoint breakpoints = true) :
    Agree debugger limit (((Run.cycle trace)^[last] run).record
      (.breakpoint ((Run.cycle trace)^[last] run).machine.pc)) := by
  have hKeep := h.iterate hClear
  have hAtLast := hKeep last (Nat.le_refl last)
  obtain ⟨hPaused, hMachine, hStopped⟩ := hAtLast.tick_of_breakpoint hAt
  rw [← Function.iterate_succ_apply' tick] at hPaused hMachine hStopped
  constructor
  · show debugger.cyclesIn limit = ((Run.cycle trace)^[last] run).cycles
    rw [(Run.iterate_cycle trace run last).2.1, hStart, Nat.zero_add]
    exact h.cyclesIn_of_breakpoint hClear hLast hAt
  · rw [ticks_eq_iterate, iterate_tick_of_le hPaused hLast]
    exact hMachine
  · intro address
    simp only [ticks_eq_iterate, Run.record, Array.mem_push, RunEvent.breakpoint.injEq]
    constructor
    · rintro ⟨count, -, hStatus⟩
      by_cases hCount : count ≤ last
      · exact absurd hStatus ((hKeep count hCount).status address)
      · rw [iterate_tick_of_le hPaused (by omega), hStopped] at hStatus
        exact .inr (DebuggerStatus.stopped.inj hStatus).symm
    · rintro (hEvent | rfl)
      · exact absurd hEvent (hAtLast.events address)
      · exact ⟨last + 1, hLast, hStopped⟩

/-- Ticks that meet a fault before any breakpoint leave the machine that a run leaves, up to
the cycle that meets it, and the debugger paused. -/
theorem InStep.paused_of_fault {number : Nat} (h : InStep breakpoints debugger run)
    (hBreakpoint : ∀ index < number,
      ((Run.cycle trace)^[index] run).atBreakpoint breakpoints = false)
    (hFirst : run.machine.FirstFault number) :
    (∀ count ≤ number,
      (tick^[count] debugger).machine = ((Run.cycle trace)^[count] run).machine) ∧
      ∀ count ≥ number, (tick^[count] debugger).running = false := by
  obtain ⟨last, rfl⟩ := Nat.exists_eq_succ_of_ne_zero (Nat.ne_of_gt hFirst.pos)
  have hClear : run.Clear trace breakpoints last :=
    ⟨fun index hIndex => hBreakpoint index (Nat.lt_succ_of_lt hIndex),
      fun index hIndex => hFirst.before index (Nat.succ_lt_succ hIndex)⟩
  have hKeep := h.iterate hClear
  have hMeets : ((Run.cycle trace)^[last] run).machine.meetsFault = true := by
    rw [(Run.iterate_cycle trace run last).1]
    exact hFirst.meets
  obtain ⟨hPaused, hMachine⟩ := (hKeep last (Nat.le_refl last)).tick_of_fault
    (hBreakpoint last (Nat.lt_succ_self last)) hMeets
  rw [← Function.iterate_succ_apply' tick] at hPaused hMachine
  constructor
  · intro count hCount
    by_cases hLast : count ≤ last
    · exact (hKeep count hLast).machine
    · have hEnd : count = last + 1 := by omega
      rw [hEnd, hMachine, Function.iterate_succ_apply' (Run.cycle trace)]
      exact (Run.cycle_counts trace _).1.symm
  · intro count hCount
    rw [iterate_tick_of_le hPaused hCount]
    exact hPaused

/-! ## A run of the debugger -/

/-- A debugger that has just been made and told to run is in step with a run that has just
begun. -/
theorem inStep_of_ofProgram {program : Program} {new : Machine}
    (hNew : Machine.ofProgram program = .ok new) {shown : List UInt8}
    (hShown : ∀ address, address ∈ shown ↔ address ∈ breakpoints) :
    InStep breakpoints { machine := new, breakpoints := shown : Debugger }.run
      { machine := new } := by
  have hCycles : new.cycles = 0 := by rw [Machine.eq_of_ofProgram hNew]
  refine ⟨rfl, rfl, hShown, hCycles, ?_, fun address hEvent => ?_⟩
  · intro address hStatus
    cases hStatus
  · exact absurd hEvent (Array.not_mem_empty _)

theorem eq_of_ofProgram {program : Program} {new : Machine} {fresh : Debugger}
    (hNew : Machine.ofProgram program = .ok new) (hFresh : ofProgram program = .ok fresh) :
    fresh = { machine := new } := by
  rw [ofProgram, hNew] at hFresh
  exact (Except.ok.inj hFresh).symm

/-- **The debugger and the run of the command line agree.**  A new debugger is told to run
and ticks as often as a run of the new machine may make cycles, both with the same
breakpoints.  If the cycles of the run meet no fault, the ticks run as many cycles, leave
the same machine, and stop at a breakpoint exactly if the run does.  If they meet one, both
have the same machine after each cycle up to the first that does, and from then on the
debugger is paused. -/
theorem ticks_agree_with_run {program : Program} {new : Machine} {fresh : Debugger}
    (hNew : Machine.ofProgram program = .ok new) (hFresh : ofProgram program = .ok fresh)
    (settings : Settings) {shown : List UInt8}
    (hShown : ∀ address, address ∈ shown ↔ address ∈ settings.breakpoints) :
    let start := { fresh with breakpoints := shown }.run
    let run := Run.ofMachine settings new
    ((∀ index < run.cycles, (Machine.afterCycle^[index] new).meetsFault = false) →
      start.Agree settings.maxCycles.toNat run) ∧
    ∀ number ≤ run.cycles, new.FirstFault number →
      (∀ count ≤ number, (ticks count start).machine
        = (Run.continueFor settings.trace settings.breakpoints count { machine := new }).machine) ∧
      ∀ count ≥ number, (ticks count start).running = false := by
  obtain rfl := eq_of_ofProgram hNew hFresh
  intro start run
  -- The run has `last` cycles, none of which begins at a breakpoint.
  have hStart : InStep settings.breakpoints start { machine := new } :=
    inStep_of_ofProgram hNew hShown
  obtain ⟨last, hFree, hEnd⟩ := Run.continueFor_cases settings.trace settings.breakpoints
    settings.maxCycles.toNat { machine := new }
  have hIterate : ((Run.cycle settings.trace)^[last] { machine := new }).cycles = last :=
    (Run.iterate_cycle settings.trace { machine := new } last).2.1.trans (Nat.zero_add last)
  have hCycles : run.cycles = last := by
    rcases hEnd with ⟨-, hRun⟩ | ⟨-, -, hRun⟩
    · exact (congrArg Run.cycles hRun).trans hIterate
    · exact (congrArg Run.cycles hRun).trans hIterate
  constructor
  · intro hFault
    rw [hCycles] at hFault
    have hClear : Run.Clear settings.trace settings.breakpoints last { machine := new } :=
      ⟨hFree, hFault⟩
    show start.Agree settings.maxCycles.toNat (Run.continueFor _ _ _ _)
    rcases hEnd with ⟨hLast, hRun⟩ | ⟨hLast, hAt, hRun⟩
    · rw [hRun, ← hLast]
      exact hStart.agree_of_clear rfl hClear
    · rw [hRun]
      exact hStart.agree_of_breakpoint rfl hClear hLast hAt
  · intro number hNumber hFirst
    have hBefore : ∀ index < number, ((Run.cycle settings.trace)^[index]
        { machine := new }).atBreakpoint settings.breakpoints = false :=
      fun index hIndex => hFree index (by omega)
    obtain ⟨hMachine, hPaused⟩ := hStart.paused_of_fault hBefore hFirst
    constructor
    · intro count hCount
      rw [ticks_eq_iterate, hMachine count hCount, Run.continueFor_eq_iterate]
      exact fun index hIndex => hBefore index (by omega)
    · intro count hCount
      rw [ticks_eq_iterate]
      exact hPaused count hCount

set_option maxRecDepth 10000 in
/-- With a breakpoint before the instruction that faults, ten ticks stop there after two
cycles, as the run does.  Without one, the debugger is paused by the third cycle, and the
run goes on. -/
theorem ticks_agree_with_run_faultingProgram :
    let stopping : Settings := { maxCycles := 10, breakpoints := [2] }
    let going : Settings := { maxCycles := 10 }
    let debugger (shown : List UInt8) : Debugger :=
      { machine := faultingMachine, breakpoints := shown : Debugger }.run
    (debugger [2]).Agree 10 (Run.ofMachine stopping faultingMachine) ∧
      (Run.ofMachine stopping faultingMachine).events = #[.breakpoint 2] ∧
      (Run.ofMachine going faultingMachine).faults = 3 ∧
      (ticks 3 (debugger [])).machine
        = (Run.continueFor false [] 3 { machine := faultingMachine }).machine ∧
      (ticks 10 (debugger [])).running = false := by
  intro stopping going debugger
  have hFresh : ofProgram faultingProgram = .ok { machine := faultingMachine } := rfl
  have hFirst : faultingMachine.FirstFault 3 := Machine.firstFault_faultingMachine
  have hCycles : (Run.ofMachine stopping faultingMachine).cycles = 2 := by decide
  have hNone : ∀ index < (Run.ofMachine stopping faultingMachine).cycles,
      (Machine.afterCycle^[index] faultingMachine).meetsFault = false := by
    intro index hIndex
    exact hFirst.before index (by omega)
  obtain ⟨hAgree, -⟩ := ticks_agree_with_run ofProgram_faultingProgram hFresh stopping
    (fun address => Iff.rfl)
  obtain ⟨-, hFault⟩ := ticks_agree_with_run ofProgram_faultingProgram hFresh going
    (fun address => Iff.rfl)
  obtain ⟨hMachine, hPaused⟩ := hFault 3 (by decide) hFirst
  exact ⟨hAgree hNone, by decide, by decide, hMachine 3 (Nat.le_refl 3), hPaused 10 (by decide)⟩

end Debugger

end ControlUnit
