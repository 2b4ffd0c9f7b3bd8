import ControlUnit.Proofs.DebuggerCommand

/-!
# Breakpoints

A tick does not fetch from a breakpoint.  It looks at the program counter before it runs a cycle,
and only where an instruction has been executed since the last reset; where none has been, a
cycle that begins with a fetch begins at address zero, because the registers are in order.  A
cycle that does not begin with a fetch has none.

So the exception is a breakpoint at address zero, right after a reset: without it a debugger with
such a breakpoint could not be run at all.

## Main results

* `Machine.eq_of_fetch_mem_transitions` — only the first transition of a cycle can be a fetch.
* `Machine.pc_of_start` — before the first instruction a fetch is from address zero.
* `Debugger.tick_respects_breakpoints` — what a tick does after any commands.
-/

namespace ControlUnit

/-- Whether an event is the execution of an instruction. -/
def Event.completes (event : Event) : Bool := event.result?.any Except.isOk

namespace Machine

variable {machine before : Machine}

/-! ## The transitions of a cycle -/

theorem of_step_eq_fetched {address : UInt8} {word : UInt32}
    (h : machine.step.1 = .fetched address word) :
    machine.phase = .fetch ∧ address = machine.pc := by
  rcases step_cases machine with ⟨hPhase, hStep⟩ | ⟨-, hStep⟩ | ⟨instruction, -, -, hStep⟩ |
      ⟨reason, -, -, hStep⟩
  · rw [hStep] at h
    cases h
    exact ⟨hPhase, rfl⟩
  · simp [hStep] at h
  · simp [hStep] at h
  · simp [hStep] at h

/-- Only the first transition of a cycle can be a fetch: the others leave fewer to be made. -/
theorem eq_of_fetch_mem_transitions {count : Nat} (hCount : count ≤ machine.phase.transitionsLeft)
    {made : Transition} (hMem : .transition before made ∈ machine.transitions count)
    (hPhase : before.phase = .fetch) : before = machine := by
  induction count generalizing machine with
  | zero => simp [transitions] at hMem
  | succ count ih =>
      simp only [transitions, List.mem_cons, Event.transition.injEq] at hMem
      rcases hMem with ⟨rfl, -⟩ | hLater
      · rfl
      · by_cases hExecute : machine.phase = .execute
        · -- The last transition of a cycle has none behind it.
          rw [hExecute, Phase.transitionsLeft] at hCount
          obtain rfl : count = 0 := by omega
          simp [transitions] at hLater
        · obtain ⟨-, -, hLeft⟩ := cycle_afterStep hExecute
          obtain rfl := ih (by omega) hLater
          have hMost : machine.phase.transitionsLeft ≤ 3 := by cases machine.phase <;> decide
          rw [hPhase, Phase.transitionsLeft] at hLeft
          omega

/-- A cycle executes one instruction or none: it has only one result. -/
theorem countP_completes_log_cycle (machine : Machine) :
    (machine.log .cycle).countP Event.completes ≤ 1 := by
  calc (machine.log .cycle).countP Event.completes
    _ = ((machine.log .cycle).filterMap Event.result?).countP Except.isOk := by
        rw [List.countP_filterMap]
        refine List.countP_congr fun event _ => ?_
        rw [Event.completes]
        cases event.result? <;> rfl
    _ = [machine.cycle.1].countP Except.isOk := by rw [results_log_cycle]
    _ ≤ 1 := List.countP_le_length

/-- Before the first instruction after a reset a fetch is from address zero. -/
theorem pc_of_start {program : Program} (h : machine.Pipeline program)
    (hPhase : machine.phase = .fetch) (hCycles : machine.cycles = 0) : machine.pc = 0 := by
  have hInvariant := h.phase
  simp only [PhaseInvariant, hPhase] at hInvariant
  rcases hInvariant.2 with hReset | ⟨-, hPositive⟩
  · exact hReset.2.2.1
  · omega

end Machine

namespace Debugger

variable {debugger : Debugger}

/-! ## One tick -/

/-- A tick makes the transitions of a cycle, or none. -/
theorem log_tick (debugger : Debugger) :
    debugger.log .tick = if debugger.runsCycle then debugger.machine.log .cycle else [] := by
  rw [log, operation?]
  split
  · exact List.append_nil _
  · rfl

/-- The transitions of a tick lead to the machine after it. -/
theorem exists_transitions_tick (debugger : Debugger) :
    ∃ count, debugger.log .tick = debugger.machine.transitions count ∧
      debugger.tick.machine = Machine.afterStep^[count] debugger.machine := by
  rw [log_tick, machine_tick]
  split
  · exact ⟨_, rfl, Machine.afterCycle_eq debugger.machine⟩
  · exact ⟨0, rfl, rfl⟩

/-- A tick of a running debugger stops at a breakpoint, and then does nothing else, or runs a
cycle. -/
theorem tick_of_running (h : debugger.running = true) :
    (debugger.atBreakpoint = true ∧
      debugger.tick
        = { debugger with running := false, status := .stopped debugger.machine.pc }) ∨
    (debugger.runsCycle = true ∧ debugger.tick = debugger.stepCycle) := by
  rw [tick, runsCycle, h]
  cases debugger.atBreakpoint
  · exact .inr ⟨rfl, rfl⟩
  · exact .inl ⟨rfl, rfl⟩

/-! ## Ticks after any commands -/

/-- **Breakpoints**: after any commands to a new debugger without forced phases, a tick makes the
transitions of its log and no others.  None of them is a fetch from a breakpoint, except from
address zero where no instruction has been executed since the last reset; and at most one of
them executes an instruction.  A running debugger whose tick stops at a breakpoint is paused
there with its machine unchanged, and one whose tick does not stop runs a cycle. -/
theorem tick_respects_breakpoints {program : Program} {fresh : Debugger}
    (hFresh : ofProgram program = .ok fresh) {commands : List Command}
    (hFree : ∀ command ∈ commands, command.isForced = false) :
    let debugger := fresh.performAll commands
    (∃ count, debugger.log .tick = debugger.machine.transitions count ∧
      debugger.tick.machine = Machine.afterStep^[count] debugger.machine) ∧
    (∀ before address word, .transition before (.fetched address word) ∈ debugger.log .tick →
      address ∈ debugger.breakpoints →
        address = 0 ∧ executedSinceReset (fresh.logAll commands) = 0) ∧
    (debugger.log .tick).countP Event.completes ≤ 1 ∧
    (debugger.running = true → ∀ address, debugger.tick.status = .stopped address →
      address ∈ debugger.breakpoints ∧ debugger.tick.running = false ∧
        debugger.tick.machine = debugger.machine) ∧
    (debugger.running = true → (∀ address, debugger.tick.status ≠ .stopped address) →
      debugger.log .tick = debugger.machine.log .cycle) := by
  intro debugger
  have hPipeline : debugger.machine.Pipeline program := pipeline_machine hFresh hFree
  have hCycles : debugger.machine.cycles = executedSinceReset (fresh.logAll commands) :=
    cycles_machine hFresh commands
  have hTick := log_tick debugger
  refine ⟨exists_transitions_tick debugger, ?_, ?_, ?_, ?_⟩
  · intro before address word hMem hBreakpoint
    by_cases hRuns : debugger.runsCycle = true
    · rw [hTick, if_pos hRuns] at hMem
      obtain ⟨-, hMade⟩ :=
        Machine.of_mem_transitions (motive := fun _ => True) (fun _ _ => trivial) trivial hMem
      obtain ⟨hPhase, hAddress⟩ := Machine.of_step_eq_fetched hMade.symm
      obtain rfl := Machine.eq_of_fetch_mem_transitions (Nat.le_refl _) hMem hPhase
      -- A tick that fetches has passed the breakpoint, so the counter is zero.
      have hZero : debugger.machine.cycles = 0 := by
        rw [hAddress] at hBreakpoint
        have hPassed : debugger.running = true ∧ debugger.machine.cycles = 0 := by
          simpa [runsCycle, atBreakpoint, hBreakpoint] using hRuns
        exact hPassed.2
      exact ⟨hAddress.trans (Machine.pc_of_start hPipeline hPhase hZero), hCycles ▸ hZero⟩
    · rw [hTick, if_neg hRuns] at hMem
      cases hMem
  · rw [hTick]
    split
    · exact Machine.countP_completes_log_cycle debugger.machine
    · exact Nat.zero_le 1
  · intro hRunning address hStopped
    rcases tick_of_running hRunning with ⟨hAt, hPaused⟩ | ⟨-, hCycle⟩
    · rw [hPaused] at hStopped
      cases hStopped
      rw [atBreakpoint, Bool.and_eq_true, List.contains_iff_mem] at hAt
      rw [hPaused]
      exact ⟨hAt.1, rfl, rfl⟩
    · rw [hCycle] at hStopped
      exact absurd hStopped (status_stepCycle_ne debugger address)
  · intro hRunning hNot
    rcases tick_of_running hRunning with ⟨-, hPaused⟩ | ⟨hRuns, -⟩
    · exact absurd (by rw [hPaused]) (hNot debugger.machine.pc)
    · rw [hTick, if_pos hRuns]

set_option maxRecDepth 10000 in
/-- With breakpoints at zero and one, a run from a reset passes the first and stops at the
second. -/
theorem tick_respects_breakpoints_faultingProgram :
    let fresh : Debugger := { machine := faultingMachine }
    let start : List Command :=
      [.toggleBreakpoint, .stepCycle, .toggleBreakpoint, .reset, .run]
    let first := fresh.performAll start
    let second := fresh.performAll (start ++ [.tick])
    (first.breakpoints.contains 0 ∧ first.log .tick ≠ [] ∧
      (first.log .tick).countP Event.completes ≤ 1) ∧
    second.breakpoints.contains 1 ∧ second.log .tick = [] ∧
      second.tick.running = false ∧ second.tick.machine = second.machine := by
  intro fresh start first second
  have hFresh : ofProgram faultingProgram = .ok fresh := rfl
  have hStart : ∀ command ∈ start, command.isForced = false := by decide
  have hMore : ∀ command ∈ start ++ [.tick], command.isForced = false := by decide
  obtain ⟨-, -, hOnce, -, -⟩ := tick_respects_breakpoints hFresh hStart
  obtain ⟨-, -, -, hStops, -⟩ := tick_respects_breakpoints hFresh hMore
  obtain ⟨hSet, hPaused, hSame⟩ := hStops (by decide) 1 (by decide)
  exact ⟨⟨by decide, by decide, hOnce⟩, by simpa using hSet, by decide, hPaused, hSame⟩

end Debugger

end ControlUnit
