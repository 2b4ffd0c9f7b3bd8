import ControlUnit.Proofs.Breakpoint
import ControlUnit.Proofs.FetchAddress

/-!
# Stops at breakpoints

A tick compares the program counter with the breakpoints and looks at no phase.  Between two
cycles the counter is where the next instruction is fetched from, so a stop there holds the
instruction back.  Within a cycle it is already behind the instruction under way, which may still
take it elsewhere: a stop there need not hold back the next instruction.  Only single transitions
and forced phases leave a machine within a cycle.

A tick passes the breakpoint where no instruction has been executed since the last reset, and
does not know where a run was started.  So a run that is started again at the breakpoint where it
has stopped stops there again, as long as the breakpoint is set.

## Main results

* `Debugger.next_fetch_of_stop` — what a stop says about the next fetch.
* `Debugger.resume_after_stop` — where a run that is started makes progress.
-/

namespace ControlUnit

namespace Debugger

variable {debugger : Debugger}

/-! ## Where a tick stops -/

theorem atBreakpoint_iff : debugger.atBreakpoint = true ↔
    debugger.machine.pc ∈ debugger.breakpoints ∧ 0 < debugger.machine.cycles := by
  rw [atBreakpoint, Bool.and_eq_true, List.contains_iff_mem, decide_eq_true_eq]

/-- A tick that reports a stop has found the program counter at a breakpoint, and done nothing but
pause. -/
theorem tick_of_stop (hRunning : debugger.running = true) {address : UInt8}
    (hStop : debugger.tick.status = .stopped address) :
    debugger.machine.pc = address ∧ debugger.atBreakpoint = true ∧
      debugger.tick = { debugger with running := false, status := .stopped address } := by
  rcases tick_of_running hRunning with ⟨hAt, hTick⟩ | ⟨-, hTick⟩
  · rw [hTick] at hStop
    cases hStop
    exact ⟨rfl, hAt, hTick⟩
  · rw [hTick] at hStop
    exact absurd hStop (status_stepCycle_ne debugger address)

/-- **What a stop holds back.**  A tick of a running debugger that stops at an address leaves the
machine as it is, with the program counter there, and pauses.  The next fetch is from this address
if the machine is between two cycles, and else from where the cycle under way leaves the counter.
It is between two cycles if no single transition was made and no phase forced since it last was;
without forced phases, a stop elsewhere is one behind the instruction under way. -/
theorem next_fetch_of_stop {program : Program} {fresh : Debugger}
    (hFresh : ofProgram program = .ok fresh) {commands : List Command} {address : UInt8}
    (hRunning : (fresh.performAll commands).running = true)
    (hStop : (fresh.performAll commands).tick.status = .stopped address) :
    let debugger := fresh.performAll commands
    let stopped := debugger.tick
    (address ∈ debugger.breakpoints ∧ stopped.running = false ∧
      stopped.machine = debugger.machine ∧ stopped.machine.pc = address) ∧
    fetchAddresses (stopped.machine.transitions 3)
      = [if stopped.machine.phase = .fetch then address else stopped.machine.afterCycle.pc] ∧
    (∀ before after, commands = before ++ after →
      (fresh.performAll before).machine.phase = .fetch →
      (∀ command ∈ after, command.isWhole = true) →
        stopped.machine.phase = .fetch ∧
        stopped.machine.step.1 = .fetched address (program.cell address) ∧
        fetchAddresses (stopped.machine.transitions 3) = [address]) ∧
    ((∀ command ∈ commands, command.isForced = false) → stopped.machine.phase ≠ .fetch →
      address = stopped.machine.mar + 1) := by
  intro debugger stopped
  obtain ⟨hPc, hAt, hTick⟩ := tick_of_stop hRunning hStop
  have hStopped : stopped = { debugger with running := false, status := .stopped address } := hTick
  have hSame : stopped.machine = debugger.machine := by rw [hStopped]
  have hThree := Machine.fetchAddresses_three stopped.machine
  rw [hSame, hPc] at hThree
  refine ⟨⟨?_, by rw [hStopped], hSame, by rw [hSame, hPc]⟩, ?_, ?_, ?_⟩
  · rw [← hPc]
    exact (atBreakpoint_iff.1 hAt).1
  · rw [hSame]
    exact hThree
  · intro before after hCommands hBoundary hWhole
    have hPhase : debugger.machine.phase = .fetch := by
      rw [show debugger = _ from congrArg fresh.performAll hCommands]
      exact phase_performAll hBoundary hWhole
    rw [hSame, Machine.step_fetch hPhase, hPc, read_machine hFresh commands]
    rw [if_pos hPhase] at hThree
    exact ⟨hPhase, rfl, hThree⟩
  · intro hFree hPhase
    rw [hSame] at hPhase ⊢
    rw [← hPc]
    exact Machine.pc_of_ne_fetch (pipeline_machine hFresh hFree) hPhase

/-- A jump back to the beginning, after an instruction that does nothing. -/
def loopingProgram : Program := { words := [0x000000, 0x070000] }

/-- The new machine for the program that jumps back. -/
def loopingMachine : Machine := { program := ProgramMemory.load { image := loopingProgram } }

theorem ofProgram_loopingProgram : ofProgram loopingProgram = .ok { machine := loopingMachine } :=
  rfl

set_option maxRecDepth 10000 in
/-- A breakpoint at the jump holds it back. -/
theorem next_fetch_of_stop_loopingProgram :
    let commands : List Command := [.stepCycle, .toggleBreakpoint, .reset, .run, .tick]
    let debugger : Debugger := ({ machine := loopingMachine : Debugger }).performAll commands
    debugger.running = true ∧ debugger.tick.status = .stopped 1 ∧
      debugger.tick.machine.step.1 = .fetched 1 0x070000 := by
  intro commands debugger
  have hRunning : debugger.running = true := by decide
  have hStop : debugger.tick.status = .stopped 1 := by decide
  obtain ⟨-, -, hBoundary, -⟩ :=
    @next_fetch_of_stop _ _ ofProgram_loopingProgram commands 1 hRunning hStop
  exact ⟨hRunning, hStop, (hBoundary [] commands rfl rfl (by decide)).2.1⟩

set_option maxRecDepth 10000 in
/-- Not every stop is between two cycles: one behind a jump that has been fetched is not, and the
next fetch is from its target. -/
theorem stop_within_cycle :
    ¬∀ (program : Program) (fresh : Debugger) (commands : List Command) (address : UInt8),
      ofProgram program = .ok fresh → (fresh.performAll commands).running = true →
      (fresh.performAll commands).tick.status = .stopped address →
        (fresh.performAll commands).tick.machine.phase = .fetch ∧
        (fresh.performAll commands).tick.machine.pc = address ∧
        fetchAddresses ((fresh.performAll commands).tick.machine.transitions 3) = [address] := by
  intro hAll
  obtain ⟨-, -, hFetch⟩ := hAll loopingProgram _
    [.stepCycle, .stepPhase, .toggleBreakpoint, .run] 2 ofProgram_loopingProgram (by decide)
    (by decide)
  rw [Machine.fetchAddresses_three] at hFetch
  exact absurd hFetch (by decide)

/-! ## Runs that are started again -/

/-- A run that is started at a breakpoint stops there, however often it ticks. -/
theorem ticks_run_of_atBreakpoint (hAt : debugger.atBreakpoint = true) {count : Nat}
    (hCount : 0 < count) :
    ticks count debugger.run
      = { debugger with running := false, status := .stopped debugger.machine.pc } := by
  obtain ⟨later, rfl⟩ := Nat.exists_eq_add_of_le' hCount
  have hRunning : debugger.run.running = true := rfl
  have hTick : debugger.run.tick
      = { debugger with running := false, status := .stopped debugger.machine.pc } := by
    rcases tick_of_running hRunning with ⟨-, hTick⟩ | ⟨hRuns, -⟩
    · exact hTick
    · rw [runsCycle, show debugger.run.atBreakpoint = true from hAt] at hRuns
      cases hRuns
  rw [ticks, hTick, ticks_eq_iterate]
  exact iterate_tick_of_paused rfl later

/-- A run that is not started at a breakpoint completes an instruction, or meets a fault. -/
theorem results_run_tick (hAt : debugger.atBreakpoint = false) :
    (debugger.run.log .tick).filterMap Event.result? = [debugger.machine.cycle.1] := by
  have hRuns : debugger.run.runsCycle = true := by
    rw [runsCycle, show debugger.run.atBreakpoint = false from hAt]
    rfl
  rw [log_tick, if_pos hRuns]
  exact Machine.results_log_cycle debugger.machine

/-- The counter has gone beyond a number, or a fault has set it back and paused the debugger. -/
def MovedOn (number : Nat) (debugger : Debugger) : Prop :=
  number < debugger.machine.cycles ∨ debugger.running = false ∧ debugger.machine.cycles = 0

variable {number : Nat}

theorem movedOn_stepCycle (h : number ≤ debugger.machine.cycles) :
    debugger.stepCycle.MovedOn number := by
  rw [MovedOn, machine_stepCycle, running_stepCycle]
  cases hFault : debugger.machine.meetsFault with
  | true =>
      rw [Machine.afterCycle_of_meetsFault hFault]
      exact .inr ⟨Bool.and_false _, rfl⟩
  | false =>
      rw [Machine.cycles_afterCycle hFault]
      exact .inl (Nat.lt_succ_of_le h)

theorem MovedOn.tick (h : debugger.MovedOn number) : debugger.tick.MovedOn number := by
  cases hRunning : debugger.running with
  | false =>
      rw [show debugger.tick = debugger from iterate_tick_of_paused hRunning 1]
      exact h
  | true =>
      have hBeyond : number < debugger.machine.cycles :=
        h.resolve_right fun hPaused => by simp [hRunning] at hPaused
      rcases tick_of_running hRunning with ⟨-, hTick⟩ | ⟨-, hTick⟩
      · rw [hTick]
        exact .inl hBeyond
      · rw [hTick]
        exact movedOn_stepCycle (Nat.le_of_lt hBeyond)

theorem MovedOn.ticks (h : debugger.MovedOn number) (count : Nat) :
    (ticks count debugger).MovedOn number := by
  induction count generalizing debugger with
  | zero => exact h
  | succ count ih => exact ih h.tick

/-- A run that is not started at a breakpoint does not come back to the machine it was started
with, if that had executed an instruction. -/
theorem machine_ticks_run_ne (hAt : debugger.atBreakpoint = false)
    (hCycles : 0 < debugger.machine.cycles) {count : Nat} (hCount : 0 < count) :
    (ticks count debugger.run).machine ≠ debugger.machine := by
  obtain ⟨later, rfl⟩ := Nat.exists_eq_add_of_le' hCount
  have hRunning : debugger.run.running = true := rfl
  have hTick : debugger.run.tick = debugger.run.stepCycle := by
    rcases tick_of_running hRunning with ⟨hStop, -⟩ | ⟨-, hTick⟩
    · rw [show debugger.run.atBreakpoint = false from hAt] at hStop
      cases hStop
    · exact hTick
  have hFrom : debugger.machine.cycles ≤ debugger.run.machine.cycles := Nat.le_refl _
  have hMoved : (ticks (later + 1) debugger.run).MovedOn debugger.machine.cycles := by
    rw [ticks, hTick]
    exact (movedOn_stepCycle hFrom).ticks later
  intro hSame
  rw [MovedOn, hSame] at hMoved
  omega

/-- Where a breakpoint is removed no tick stops. -/
theorem atBreakpoint_toggleBreakpoint (hAt : debugger.atBreakpoint = true) :
    debugger.toggleBreakpoint.atBreakpoint = false := by
  have hMem := (atBreakpoint_iff.1 hAt).1
  refine Bool.eq_false_of_not_eq_true fun hStill => ?_
  have hLeft : debugger.machine.pc ∈ toggleAddress debugger.machine.pc debugger.breakpoints :=
    (atBreakpoint_iff.1 hStill).1
  rw [mem_toggleAddress, if_pos rfl] at hLeft
  exact hLeft hMem

/-- **Where a run makes progress.**  After any commands to a new debugger, a run that is started at
a breakpoint stops there, unless no instruction has been executed since the last reset; it goes no
further however often it ticks.  Everywhere else its first tick completes an instruction or meets
a fault, and if an instruction had been executed before, the machine is never again what it was.
So a run that has stopped and is started again stops as it did before; it goes on once the
breakpoint has been removed. -/
theorem resume_after_stop {program : Program} {fresh : Debugger}
    (hFresh : ofProgram program = .ok fresh) (commands : List Command) :
    let debugger := fresh.performAll commands
    let executed := executedSinceReset (fresh.logAll commands)
    (debugger.machine.pc ∈ debugger.breakpoints → 0 < executed → ∀ count, 0 < count →
      ticks count debugger.run
        = { debugger with running := false, status := .stopped debugger.machine.pc }) ∧
    (debugger.machine.pc ∉ debugger.breakpoints ∨ executed = 0 →
      (debugger.run.log .tick).filterMap Event.result? = [debugger.machine.cycle.1]) ∧
    (debugger.machine.pc ∉ debugger.breakpoints → 0 < executed → ∀ count, 0 < count →
      (ticks count debugger.run).machine ≠ debugger.machine) ∧
    (debugger.running = true → ∀ address, debugger.tick.status = .stopped address →
      (∀ count, 0 < count → ticks count debugger.tick.run = debugger.tick) ∧
      (debugger.tick.toggleBreakpoint.run.log .tick).filterMap Event.result?
        = [debugger.machine.cycle.1] ∧
      ∀ count, 0 < count →
        (ticks count debugger.tick.toggleBreakpoint.run).machine ≠ debugger.machine) := by
  intro debugger executed
  have hCycles : debugger.machine.cycles = executed := cycles_machine hFresh commands
  have hElsewhere : debugger.machine.pc ∉ debugger.breakpoints ∨ executed = 0 →
      debugger.atBreakpoint = false := by
    intro hFree
    refine Bool.eq_false_of_not_eq_true fun hAt => ?_
    obtain ⟨hMem, hPositive⟩ := atBreakpoint_iff.1 hAt
    rw [hCycles] at hPositive
    exact hFree.elim (fun hNot => hNot hMem) (Nat.ne_of_gt hPositive)
  refine ⟨?_, ?_, ?_, ?_⟩
  · intro hMem hPositive count hCount
    rw [← hCycles] at hPositive
    exact ticks_run_of_atBreakpoint (atBreakpoint_iff.2 ⟨hMem, hPositive⟩) hCount
  · exact fun hFree => results_run_tick (hElsewhere hFree)
  · intro hNot hPositive count hCount
    rw [← hCycles] at hPositive
    exact machine_ticks_run_ne (hElsewhere (.inl hNot)) hPositive hCount
  · intro hRunning address hStop
    obtain ⟨hPc, hAt, hTick⟩ := tick_of_stop hRunning hStop
    have hStill : debugger.tick.atBreakpoint = true := by
      rw [hTick]
      exact hAt
    have hSame : debugger.tick.machine = debugger.machine := by rw [hTick]
    have hCleared := atBreakpoint_toggleBreakpoint hStill
    refine ⟨fun count hCount => ?_, ?_, fun count hCount => ?_⟩
    · rw [ticks_run_of_atBreakpoint hStill hCount, hSame, hPc, hTick]
    · rw [results_run_tick hCleared]
      exact congrArg (fun machine : Machine => [machine.cycle.1]) hSame
    · have hPositive := (atBreakpoint_iff.1 hAt).2
      rw [← hSame] at hPositive ⊢
      exact machine_ticks_run_ne hCleared hPositive hCount

set_option maxRecDepth 10000 in
/-- A run that has stopped at the jump stops there again, until the breakpoint is removed. -/
theorem resume_after_stop_loopingProgram :
    let commands : List Command := [.stepCycle, .toggleBreakpoint, .reset, .run, .tick]
    let debugger : Debugger := ({ machine := loopingMachine : Debugger }).performAll commands
    debugger.running = true ∧ debugger.tick.status = .stopped 1 ∧
      ticks 5 debugger.tick.run = debugger.tick ∧
      (debugger.tick.toggleBreakpoint.run.log .tick).filterMap Event.result? = [.ok (.jump 0)] ∧
      (ticks 5 debugger.tick.toggleBreakpoint.run).machine ≠ debugger.machine := by
  intro commands debugger
  have hRunning : debugger.running = true := by decide
  have hStop : debugger.tick.status = .stopped 1 := by decide
  obtain ⟨-, -, -, hStops⟩ := resume_after_stop ofProgram_loopingProgram commands
  obtain ⟨hAgain, hResult, hMoves⟩ := hStops hRunning 1 hStop
  have hCycle : debugger.machine.cycle.1 = .ok (.jump 0) := by decide
  exact ⟨hRunning, hStop, hAgain 5 (by decide), hCycle ▸ hResult, hMoves 5 (by decide)⟩

set_option maxRecDepth 10000 in
/-- Not every run that has stopped and is started again makes progress. -/
theorem stop_repeated :
    ¬∀ (program : Program) (fresh : Debugger) (commands : List Command) (address : UInt8),
      ofProgram program = .ok fresh → (fresh.performAll commands).running = true →
      (fresh.performAll commands).tick.status = .stopped address →
        ((fresh.performAll commands).tick.run.log .tick).filterMap Event.result? ≠ [] ∧
        ∀ count, 0 < count → (ticks count (fresh.performAll commands).tick.run).machine
          ≠ (fresh.performAll commands).tick.machine := by
  intro hAll
  let commands : List Command := [.stepCycle, .toggleBreakpoint, .reset, .run, .tick]
  obtain ⟨-, hMoves⟩ :=
    hAll loopingProgram _ commands 1 ofProgram_loopingProgram (by decide) (by decide)
  have hAt : (({ machine := loopingMachine : Debugger }).performAll commands).tick.atBreakpoint
      = true := by decide
  exact hMoves 1 Nat.one_pos (by rw [ticks_run_of_atBreakpoint hAt Nat.one_pos])

end Debugger

end ControlUnit
