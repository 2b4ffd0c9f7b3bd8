import ControlUnit.Proofs.Breakpoint
import ControlUnit.Proofs.DataPages

/-!
# The history of a debugger

What the commands given to a debugger say about its breakpoints and about whether it runs.

Only one command changes the breakpoints, and it changes the one at the program counter; so a
breakpoint is set if it was toggled an odd number of times, whatever else was done.

A run goes on until something ends it: a reset of the machine by whatever cause, a phase forced by
the person, or a tick at a breakpoint.  So a debugger runs exactly if it was told to and nothing
has ended the run since it was last told (`Debugger.Undisturbed`).

## Main results

* `Debugger.mem_breakpoints_perform`, `Debugger.running_perform` — what one command does.
* `Debugger.mem_breakpoints_performAll` — which breakpoints some commands leave.
* `Debugger.running_performAll` — whether commands other than to run leave a debugger running.
* `Debugger.history_performAll` — both, for a new debugger.
-/

namespace ControlUnit

/-! ## Resets in a log -/

namespace Machine

theorem logAll_append (machine : Machine) (first second : List Operation) :
    machine.logAll (first ++ second)
      = machine.logAll first ++ (machine.performAll first).2.logAll second := by
  induction first generalizing machine with
  | nil => rfl
  | cons operation rest ih =>
      rw [List.cons_append, logAll, ih, logAll, List.append_assoc]
      rfl

/-- Among transitions, those that end a cycle with a fault are resets. -/
theorem any_isReset_transitions (machine : Machine) (count : Nat) :
    (machine.transitions count).any Event.isReset
      = ((machine.transitions count).filterMap Event.result?).any fun result => !result.isOk := by
  induction count generalizing machine with
  | zero => rfl
  | succ count ih =>
      rw [transitions, List.any_cons, ih, List.filterMap_cons]
      cases machine.step.1 <;> rfl

/-- A cycle resets the machine exactly if it meets a fault. -/
theorem any_isReset_log_cycle (machine : Machine) :
    (machine.log .cycle).any Event.isReset = machine.meetsFault := by
  have hResults := results_log_cycle machine
  rw [log] at hResults ⊢
  rw [any_isReset_transitions, hResults, meetsFault]
  cases machine.cycle.1 <;> rfl

end Machine

namespace Debugger

/-! ## Breakpoints -/

/-- How often some commands toggle the breakpoint at an address, which is where the program counter
is at the time. -/
def togglesAt (debugger : Debugger) (address : UInt8) : List Command → Nat
  | [] => 0
  | command :: rest =>
    (if command = .toggleBreakpoint ∧ debugger.machine.pc = address then 1 else 0)
      + (debugger.perform command).togglesAt address rest

variable {debugger : Debugger} {address : UInt8}

theorem breakpoints_tick (debugger : Debugger) :
    debugger.tick.breakpoints = debugger.breakpoints := by
  rw [tick]
  split
  · split
    · rfl
    · exact breakpoints_stepCycle debugger
  · rfl

theorem breakpoints_forcePhase (debugger : Debugger) (code : UInt8) :
    (debugger.forcePhase code).breakpoints = debugger.breakpoints := by
  rw [forcePhase]
  rcases debugger.machine.forcePhase code with ⟨result, next⟩
  cases result <;> rfl

/-- A command other than to toggle a breakpoint leaves the breakpoints as they are. -/
theorem breakpoints_perform {command : Command} (h : command ≠ .toggleBreakpoint) :
    (debugger.perform command).breakpoints = debugger.breakpoints := by
  cases command with
  | toggleBreakpoint => exact absurd rfl h
  | stepCycle => exact breakpoints_stepCycle debugger
  | tick => exact breakpoints_tick debugger
  | forcePhase code => exact breakpoints_forcePhase debugger code
  | stepPhase | run | reset => rfl
  | setRegister register value => rfl
  | writeData place value => rfl
  | pushByte value => rfl

/-- A breakpoint changes exactly if it is toggled. -/
theorem mem_breakpoints_perform (command : Command) :
    address ∈ (debugger.perform command).breakpoints ↔
      if command = .toggleBreakpoint ∧ debugger.machine.pc = address then
        address ∉ debugger.breakpoints
      else address ∈ debugger.breakpoints := by
  by_cases hToggle : command = .toggleBreakpoint
  · subst hToggle
    show address ∈ toggleAddress debugger.machine.pc debugger.breakpoints ↔ _
    rw [mem_toggleAddress]
    simp only [true_and, eq_comm]
  · rw [breakpoints_perform hToggle, if_neg fun h => hToggle h.1]

/-- A breakpoint has changed exactly if it was toggled an odd number of times. -/
theorem mem_breakpoints_performAll (debugger : Debugger) (commands : List Command) :
    address ∈ (debugger.performAll commands).breakpoints ↔
      if debugger.togglesAt address commands % 2 = 1 then address ∉ debugger.breakpoints
      else address ∈ debugger.breakpoints := by
  induction commands generalizing debugger with
  | nil => rfl
  | cons command rest ih =>
      rw [performAll, ih, togglesAt]
      by_cases hToggled : command = .toggleBreakpoint ∧ debugger.machine.pc = address
      · simp only [mem_breakpoints_perform, if_pos hToggled, not_not]
        rcases Nat.mod_two_eq_zero_or_one ((debugger.perform command).togglesAt address rest)
          with hEven | hOdd
        · rw [if_neg (by omega), if_pos (by omega)]
        · rw [if_pos hOdd, if_neg (by omega)]
      · simp only [mem_breakpoints_perform, if_neg hToggled, Nat.zero_add]

/-! ## Runs -/

/-- Nothing ends a run during some commands: they do not reset the machine, they force no phase,
and no tick of theirs is at a breakpoint. -/
structure Undisturbed (debugger : Debugger) (commands : List Command) : Prop where
  unreset : (debugger.logAll commands).any Event.isReset = false
  unforced : ∀ command ∈ commands, command.isForced = false
  passes : ∀ before after, commands = before ++ .tick :: after →
    (debugger.performAll before).atBreakpoint = false

theorem logAll_cons (debugger : Debugger) (command : Command) (rest : List Command) :
    debugger.logAll (command :: rest)
      = debugger.log command ++ (debugger.perform command).logAll rest := by
  rw [logAll, operations, Machine.logAll_append, ← machine_perform]
  rfl

/-- Whether a command ends a run. -/
def ends (debugger : Debugger) (command : Command) : Bool :=
  (debugger.log command).any Event.isReset || command.isForced ||
    (decide (command = .tick) && debugger.atBreakpoint)

theorem undisturbed_cons_iff {command : Command} {rest : List Command} :
    debugger.Undisturbed (command :: rest) ↔
      debugger.ends command = false ∧ (debugger.perform command).Undisturbed rest := by
  have hEnds : debugger.ends command = false ↔ (debugger.log command).any Event.isReset = false ∧
      command.isForced = false ∧ (command = .tick → debugger.atBreakpoint = false) := by
    rw [ends, Bool.or_eq_false_iff, Bool.or_eq_false_iff, and_assoc, Bool.and_eq_false_imp,
      decide_eq_true_eq]
  rw [hEnds]
  constructor
  · intro h
    have hReset := h.unreset
    rw [logAll_cons, List.any_append, Bool.or_eq_false_iff] at hReset
    refine ⟨⟨hReset.1, h.unforced command List.mem_cons_self, ?_⟩, hReset.2, ?_, ?_⟩
    · rintro rfl
      exact h.passes [] rest rfl
    · exact fun other hMem => h.unforced other (List.mem_cons_of_mem _ hMem)
    · rintro before after rfl
      exact h.passes (command :: before) after rfl
  · rintro ⟨⟨hReset, hForced, hTick⟩, h⟩
    refine ⟨?_, ?_, ?_⟩
    · rw [logAll_cons, List.any_append, hReset, h.unreset]
      rfl
    · exact List.forall_mem_cons.2 ⟨hForced, h.unforced⟩
    · intro before after hSplit
      cases before with
      | nil =>
          rw [List.nil_append, List.cons_eq_cons] at hSplit
          exact hTick hSplit.1
      | cons first more =>
          rw [List.cons_append, List.cons_eq_cons] at hSplit
          obtain ⟨rfl, rfl⟩ := hSplit
          exact h.passes more after rfl

theorem running_stepPhase (debugger : Debugger) :
    debugger.stepPhase.running
      = (debugger.running && !(debugger.log .stepPhase).any Event.isReset) := by
  have hLog : debugger.log .stepPhase
      = [.transition debugger.machine debugger.machine.step.1] := rfl
  rw [hLog, stepPhase]
  rcases debugger.machine.step with ⟨transition, next⟩
  cases transition <;> simp [Event.isReset]

theorem any_isReset_log_stepCycle (debugger : Debugger) :
    (debugger.log .stepCycle).any Event.isReset = debugger.machine.meetsFault := by
  have hLog : debugger.log .stepCycle = debugger.machine.log .cycle := List.append_nil _
  rw [hLog, Machine.any_isReset_log_cycle]

theorem running_tick (debugger : Debugger) :
    debugger.tick.running
      = (debugger.running &&
          !((debugger.log .tick).any Event.isReset || debugger.atBreakpoint)) := by
  cases hRunning : debugger.running with
  | false =>
      rw [tick, hRunning]
      exact hRunning
  | true =>
      rcases tick_of_running hRunning with ⟨hAt, hTick⟩ | ⟨hRuns, hTick⟩
      · rw [hTick, hAt, Bool.or_true]
        rfl
      · rw [hTick, running_stepCycle, log_tick, if_pos hRuns, Machine.any_isReset_log_cycle,
          hRunning]
        rw [runsCycle, hRunning, Bool.true_and, Bool.not_eq_true'] at hRuns
        rw [hRuns, Bool.or_false]

/-- A command other than to run leaves a debugger running exactly if it is and the command does not
end the run. -/
theorem running_perform {command : Command} (h : command ≠ .run) :
    (debugger.perform command).running = (debugger.running && !debugger.ends command) := by
  cases command with
  | run => exact absurd rfl h
  | stepPhase =>
      rw [perform, running_stepPhase, ends]
      simp [Command.isForced]
  | stepCycle =>
      rw [perform, running_stepCycle, ends, any_isReset_log_stepCycle]
      simp [Command.isForced]
  | tick =>
      rw [perform, running_tick, ends]
      simp [Command.isForced]
  | forcePhase code =>
      rw [perform, forcePhase]
      rcases debugger.machine.forcePhase code with ⟨result, next⟩
      cases result <;> simp [ends, Command.isForced]
  | reset => exact (Bool.and_false debugger.running).symm
  | toggleBreakpoint => exact (Bool.and_true debugger.running).symm
  | setRegister register value => exact (Bool.and_true debugger.running).symm
  | writeData place value => exact (Bool.and_true debugger.running).symm
  | pushByte value => exact (Bool.and_true debugger.running).symm

/-- Commands other than to run leave a debugger running exactly if it is and nothing ends the
run. -/
theorem running_performAll (debugger : Debugger) {commands : List Command} (h : .run ∉ commands) :
    (debugger.performAll commands).running = true ↔
      debugger.running = true ∧ debugger.Undisturbed commands := by
  induction commands generalizing debugger with
  | nil =>
      have hNothing : debugger.Undisturbed [] := ⟨rfl, by simp, by simp⟩
      simp [performAll, hNothing]
  | cons command rest ih =>
      have hFirst : command ≠ .run := fun hRun => h (by simp [hRun])
      rw [performAll, ih _ fun hRest => h (List.mem_cons_of_mem _ hRest), running_perform hFirst,
        undisturbed_cons_iff, Bool.and_eq_true, Bool.not_eq_true', and_assoc]

/-- Among some commands to run one is the last, or there is none. -/
theorem exists_last_run (commands : List Command) :
    .run ∉ commands ∨ ∃ before after, commands = before ++ .run :: after ∧ .run ∉ after := by
  by_cases hRun : .run ∈ commands
  · obtain ⟨after, before, hReverse, hLast⟩ := List.eq_append_cons_of_mem (List.mem_reverse.2 hRun)
    refine .inr ⟨before.reverse, after.reverse, ?_, by simpa using hLast⟩
    rw [← List.reverse_reverse commands, hReverse]
    simp
  · exact .inl hRun

/-! ## The history of a new debugger -/

/-- **Breakpoints and runs.**  After any commands to a new debugger a breakpoint is set exactly if
it was toggled, while the program counter was there, an odd number of times.  The debugger is
running exactly if it was told to run and nothing has ended the run since it last was: in
particular the machine has not been reset since. -/
theorem history_performAll {program : Program} {fresh : Debugger}
    (hFresh : ofProgram program = .ok fresh) (commands : List Command) :
    (∀ address, address ∈ (fresh.performAll commands).breakpoints ↔
      fresh.togglesAt address commands % 2 = 1) ∧
    ((fresh.performAll commands).running = true ↔
      ∃ before after, commands = before ++ .run :: after ∧ .run ∉ after ∧
        (fresh.performAll (before ++ [.run])).Undisturbed after) := by
  have hEmpty : fresh.breakpoints = [] ∧ fresh.running = false := by
    rw [eq_of_ofProgram (machine_of_ofProgram hFresh) hFresh]
    exact ⟨rfl, rfl⟩
  constructor
  · intro address
    rw [mem_breakpoints_performAll, hEmpty.1]
    simp
  · have hStarted : ∀ before after, Command.run ∉ after →
        ((fresh.performAll (before ++ .run :: after)).running = true ↔
          (fresh.performAll (before ++ [.run])).Undisturbed after) := by
      intro before after hLast
      have hSplit : before ++ .run :: after = (before ++ [.run]) ++ after := by simp
      rw [hSplit, performAll_append, running_performAll _ hLast, performAll_append fresh before]
      exact and_iff_right rfl
    constructor
    · intro hRunning
      rcases exists_last_run commands with hNone | ⟨before, after, rfl, hLast⟩
      · rw [running_performAll fresh hNone, hEmpty.2] at hRunning
        exact absurd hRunning.1 Bool.false_ne_true
      · exact ⟨before, after, rfl, hLast, (hStarted before after hLast).1 hRunning⟩
    · rintro ⟨before, after, rfl, hLast, hUndisturbed⟩
      exact (hStarted before after hLast).2 hUndisturbed

set_option maxRecDepth 10000 in
/-- A run passes a breakpoint at address zero when nothing has been executed yet. -/
theorem history_faultingMachine :
    let fresh : Debugger := { machine := faultingMachine }
    let debugger := fresh.performAll [.toggleBreakpoint, .run, .tick]
    ofProgram faultingProgram = .ok fresh ∧ 0 ∈ debugger.breakpoints ∧ debugger.running = true := by
  intro fresh debugger
  have hFresh : ofProgram faultingProgram = .ok fresh := rfl
  obtain ⟨hBreakpoints, hRunning⟩ :=
    history_performAll hFresh [.toggleBreakpoint, .run, .tick]
  refine ⟨hFresh, (hBreakpoints 0).2 (by decide), hRunning.2 ?_⟩
  refine ⟨[.toggleBreakpoint], [.tick], rfl, by decide, by decide, by decide, ?_⟩
  intro before after hSplit
  obtain rfl : before = [] := by
    have hLength := congrArg List.length hSplit
    simp only [List.length_append, List.length_cons, List.length_nil] at hLength
    exact List.eq_nil_of_length_eq_zero (by omega)
  decide

end Debugger

end ControlUnit
