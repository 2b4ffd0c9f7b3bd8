import ControlUnit.Proofs.DebuggerCommand
import ControlUnit.Proofs.FetchAddress

/-!
# The status of a cycle

A debugger that runs a cycle shows the instruction and an address, which is that of the program
counter before the cycle.  A cycle that begins with its fetch fetches from there.  One that
finishes what single transitions have begun does not: the instruction under way was fetched from
the address in the memory address register, and the counter is one ahead of it.

## Main results

* `Debugger.cycled_text_inj` — different addresses are shown differently.
* `Debugger.latest_fetch_stepCycle` — where the instruction of a cycle was fetched from.
* `Debugger.status_names_fetch` — when the address shown is that of the instruction.
-/

namespace ControlUnit.Debugger

variable {debugger : Debugger}

/-- The address of a cycle can be told from what is shown. -/
theorem cycled_text_inj {first second : UInt8} {instruction : Instruction} :
    (DebuggerStatus.cycled first instruction).text = (DebuggerStatus.cycled second instruction).text
      ↔ first = second := by
  constructor
  · intro hText
    have hShown : "PC=" ++ Text.padded 10 3 first.toNat ++ ": " ++ instruction.text
        = "PC=" ++ Text.padded 10 3 second.toNat ++ ": " ++ instruction.text := hText
    rw [String.append_left_inj, String.append_left_inj, String.append_right_inj] at hShown
    exact UInt8.toNat_inj.1 ((Text.padded_inj (by decide) (by decide)).1 hShown)
  · rintro rfl
    rfl

/-- A cycle that executes an instruction shows it, and the program counter before. -/
theorem status_stepCycle {instruction : Instruction}
    (h : debugger.machine.cycle.1 = .ok instruction) :
    debugger.stepCycle.status = .cycled debugger.machine.pc instruction := by
  rw [stepCycle]
  rcases hCycle : debugger.machine.cycle with ⟨result, next⟩
  rw [hCycle] at h
  obtain rfl : result = .ok instruction := h
  rfl

/-- Before a cycle that executes an instruction the program counter is at the address that this
is fetched from or, if its fetch has been made, one ahead of it. -/
theorem pc_of_executed {program : Program} {instruction : Instruction}
    (hPipeline : debugger.machine.Pipeline program)
    (hExecuted : debugger.machine.cycle.1 = .ok instruction) :
    debugger.machine.pc = if debugger.machine.phase = .fetch then debugger.stepCycle.machine.mar
      else debugger.stepCycle.machine.mar + 1 := by
  rw [machine_stepCycle, Machine.mar_afterCycle hExecuted]
  split
  · rfl
  · exact Machine.pc_of_ne_fetch hPipeline ‹_›

section Commands

variable {program : Program} {fresh : Debugger} {commands : List Command}
  {instruction : Instruction}

/-- A cycle that executes an instruction leaves the address of the last fetch. -/
theorem latest_fetch_stepCycle (hFresh : ofProgram program = .ok fresh)
    (hFree : ∀ command ∈ commands, command.isForced = false)
    (hExecuted : (fresh.performAll commands).machine.cycle.1 = .ok instruction) :
    latest Event.fetchAddress? (fresh.logAll (commands ++ [.stepCycle]))
      = some (fresh.performAll commands).stepCycle.machine.mar := by
  have hAll : ∀ command ∈ commands ++ [.stepCycle], command.isForced = false := by
    intro command hMem
    rcases List.mem_append.1 hMem with hBefore | hLast
    · exact hFree command hBefore
    · rw [List.mem_singleton.1 hLast]
      rfl
  have hTells : (fresh.performAll (commands ++ [.stepCycle])).machine.TellsFetch
      (fresh.logAll (commands ++ [.stepCycle])) := by
    rw [machine_performAll]
    exact Machine.tellsFetch_performAll (machine_of_ofProgram hFresh)
      (isForced_of_mem_operations hAll)
  have hFault : (fresh.performAll commands).machine.meetsFault = false := by
    rw [Machine.meetsFault, hExecuted]
  have hPositive : 0 < (fresh.performAll commands).stepCycle.machine.cycles := by
    rw [machine_stepCycle, Machine.cycles_afterCycle hFault]
    exact Nat.succ_pos _
  rw [performAll_append] at hTells
  exact hTells.latest_eq hPositive

/-- **The status of a cycle.**  After any commands to a new debugger without forced phases, a cycle
that executes an instruction leaves the address from which this was fetched in the memory address
register.  The status shows this address exactly if the cycle began in the fetch phase, as it does
if no single transition was made since the machine was last between two cycles; else it shows the
address behind it. -/
theorem status_names_fetch (hFresh : ofProgram program = .ok fresh)
    (hFree : ∀ command ∈ commands, command.isForced = false)
    (hExecuted : (fresh.performAll commands).machine.cycle.1 = .ok instruction) :
    let debugger := fresh.performAll commands
    let after := debugger.stepCycle
    let shown (address : UInt8) : String :=
      "PC=" ++ Text.padded 10 3 address.toNat ++ ": " ++ instruction.text
    (latest Event.fetchAddress? (fresh.logAll (commands ++ [.stepCycle])) = some after.machine.mar ∧
      Instruction.decode (program.cell after.machine.mar) = .ok instruction) ∧
    after.status.text = shown
      (if debugger.machine.phase = .fetch then after.machine.mar else after.machine.mar + 1) ∧
    (after.status.text = shown after.machine.mar ↔ debugger.machine.phase = .fetch) ∧
    (∀ before later, commands = before ++ later →
      (fresh.performAll before).machine.phase = .fetch →
      (∀ command ∈ later, command.isWhole = true) → after.status.text = shown after.machine.mar) := by
  intro debugger after shown
  have hPipeline : debugger.machine.Pipeline program := pipeline_machine hFresh hFree
  have hText : after.status.text = shown
      (if debugger.machine.phase = .fetch then after.machine.mar else after.machine.mar + 1) := by
    rw [← pc_of_executed hPipeline hExecuted, show after.status = _ from status_stepCycle hExecuted]
    rfl
  have hNamed : after.status.text = shown after.machine.mar ↔ debugger.machine.phase = .fetch := by
    rw [hText]
    refine cycled_text_inj.trans ⟨fun hSame => ?_, fun hPhase => if_pos hPhase⟩
    by_contra hPhase
    rw [if_neg hPhase, UInt8.add_eq_left] at hSame
    exact absurd hSame (by decide)
  refine ⟨⟨latest_fetch_stepCycle hFresh hFree hExecuted, ?_⟩, hText, hNamed, ?_⟩
  · rw [show after.machine = _ from machine_stepCycle debugger]
    exact Machine.decode_mar_afterCycle (Machine.pipeline_afterCycle hPipeline) hExecuted
  · intro before later hCommands hBoundary hWhole
    have hPhase := phase_performAll hBoundary hWhole
    rw [← hCommands] at hPhase
    exact hNamed.2 hPhase

end Commands

set_option maxRecDepth 10000 in
/-- A cycle from the beginning shows where its instruction was fetched from; one that finishes
what two transitions have begun shows the address behind it. -/
theorem status_names_fetch_faultingMachine :
    let fresh : Debugger := { machine := faultingMachine }
    let within := fresh.performAll [.stepPhase, .stepPhase]
    fresh.machine.cycle.1 = .ok (.loadImmediate 31 7) ∧
      fresh.stepCycle.status.text = "PC=000: LDI R31, 0x07" ∧
      within.machine.cycle.1 = .ok (.loadImmediate 31 7) ∧ within.stepCycle.machine.mar = 0 ∧
      within.stepCycle.status.text = "PC=001: LDI R31, 0x07" := by
  intro fresh within
  have hFresh : ofProgram faultingProgram = .ok fresh := rfl
  have hFirst : (fresh.performAll []).machine.cycle.1 = .ok (.loadImmediate 31 7) := by decide
  have hWithin : (fresh.performAll [.stepPhase, .stepPhase]).machine.cycle.1
      = .ok (.loadImmediate 31 7) := by decide
  obtain ⟨-, hZero, -, -⟩ := status_names_fetch hFresh (by decide) hFirst
  obtain ⟨-, hOne, -, -⟩ := status_names_fetch hFresh (by decide) hWithin
  refine ⟨hFirst, hZero.trans ?_, hWithin, by decide, hOne.trans ?_⟩
  · decide
  · decide

set_option maxRecDepth 10000 in
/-- Not every cycle shows where its instruction was fetched from. -/
theorem status_behind_fetch :
    ¬∀ (program : Program) (fresh : Debugger) (commands : List Command) (instruction : Instruction),
      ofProgram program = .ok fresh → (∀ command ∈ commands, command.isForced = false) →
      (fresh.performAll commands).machine.cycle.1 = .ok instruction →
        (fresh.performAll commands).stepCycle.status.text
          = "PC=" ++ Text.padded 10 3 (fresh.performAll commands).stepCycle.machine.mar.toNat ++ ": "
            ++ instruction.text := by
  intro hAll
  have hShown := hAll faultingProgram { machine := faultingMachine } [.stepPhase]
    (.loadImmediate 31 7) rfl (by decide) (by decide)
  exact absurd hShown (by decide)

end ControlUnit.Debugger
