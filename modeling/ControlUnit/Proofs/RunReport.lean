import ControlUnit.Json.Format
import ControlUnit.Proofs.FetchAddress
import ControlUnit.Proofs.RangeTable
import ControlUnit.Proofs.RunCommand
import ControlUnit.Proofs.CycleLoop
import Mathlib.Data.List.Forall2
import Mathlib.Order.Bounds.Defs

/-!
# The report of a run

The run of the command line is described by the cycles of its machine alone: how many it makes,
what it prints for each of them, and how it says that it has ended.  It ends before the first
cycle but the very first that would begin at a breakpoint, or after as many as it may make, and
says which of the two it was.  The JSON format that it reads settings in and may show its snapshot
in can be any.

A line of the trace names the program counter before its cycle and the subroutine of the memory
address register after it.  Every cycle of a run begins with a fetch, and no instruction changes
that register, not even a jump, so both are the address the instruction was fetched from.

## Main results

* `Run.ofMachine_cases` — where a run ends.
* `Machine.exists_lastFault` — what the counter of the machine counts.
* `CommandLine.cycleLines_cycleEvents` — what is printed for a cycle.
* `CommandLine.run_reported` — what is printed for a run.
-/

namespace ControlUnit

namespace Machine

variable {machine : Machine}

/-! ## The last fault -/

/-- Among some cycles the one with a number, counted from one, is the last that meets a fault; the
number is zero if none does. -/
structure LastFault (machine : Machine) (count number : Nat) : Prop where
  le : number ≤ count
  meets : number ≠ 0 → (afterCycle^[number - 1] machine).meetsFault = true
  after : ∀ index, number ≤ index → index < count →
    (afterCycle^[index] machine).meetsFault = false

/-- The counter of a machine that starts at zero counts the cycles since the last fault. -/
theorem exists_lastFault (hStart : machine.cycles = 0) (count : Nat) :
    ∃ number, machine.LastFault count number ∧
      (afterCycle^[count] machine).cycles = count - number := by
  induction count with
  | zero =>
      have hNone : ∀ index, 0 ≤ index → index < 0 →
          (afterCycle^[index] machine).meetsFault = false :=
        fun index _ hIndex => absurd hIndex (Nat.not_lt_zero index)
      exact ⟨0, ⟨Nat.le_refl 0, fun hZero => absurd rfl hZero, hNone⟩, hStart⟩
  | succ count ih =>
      rw [Function.iterate_succ_apply']
      cases hFault : (afterCycle^[count] machine).meetsFault with
      | true =>
          refine ⟨count + 1, ⟨Nat.le_refl _, fun _ => hFault, fun index _ _ => by omega⟩, ?_⟩
          rw [afterCycle_of_meetsFault hFault, Nat.sub_self]
          rfl
      | false =>
          obtain ⟨number, hLast, hCycles⟩ := ih
          have hLe := hLast.le
          refine ⟨number, ⟨by omega, hLast.meets, fun index hFrom hTo => ?_⟩, ?_⟩
          · by_cases hIndex : index = count
            · rw [hIndex, hFault]
            · exact hLast.after index hFrom (by omega)
          · rw [cycles_afterCycle hFault, hCycles]
            omega

/-! ## The cycles of a new machine -/

theorem pipeline_afterCycle_iterate {program : Program} (h : machine.Pipeline program)
    (count : Nat) : (afterCycle^[count] machine).Pipeline program := by
  induction count with
  | zero => exact h
  | succ count ih =>
      rw [Function.iterate_succ_apply']
      exact pipeline_afterCycle ih

/-- What a run records for a cycle. -/
def cycleEvents (trace : Bool) (machine : Machine) : List RunEvent :=
  match machine.cycle with
  | (.ok instruction, next) =>
    if trace then [.executed machine.pc instruction next.subroutineName] else []
  | (.error fault, _) => [.fault fault]

theorem check_of_ofProgram {program : Program} {new : Machine} (h : ofProgram program = .ok new) :
    program.check = .ok () := by
  rw [ofProgram, ProgramMemory.ofProgram] at h
  cases hCheck : program.check with
  | ok => rfl
  | error reason => simp [hCheck] at h

/-- A machine names the subroutine of its address by the program it was made for. -/
theorem subroutineName_eq {program : Program} {new : Machine} (hNew : ofProgram program = .ok new)
    (hProgram : machine.program = new.program) :
    machine.subroutineName = program.subroutineName machine.mar.toUInt16 := by
  rw [subroutineName, ProgramMemory.subroutineName, hProgram, eq_of_ofProgram hNew]
  rfl

end Machine

namespace Run

/-! ## Where a run ends -/

/-- The numbers of cycles after which the run of a machine may stop at a breakpoint. -/
def stops (settings : Settings) (machine : Machine) : Set Nat :=
  {count | 1 ≤ count ∧ count < settings.maxCycles.toNat ∧
    (Machine.afterCycle^[count] machine).pc ∈ settings.breakpoints}

theorem atBreakpoint_iterate_iff (trace : Bool) (breakpoints : List UInt8) (machine : Machine)
    (count : Nat) :
    ((cycle trace)^[count] { machine := machine }).atBreakpoint breakpoints = true ↔
      1 ≤ count ∧ (Machine.afterCycle^[count] machine).pc ∈ breakpoints := by
  obtain ⟨hMachine, hCycles, -⟩ := iterate_cycle trace { machine := machine } count
  rw [atBreakpoint, hMachine, hCycles, Bool.and_eq_true, decide_eq_true_eq,
    List.contains_iff_mem, Nat.zero_add]
  exact Iff.rfl

/-- A run ends after the first number of cycles that leads to a breakpoint, which it records, or
if there is none after as many as it may make. -/
theorem ofMachine_cases (settings : Settings) (machine : Machine) :
    ∃ count,
      (IsLeast (stops settings machine) count ∧
        ofMachine settings machine = ((cycle settings.trace)^[count] { machine := machine }).record
          (.breakpoint (Machine.afterCycle^[count] machine).pc)) ∨
      (stops settings machine = ∅ ∧ count = settings.maxCycles.toNat ∧
        ofMachine settings machine = (cycle settings.trace)^[count] { machine := machine }) := by
  obtain ⟨count, hFree, hEnd⟩ := continueFor_cases settings.trace settings.breakpoints
    settings.maxCycles.toNat { machine := machine }
  have hNone : ∀ index ∈ stops settings machine, count ≤ index := by
    rintro index ⟨hPositive, -, hMem⟩
    by_contra hBefore
    have hAt := (atBreakpoint_iterate_iff settings.trace settings.breakpoints machine index).2
      ⟨hPositive, hMem⟩
    rw [hFree index (Nat.lt_of_not_le hBefore)] at hAt
    cases hAt
  refine ⟨count, ?_⟩
  rcases hEnd with ⟨rfl, hRun⟩ | ⟨hCount, hAt, hRun⟩
  · refine .inr ⟨?_, rfl, hRun⟩
    rw [Set.eq_empty_iff_forall_notMem]
    exact fun index hMem => absurd hMem.2.1 (Nat.not_lt_of_le (hNone index hMem))
  · obtain ⟨hPositive, hMem⟩ := (atBreakpoint_iterate_iff _ _ _ _).1 hAt
    refine .inl ⟨⟨⟨hPositive, hCount, hMem⟩, hNone⟩, ?_⟩
    rw [ofMachine, hRun, (iterate_cycle settings.trace { machine := machine } count).1]

/-! ## What a run records -/

theorem events_cycle (trace : Bool) (run : Run) :
    (run.cycle trace).events.toList = run.events.toList ++ run.machine.cycleEvents trace := by
  rw [cycle, Machine.cycleEvents]
  rcases run.machine.cycle with ⟨result, next⟩
  cases result with
  | ok instruction =>
      cases trace with
      | false => exact (List.append_nil _).symm
      | true => exact Array.toList_push
  | error fault => exact Array.toList_push

theorem events_iterate (trace : Bool) (machine : Machine) (count : Nat) :
    ((cycle trace)^[count] { machine := machine }).events.toList
      = (List.range count).flatMap fun index =>
          (Machine.afterCycle^[index] machine).cycleEvents trace := by
  induction count with
  | zero => rfl
  | succ count ih =>
      rw [Function.iterate_succ_apply', events_cycle, ih,
        (iterate_cycle trace { machine := machine } count).1, List.range_succ, List.flatMap_append,
        List.flatMap_singleton]

end Run

/-! ## What is printed -/

/-- What a table of subroutines says about the name of an address. -/
structure Program.Names (program : Program) (address : UInt8) (name : String) : Prop where
  inside : ∀ subroutine ∈ program.subroutines,
    subroutine.contains address.toUInt16 = true → name = subroutine.name
  outside : (∀ subroutine ∈ program.subroutines, subroutine.contains address.toUInt16 = false) →
    name = unknownSubroutine

theorem Program.names_subroutineName {program : Program} (h : program.check = .ok ())
    (address : UInt8) : program.Names address (program.subroutineName address.toUInt16) where
  inside _ hMem hIn := subroutineName_of_contains (unambiguous_of_check h) hMem hIn
  outside hOut := subroutineName_of_not_contains hOut

namespace CommandLine

/-- What a run prints for a cycle: if there is a trace the instruction that is executed, behind
the address it is fetched from and before the subroutine of this address, or the fault. -/
inductive CycleLines (program : Program) (trace : Bool) (machine : Machine) : List String → Prop
  | executed {address : UInt8} {instruction : Instruction} {name : String}
      (result : machine.cycle.1 = .ok instruction)
      (fetched : fetchAddresses (machine.log .cycle) = [address])
      (decoded : Instruction.decode (program.cell address) = .ok instruction)
      (named : program.Names address name) :
      CycleLines program trace machine
        (if trace then
          [Text.padded 10 3 address.toNat ++ ": " ++ Text.flushLeft 20 instruction.text
            ++ " [" ++ name ++ "]"]
        else [])
  | fault {fault : Fault} (result : machine.cycle.1 = .error fault) :
      CycleLines program trace machine [faultLine fault]

variable {program : Program} {new machine : Machine}

/-- What a run records for a cycle is printed in this way. -/
theorem cycleLines_cycleEvents (hNew : Machine.ofProgram program = .ok new)
    (hProgram : machine.program = new.program) (hPipeline : machine.Pipeline program)
    (hPhase : machine.phase = .fetch) (trace : Bool) :
    CycleLines program trace machine ((machine.cycleEvents trace).map eventLine) := by
  have hAfter : machine.afterCycle.program = new.program :=
    (Machine.program_cycle hPipeline.loaded).trans hProgram
  have hName := Machine.subroutineName_eq hNew hAfter
  rw [Machine.cycleEvents]
  rcases hCycle : machine.cycle with ⟨result, next⟩
  have hNext : machine.afterCycle = next := congrArg Prod.snd hCycle
  cases result with
  | ok instruction =>
      have hResult : machine.cycle.1 = .ok instruction := congrArg Prod.fst hCycle
      have hMar : machine.afterCycle.mar = machine.pc := by
        rw [Machine.mar_afterCycle hResult, if_pos hPhase]
      have hFetched := Machine.fetchAddresses_cycle machine
      rw [if_pos hPhase] at hFetched
      have hDecoded := Machine.decode_mar_afterCycle (Machine.pipeline_afterCycle hPipeline) hResult
      rw [hMar] at hDecoded hName
      have hNames := Program.names_subroutineName (Machine.check_of_ofProgram hNew) machine.pc
      rw [← hName, hNext] at hNames
      have hLines : CycleLines program trace machine _ := .executed hResult hFetched hDecoded hNames
      cases trace with
      | true => exact hLines
      | false => exact hLines
  | error fault => exact .fault (congrArg Prod.fst hCycle)

/-- What is printed for the first cycles of a machine, cycle by cycle. -/
def cycleReports (trace : Bool) (machine : Machine) (count : Nat) : List (List String) :=
  (List.range count).map fun index =>
    ((Machine.afterCycle^[index] machine).cycleEvents trace).map eventLine

theorem forall₂_cycleReports (hNew : Machine.ofProgram program = .ok new) (trace : Bool)
    (count : Nat) :
    List.Forall₂ (CycleLines program trace)
      ((List.range count).map fun index => Machine.afterCycle^[index] new)
      (cycleReports trace new count) := by
  rw [cycleReports, List.forall₂_map_left_iff, List.forall₂_map_right_iff, List.forall₂_same]
  intro index _
  refine cycleLines_cycleEvents hNew ?_ ?_ ?_ trace
  · exact Reference.program_afterCycle_iterate (Machine.load_of_ofProgram hNew) index
  · exact Machine.pipeline_afterCycle_iterate (Machine.pipeline_ofProgram hNew) index
  · refine Reference.phase_afterCycle_iterate ?_ index
    rw [Machine.eq_of_ofProgram hNew]

/-- The cycles of a run print what they record. -/
theorem map_eventLine_iterate (trace : Bool) (machine : Machine) (count : Nat) :
    ((Run.cycle trace)^[count] { machine := machine }).events.toList.map eventLine
      = (cycleReports trace machine count).flatten := by
  rw [Run.events_iterate, List.map_flatMap, List.flatMap_def, cycleReports]

/-- **The report of a run.**  A run of the new machine for a program makes some cycles and leaves
the machine they leave, whose counter tells the cycles since the last fault.  For each cycle in
order it prints the line of the trace, if there is one, or the fault; then the numbers of cycles
and of faults.  The number of cycles is the least, from one on and below the limit, that leads to
a breakpoint, which is printed then; or if there is none it is the limit, and a warning is
printed.  These are the last lines of the command for runs, wherever the program is from and
whatever JSON format the settings are read in. -/
theorem run_reported (hNew : Machine.ofProgram program = .ok new) (format : JsonFormat)
    (settings : Settings) :
    let run := Run.ofMachine settings new
    (run.machine = Machine.afterCycle^[run.cycles] new ∧
      ∃ number, new.LastFault run.cycles number ∧ run.machine.cycles = run.cycles - number) ∧
    (∃ shown : List (List String),
      List.Forall₂ (CycleLines program settings.trace)
        ((List.range run.cycles).map fun index => Machine.afterCycle^[index] new) shown ∧
      let opening := ["", "━━━ Execution ━━━"] ++ shown.flatten
      let result := ["", "━━━ Result ━━━", "Cycles: " ++ Text.decimal run.cycles,
        "Faults: " ++ Text.decimal (new.faultCount run.cycles),
        snapshotText format settings.json run.machine]
      (IsLeast (Run.stops settings new) run.cycles ∧
        runLines format settings new = opening
          ++ ["⏸  Breakpoint at " ++ Text.padded 10 3 run.machine.pc.toNat] ++ result) ∨
      (Run.stops settings new = ∅ ∧ run.cycles = settings.maxCycles.toNat ∧
        runLines format settings new = opening ++ result
          ++ ["", "⚠️  Reached max cycles limit (" ++ Text.decimal settings.maxCycles.toNat
            ++ "). Use --max-cycles to increase."])) ∧
    (∀ (tree : FileTree) (options : RunOptions), tree.settings? format options = some settings →
      tree.program? options.program = some program → ∃ loading,
        ((Command.run options).script format).runIn tree
          = ({ output := loading ++ runLines format settings new }, tree)) := by
  intro run
  obtain ⟨count, hEnd⟩ := Run.ofMachine_cases settings new
  obtain ⟨hMachine, hCycles, hFaults⟩ :=
    Run.iterate_cycle settings.trace { machine := new } count
  have hShown := map_eventLine_iterate settings.trace new count
  -- What the run records at its end changes nothing but its events.
  have hRun : run.machine = Machine.afterCycle^[count] new ∧ run.cycles = count ∧
      run.faults = new.faultCount count := by
    rw [Nat.zero_add] at hCycles hFaults
    rcases hEnd with ⟨-, hRun⟩ | ⟨-, -, hRun⟩
    · rw [show run = _ from hRun]
      exact ⟨hMachine, hCycles, hFaults⟩
    · rw [show run = _ from hRun]
      exact ⟨hMachine, hCycles, hFaults⟩
  obtain ⟨hLast, hCount, hMet⟩ := hRun
  rw [hCount]
  refine ⟨⟨hLast, ?_⟩, ⟨_, forall₂_cycleReports hNew settings.trace count, ?_⟩, ?_⟩
  · rw [hLast]
    refine Machine.exists_lastFault ?_ count
    rw [Machine.eq_of_ofProgram hNew]
  · rw [runLines, runSummary, show Run.ofMachine settings new = run from rfl, hCount, hMet, hLast]
    rcases hEnd with ⟨hLeast, hRun⟩ | ⟨hNone, hLimit, hRun⟩
    · left
      refine ⟨hLeast, ?_⟩
      have hBelow := hLeast.1.2.1
      rw [if_neg (Nat.not_le_of_lt hBelow), show run = _ from hRun, Run.record,
        Array.toList_push, List.map_append, hShown, List.append_nil, ← List.append_assoc]
      rfl
    · right
      refine ⟨hNone, hLimit, ?_⟩
      rw [if_pos (Nat.le_of_eq hLimit.symm), show run = _ from hRun, hShown,
        ← List.append_assoc]
  · intro tree options hSettings hProgram
    exact runScript_runIn hSettings hProgram hNew

set_option maxRecDepth 10000 in
/-- The program that faults does so in its third cycle, and the run with a breakpoint at its
first word ends there, not before its first cycle. -/
theorem run_reported_faultingMachine :
    let settings : Settings := { maxCycles := 10, trace := true, breakpoints := [0] }
    let last := (Run.ofMachine settings faultingMachine).machine
    Machine.ofProgram faultingProgram = .ok faultingMachine ∧
      IsLeast (Run.stops settings faultingMachine) 3 ∧
      last = Machine.afterCycle^[3] faultingMachine ∧ last.cycles = 0 ∧
      ∃ shown : List (List String),
        List.Forall₂ (CycleLines faultingProgram true)
          [faultingMachine, Machine.afterCycle^[1] faultingMachine,
            Machine.afterCycle^[2] faultingMachine] shown ∧
        runLines .strict settings faultingMachine = ["", "━━━ Execution ━━━"] ++ shown.flatten
          ++ ["⏸  Breakpoint at 000", "", "━━━ Result ━━━", "Cycles: 3", "Faults: 1",
            snapshotText .strict false last] := by
  intro settings last
  have hCycles : (Run.ofMachine settings faultingMachine).cycles = 3 := by decide
  have hFaults : "Faults: " ++ Text.decimal (faultingMachine.faultCount 3) = "Faults: 1" := by
    decide
  have hPc : "⏸  Breakpoint at " ++ Text.padded 10 3 last.pc.toNat = "⏸  Breakpoint at 000" := by
    decide
  obtain ⟨⟨hLast, -⟩, ⟨shown, hShown, hLines⟩, -⟩ :=
    run_reported ofProgram_faultingProgram .strict settings
  rw [hCycles] at hLast hShown hLines
  rcases hLines with ⟨hLeast, hLines⟩ | ⟨-, hLimit, -⟩
  · refine ⟨ofProgram_faultingProgram, hLeast, hLast, by decide, shown, hShown, ?_⟩
    rw [hLines, hPc, hFaults, List.append_assoc]
    rfl
  · exact absurd hLimit (by decide)

end CommandLine

end ControlUnit
