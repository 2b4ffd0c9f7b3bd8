import ControlUnit.Json.Format
import ControlUnit.Proofs.CycleLoop
import ControlUnit.Proofs.Reference
import ControlUnit.Proofs.RunCommand
import Mathlib.Dynamics.PeriodicPts.Defs

/-!
# The period of faults

A fault takes a machine back to the new machine for its program.  If the first fault of a
new machine is met in cycle number `k`, then everything repeats after `k` cycles: the
machine, and the faults, one in every `k` cycles.  If the new machine never meets a fault,
nothing is ever counted.

The run of a session and the run of the command line count the faults of the cycles they
make, so they report `n / k` faults in `n` cycles.  This needs no bound on `n` and no look
at what the program does before the fault.

## Main results

* `Machine.FirstFault.isPeriodicPt` — a machine that faults comes back to where it began.
* `Machine.FirstFault.faultCount_eq` — one fault in every period.
* `Machine.meetsFault_eq_false_of_known` — a program of known opcodes never faults.
* `Machine.faults_periodic` — what is counted and reported in any number of cycles.
-/

namespace ControlUnit

namespace Machine

variable {program : Program} {new : Machine} {period : Nat}

/-! ## Machines that fault -/

/-- A machine that faults comes back to where it began. -/
theorem FirstFault.isPeriodicPt (h : new.FirstFault period) (hNew : ofProgram program = .ok new) :
    Function.IsPeriodicPt afterCycle period new := by
  have hProgram : (afterCycle^[period - 1] new).program = new.program :=
    Reference.program_afterCycle_iterate (load_of_ofProgram hNew) _
  have hPeriod : period = period - 1 + 1 := by
    have := h.pos
    omega
  show afterCycle^[period] new = new
  rw [hPeriod, Function.iterate_succ_apply', afterCycle_of_meetsFault h.meets]
  exact reset_eq_new hNew hProgram

/-- The cycles that meet a fault are those whose number the period divides. -/
theorem FirstFault.meetsFault_iff (h : new.FirstFault period) (hNew : ofProgram program = .ok new)
    (index : Nat) : (afterCycle^[index] new).meetsFault = true ↔ period ∣ index + 1 := by
  -- The machine is the one at the same place of the first period, where only the last
  -- cycle meets a fault.
  have hPlace : index % period < period := Nat.mod_lt index h.pos
  have hNumber : index + 1 = period * (index / period) + (index % period + 1) := by
    have := Nat.div_add_mod index period
    omega
  rw [← (h.isPeriodicPt hNew).iterate_mod_apply index, hNumber,
    Nat.dvd_add_right (Nat.dvd_mul_right period _)]
  by_cases hLast : index % period + 1 = period
  · have hIndex : index % period = period - 1 := by omega
    rw [hIndex, h.meets, ← hIndex, hLast]
    exact iff_of_true rfl (Nat.dvd_refl period)
  · have hBefore : index % period + 1 < period := by omega
    rw [h.before _ hBefore]
    refine iff_of_false Bool.false_ne_true fun hDvd => ?_
    have := Nat.le_of_dvd (Nat.succ_pos _) hDvd
    omega

/-- One fault in every period. -/
theorem FirstFault.faultCount_eq (h : new.FirstFault period) (hNew : ofProgram program = .ok new)
    (count : Nat) : new.faultCount count = count / period := by
  induction count with
  | zero => exact (Nat.zero_div period).symm
  | succ count ih =>
      rw [faultCount] at ih ⊢
      rw [Nat.count_succ, ih, Nat.succ_div]
      simp only [h.meetsFault_iff hNew count]

/-! ## Machines that never fault -/

/-- A program all of whose cells have known opcodes never faults. -/
theorem meetsFault_eq_false_of_known (hNew : ofProgram program = .ok new)
    (hCells : ∀ address, (Reference.bytes (program.cell address)).opcode ≤ 0x0B) (index : Nat) :
    (afterCycle^[index] new).meetsFault = false := by
  have hProgram : (afterCycle^[index] new).program = new.program :=
    Reference.program_afterCycle_iterate (load_of_ofProgram hNew) index
  have hRead : ∀ address, (afterCycle^[index] new).program.read address = program.cell address := by
    intro address
    rw [hProgram, read_of_ofProgram hNew]
  have hStart : new.phase = .fetch := by rw [eq_of_ofProgram hNew]
  have hPhase := Reference.phase_afterCycle_iterate hStart index
  rw [meetsFault, (Reference.cycle_ofMachine hRead hPhase).2, Reference.result, Instruction.decode,
    ← Reference.bytes_eq_split]
  have hOpcode := hCells (afterCycle^[index] new).pc
  cases hDecode : Instruction.ofFields
      (Reference.bytes (program.cell (afterCycle^[index] new).pc)) with
  | ok instruction => rfl
  | error reason =>
      have hUnknown := (Instruction.ofFields_eq_error_iff.1 hDecode).1
      exact absurd hUnknown (UInt8.not_lt.2 hOpcode)

end Machine

/-! ## What is reported -/

/-- A session that has loaded a program and done nothing since. -/
inductive Session.Fresh : Program → Session → Prop where
  | sample : Fresh Sample.blink Session.new
  | source (before : Session) {text : String} {program : Program} (h : assemble text = .ok program) :
      Fresh program (before.loadSource text).2
  | image (before : Session) {text : String} {program : Program}
      (h : Image.read text = .ok program) : Fresh program (before.loadImage text).2

/-- A number of faults is expected in a number of cycles of a new machine, and that is the
number that is met, that the run of a session returns, and that the run of the command
line prints in any JSON format. -/
structure FaultsReported (program : Program) (new : Machine) (expected : Nat → Nat) : Prop where
  met : ∀ count, new.faultCount count = expected count
  session : ∀ session, Session.Fresh program session → ∀ count : UInt32,
    (session.run count).1 = expected count.toNat
  command : ∀ (format : JsonFormat) (tree : CommandLine.FileTree) options settings,
    tree.settings? format options = some settings →
    tree.program? options.program = some program → settings.breakpoints = [] →
    ["━━━ Result ━━━", "Cycles: " ++ Text.decimal settings.maxCycles.toNat,
      "Faults: " ++ Text.decimal (expected settings.maxCycles.toNat)]
        <:+: (((CommandLine.Command.run options).script format).runIn tree).1.output

section Reports

variable {program : Program} {new : Machine}

theorem Session.Fresh.machine_eq {session : Session} (h : Fresh program session)
    (hNew : Machine.ofProgram program = .ok new) : session.machine = new := by
  cases h with
  | sample =>
      rw [ofProgram_blink] at hNew
      exact Except.ok.inj hNew
  | source before h => simp only [loadSource, h, loadProgram, hNew]
  | image before h => simp only [loadImage, h, loadProgram, hNew]

/-- What is met is what is reported. -/
theorem faultsReported_of_met {expected : Nat → Nat} (hNew : Machine.ofProgram program = .ok new)
    (hMet : ∀ count, new.faultCount count = expected count) :
    FaultsReported program new expected := by
  constructor
  · exact hMet
  · intro session hFresh count
    rw [Session.run, Session.runFrom_eq, hFresh.machine_eq hNew, hMet]
    exact Nat.zero_add _
  · intro format tree options settings hSettings hProgram hBreakpoints
    obtain ⟨loading, hRun⟩ := CommandLine.runScript_runIn hSettings hProgram hNew
    obtain ⟨-, hCycles, hFaults⟩ := Run.ofMachine_of_no_breakpoints hBreakpoints new
    have hCounts := CommandLine.counts_infix_runLines format settings new
    rw [hCycles, hFaults, hMet] at hCounts
    rw [hRun]
    exact hCounts.trans (List.suffix_append loading _).isInfix

/-- **Faulting programs are periodic.**  If the new machine for a program meets its first
fault in some cycle, that number of cycles is a period: any number of cycles meets one
fault in every period, as the runs report, and leaves the machine that the cycles since
the last full period leave.  If it never meets a fault, no run reports one. -/
theorem Machine.faults_periodic (hNew : Machine.ofProgram program = .ok new) :
    (∀ period, new.FirstFault period →
      FaultsReported program new (fun count => count / period) ∧
        ∀ count, afterCycle^[count] new = afterCycle^[count % period] new) ∧
    ((∀ index, (afterCycle^[index] new).meetsFault = false) →
      FaultsReported program new fun _ => 0) := by
  constructor
  · intro period hFirst
    refine ⟨faultsReported_of_met hNew (hFirst.faultCount_eq hNew), fun count => ?_⟩
    exact ((hFirst.isPeriodicPt hNew).iterate_mod_apply count).symm
  · intro hNever
    refine faultsReported_of_met hNew fun count => Nat.count_of_forall_not fun index _ => ?_
    rw [hNever index]
    exact Bool.false_ne_true

/-- An image of the program that faults, in a file of its own. -/
def faultingTree : CommandLine.FileTree :=
  CommandLine.FileTree.add {} "faulting.hex" "011F07\n0A1F00\n7F1234\n".toUTF8

set_option maxRecDepth 10000 in
/-- A million cycles of the program that faults in its third, from the image in a file, and
a million of the sample, which never does. -/
theorem Machine.faults_periodic_faultingProgram :
    let options : CommandLine.RunOptions :=
      { program := "faulting.hex", maxCycles? := some 1000000 }
    faultingMachine.FirstFault 3 ∧
      afterCycle^[1000000] faultingMachine = afterCycle^[1] faultingMachine ∧
      ["━━━ Result ━━━", "Cycles: 1000000", "Faults: 333333"]
        <:+: (((CommandLine.Command.run options).script .strict).runIn faultingTree).1.output ∧
      (Session.new.run 1000000).1 = 0 := by
  intro options
  have hFirst : faultingMachine.FirstFault 3 := Machine.firstFault_faultingMachine
  have hProgram : faultingTree.program? "faulting.hex" = some faultingProgram := by decide +kernel
  have hWords : (Sample.blink.words.all fun word => (Reference.bytes word).opcode ≤ 0x0B) = true := by
    decide
  have hCells : ∀ address, (Reference.bytes (Sample.blink.cell address)).opcode ≤ 0x0B :=
    Program.forall_cell (by decide) hWords
  have hNever := meetsFault_eq_false_of_known Session.ofProgram_blink hCells
  obtain ⟨hReported, hState⟩ := (faults_periodic ofProgram_faultingProgram).1 3 hFirst
  refine ⟨hFirst, hState 1000000, ?_, ?_⟩
  · have hCycles : "Cycles: " ++ Text.decimal 1000000 = "Cycles: 1000000" := by decide
    have hFaults : "Faults: " ++ Text.decimal (1000000 / 3) = "Faults: 333333" := by decide
    rw [← hCycles, ← hFaults]
    exact hReported.command .strict faultingTree options { maxCycles := 1000000 } rfl hProgram rfl
  · exact ((faults_periodic Session.ofProgram_blink).2 hNever).session _ .sample 1000000

end Reports

end ControlUnit
