import ControlUnit.Proofs.Operation

/-!
# Data pages

What data memory holds at the end of a run.  Only two instructions write to it, an output
to the I/O page and a store to the extended page, and every reset clears it.  So a cell holds
what was last written to it since the last reset, or zero, and the log of a run is enough to
tell: going back from its end, the first event that writes the cell or is a reset decides.

The pages are apart.  No operand reaches beyond the page of its instruction, so what one page
holds never depends on what is written to the other, and no access leaves data memory.  For
the reads this is said with memory replaced by any function of the address
(`Instruction.effectReading`), because a memory of 512 cells cannot show a read beyond them.

## Main results

* `Machine.logAll_induction` — what every event and every silent operation keeps holds at
  the end of a run.
* `WritesTo.read_performAll` — a cell holds what was written to it last.
* `Machine.dataPages_performAll` — both pages at the end of a run, and what instructions
  access.
-/

namespace ControlUnit

/-! ## Writes in a log -/

/-- Whether an event leaves the machine as it is after a reset. -/
def Event.isReset : Event → Bool
  | .transition _ (.fetched ..) => false
  | .transition _ (.decoded _) => false
  | .transition _ (.executed _) => false
  | .transition _ (.recovered _) => true
  | .reset => true

/-- The byte that an output writes to an I/O address, read from its register before. -/
def Event.outputTo (address : UInt8) : Event → Option UInt8
  | .transition before (.executed (.output target register)) =>
    if target = address then some (before.registers.get register) else none
  | _ => none

/-- The byte that a store writes to an address of the extended page. -/
def Event.storedTo (address : UInt8) : Event → Option UInt8
  | .transition before (.executed (.store target register)) =>
    if target = address then some (before.registers.get register) else none
  | _ => none

/-- What is found last in a log since the last reset in it. -/
def latest {α : Type} (find : Event → Option α) (log : List Event) : Option α :=
  (log.reverse.takeWhile fun event => !event.isReset).findSome? find

def Operation.writesData : Operation → Bool
  | .writeData .. => true
  | _ => false

theorem latest_concat {α : Type} (find : Event → Option α) (log : List Event) (event : Event) :
    latest find (log ++ [event])
      = if event.isReset then none else (find event).or (latest find log) := by
  rw [latest, List.reverse_append, List.reverse_singleton, List.singleton_append,
    List.takeWhile_cons]
  cases hReset : event.isReset with
  | true => rfl
  | false =>
      simp only [Bool.not_false, if_true, List.findSome?_cons, latest, Bool.false_eq_true, if_false]
      cases find event with
      | none => rfl
      | some found => rfl

/-! ## Runs -/

namespace Machine

variable {machine : Machine}

theorem transitions_induction {motive : List Event → Machine → Prop} {log : List Event}
    (hStart : motive log machine)
    (hStep : ∀ log before, motive log before →
      motive (log ++ [.transition before before.step.1]) before.afterStep) (count : Nat) :
    motive (log ++ machine.transitions count) (afterStep^[count] machine) := by
  induction count generalizing machine log with
  | zero => simpa [transitions] using hStart
  | succ count ih =>
      have hNext := ih (hStep log machine hStart)
      rwa [List.append_assoc, List.singleton_append] at hNext

/-- What every event keeps, and every operation without events, holds after all operations
of the log that has been kept along with them. -/
theorem logAll_induction {motive : List Event → Machine → Prop} {operations : List Operation}
    {log : List Event} (hStart : motive log machine)
    (hStep : ∀ log before, motive log before →
      motive (log ++ [.transition before before.step.1]) before.afterStep)
    (hReset : ∀ log before, motive log before → motive (log ++ [.reset]) before.reset)
    (hSilent : ∀ log before, ∀ operation ∈ operations, before.log operation = [] →
      motive log before → motive log (before.perform operation).2) :
    motive (log ++ machine.logAll operations) (machine.performAll operations).2 := by
  induction operations generalizing machine log with
  | nil => simpa [logAll, performAll] using hStart
  | cons operation rest ih =>
      have hHere : motive (log ++ machine.log operation) (machine.perform operation).2 := by
        have hQuiet : machine.log operation = [] →
            motive (log ++ machine.log operation) (machine.perform operation).2 := by
          intro hEmpty
          rw [hEmpty, List.append_nil]
          exact hSilent log machine operation (by simp) hEmpty hStart
        cases operation with
        | step => exact hStep log machine hStart
        | cycle =>
            have hCycle := transitions_induction hStart hStep machine.phase.transitionsLeft
            rwa [← afterCycle_eq] at hCycle
        | reset => exact hReset log machine hStart
        | forcePhase code =>
            cases hPhase : Phase.ofCode? code with
            | some phase => exact hQuiet (by simp [Machine.log, hPhase])
            | none =>
                have hCleared := hReset log machine hStart
                simpa only [Machine.log, perform, forcePhase, hPhase, Option.isNone_none, if_true]
                  using hCleared
        | setRegister register value => exact hQuiet rfl
        | writeData address value => exact hQuiet rfl
        | pushByte value => exact hQuiet rfl
        | popByte => exact hQuiet rfl
      have hLater := ih hHere fun log before other hMem =>
        hSilent log before other (List.mem_cons_of_mem operation hMem)
      rwa [List.append_assoc] at hLater

theorem log_cycle_ne_nil (machine : Machine) : machine.log .cycle ≠ [] := by
  rw [log]
  cases machine.phase <;> exact List.cons_ne_nil _ _

theorem data_perform_of_silent {operation : Operation} (hSilent : machine.log operation = [])
    (hHost : operation.writesData = false) :
    (machine.perform operation).2.data = machine.data := by
  cases operation with
  | step => cases hSilent
  | cycle => exact absurd hSilent (log_cycle_ne_nil machine)
  | reset => cases hSilent
  | forcePhase code =>
      cases hPhase : Phase.ofCode? code with
      | some phase => simp only [perform, forcePhase, hPhase]
      | none => simp [log, hPhase] at hSilent
  | setRegister register value => rfl
  | writeData address value => cases hHost
  | pushByte value => rfl
  | popByte => rfl

end Machine

/-! ## One cell -/

/-- `written` finds the byte that an event writes to a cell. -/
structure WritesTo (cell : UInt16) (written : Event → Option UInt8) : Prop where
  fetched : ∀ before address word, written (.transition before (.fetched address word)) = none
  decoded : ∀ before fields, written (.transition before (.decoded fields)) = none
  executed : ∀ before instruction,
    (before.executed instruction).data.read cell
      = (written (.transition before (.executed instruction))).getD (before.data.read cell)

namespace WritesTo

variable {cell : UInt16} {written : Event → Option UInt8}

/-- A transition changes a cell as its event says. -/
theorem read_afterStep (h : WritesTo cell written) (machine : Machine) :
    machine.afterStep.data.read cell
      = if (Event.transition machine machine.step.1).isReset then 0
        else (written (.transition machine machine.step.1)).getD (machine.data.read cell) := by
  rw [Machine.afterStep]
  rcases machine.step_cases with
    ⟨-, hStep⟩ | ⟨-, hStep⟩ | ⟨instruction, -, -, hStep⟩ | ⟨reason, -, -, hStep⟩
  · rw [hStep, h.fetched]
    rfl
  · rw [hStep, h.decoded]
    rfl
  · rw [hStep]
    exact h.executed machine instruction
  · rw [hStep]
    exact DataMemory.read_zeroed cell

/-- A cell holds what was written to it last since the last reset, or zero. -/
theorem read_performAll (h : WritesTo cell written) {program : Program} {new : Machine}
    (hNew : Machine.ofProgram program = .ok new) {operations : List Operation}
    (hHost : ∀ operation ∈ operations, operation.writesData = false) :
    (new.performAll operations).2.data.read cell
      = (latest written (new.logAll operations)).getD 0 := by
  have hStart : new.data.read cell = (latest written []).getD 0 := by
    rw [Machine.eq_of_ofProgram hNew]
    exact DataMemory.read_zeroed cell
  refine Machine.logAll_induction
    (motive := fun log machine => machine.data.read cell = (latest written log).getD 0)
    hStart ?_ ?_ ?_
  · intro log before hBefore
    rw [h.read_afterStep, latest_concat, hBefore]
    split
    · rfl
    · cases written (.transition before before.step.1) with
      | none => rfl
      | some value => rfl
  · intro log before _
    rw [latest_concat]
    exact DataMemory.read_zeroed cell
  · intro log before operation hMem hSilent hBefore
    rw [Machine.data_perform_of_silent hSilent (hHost operation hMem), hBefore]

end WritesTo

/-! ## Two pages -/

namespace DataMemory

variable (memory : DataMemory) (target address value : UInt8)

theorem read_write_io :
    (memory.write target.toUInt16 value).read address.toUInt16
      = if target = address then value else memory.read address.toUInt16 := by
  have hTarget := target.toNat_lt
  have hSize : target.toUInt16.toNat < dataSize := by
    rw [UInt8.toNat_toUInt16, dataSize]
    omega
  rw [read_write]
  simp only [hSize, and_true, UInt8.toUInt16_inj]

theorem read_write_extended :
    (memory.write (extendedAddress target) value).read (extendedAddress address)
      = if target = address then value else memory.read (extendedAddress address) := by
  have hTarget := target.toNat_lt
  have hSize : (extendedAddress target).toNat < dataSize := by
    rw [toNat_extendedAddress, dataSize]
    omega
  have hSame : extendedAddress target = extendedAddress address ↔ target = address := by
    rw [← UInt16.toNat_inj, toNat_extendedAddress, toNat_extendedAddress, ← UInt8.toNat_inj]
    omega
  rw [read_write]
  simp only [hSize, and_true, hSame]

/-- No operand of one page selects a cell of the other. -/
theorem extendedAddress_ne_io : extendedAddress target ≠ address.toUInt16 := by
  intro hSame
  have hAddress := address.toNat_lt
  have hToNat := congrArg UInt16.toNat hSame
  rw [toNat_extendedAddress, UInt8.toNat_toUInt16] at hToNat
  omega

@[simp] theorem read_io_write_extended :
    (memory.write (extendedAddress target) value).read address.toUInt16
      = memory.read address.toUInt16 := by
  rw [read_write, if_neg fun h => extendedAddress_ne_io target address h.1]

@[simp] theorem read_extended_write_io :
    (memory.write target.toUInt16 value).read (extendedAddress address)
      = memory.read (extendedAddress address) := by
  rw [read_write, if_neg fun h => extendedAddress_ne_io address target h.1.symm]

end DataMemory

/-- Data memory after an instruction: an output writes to the I/O page, a store to the
extended page, and no other instruction writes. -/
theorem Machine.data_executed (machine : Machine) (instruction : Instruction) :
    (machine.executed instruction).data =
      match instruction with
      | .output address register =>
        machine.data.write address.toUInt16 (machine.registers.get register)
      | .store address register =>
        machine.data.write (extendedAddress address) (machine.registers.get register)
      | _ => machine.data := by
  cases instruction <;> rfl

theorem writesTo_outputTo (address : UInt8) :
    WritesTo address.toUInt16 (Event.outputTo address) where
  fetched _ _ _ := rfl
  decoded _ _ := rfl
  executed before instruction := by
    rw [before.data_executed]
    cases instruction with
    | output target register =>
        rw [DataMemory.read_write_io, Event.outputTo]
        split <;> rfl
    | store target register =>
        rw [DataMemory.read_io_write_extended]
        rfl
    | _ => rfl

theorem writesTo_storedTo (address : UInt8) :
    WritesTo (extendedAddress address) (Event.storedTo address) where
  fetched _ _ _ := rfl
  decoded _ _ := rfl
  executed before instruction := by
    rw [before.data_executed]
    cases instruction with
    | output target register =>
        rw [DataMemory.read_extended_write_io]
        rfl
    | store target register =>
        rw [DataMemory.read_write_extended, Event.storedTo]
        split <;> rfl
    | _ => rfl

/-! ## Accesses -/

namespace Instruction

/-- The effect of an instruction if `read` answers for data memory. -/
def effectReading (registers : RegisterFile) (read : UInt16 → UInt8) (pc : UInt8) :
    Instruction → Effect
  | input register address => .setRegister register (read address.toUInt16)
  | load register address => .setRegister register (read (extendedAddress address))
  | other => other.effect registers .zeroed pc

theorem effect_eq_effectReading (instruction : Instruction) (registers : RegisterFile)
    (data : DataMemory) (pc : UInt8) :
    instruction.effect registers data pc = instruction.effectReading registers data.read pc := by
  cases instruction <;> rfl

/-- An instruction reads data memory below `size` only, and writes only there. -/
structure AccessesBelow (size : Nat) (instruction : Instruction) : Prop where
  effect : ∀ registers (data : DataMemory) pc,
    instruction.effect registers data pc = instruction.effectReading registers data.read pc
  reads : ∀ registers pc (first second : UInt16 → UInt8),
    (∀ address : UInt16, address.toNat < size → first address = second address) →
      instruction.effectReading registers first pc = instruction.effectReading registers second pc
  writes : ∀ registers pc (read : UInt16 → UInt8) address value,
    instruction.effectReading registers read pc = .writeData address value → address.toNat < size

theorem accessesBelow (instruction : Instruction) : instruction.AccessesBelow 512 where
  effect := instruction.effect_eq_effectReading
  reads registers pc first second hAgree := by
    cases instruction with
    | input register address =>
        have hAddress := address.toNat_lt
        rw [effectReading, effectReading, hAgree]
        rw [UInt8.toNat_toUInt16]
        omega
    | load register address =>
        have hAddress := address.toNat_lt
        rw [effectReading, effectReading, hAgree]
        rw [toNat_extendedAddress]
        omega
    | _ => rfl
  writes registers pc read address value hWrite := by
    cases instruction with
    | output target register =>
        have hTarget := target.toNat_lt
        cases hWrite
        rw [UInt8.toNat_toUInt16]
        omega
    | store target register =>
        have hTarget := target.toNat_lt
        cases hWrite
        rw [toNat_extendedAddress]
        omega
    | _ => cases hWrite

end Instruction

namespace Machine

/-- **The pages of data memory**: at the end of a run without writes by the host, a cell of
the I/O page holds what the last output to its address since the last reset read from its
register, a cell of the extended page what the last store did, and either of them zero if
there was none.  No instruction accesses an address beyond the two pages, an output changes
nothing that a load reads, and a store nothing that an input reads. -/
theorem dataPages_performAll {program : Program} {new : Machine}
    (hNew : ofProgram program = .ok new) (operations : List Operation)
    (hHost : ∀ operation ∈ operations, operation.writesData = false) :
    (∀ address : UInt8, (new.performAll operations).2.data.read address.toUInt16
      = (latest (Event.outputTo address) (new.logAll operations)).getD 0) ∧
    (∀ address : UInt8, (new.performAll operations).2.data.read (address.toUInt16 + 256)
      = (latest (Event.storedTo address) (new.logAll operations)).getD 0) ∧
    (∀ instruction : Instruction, instruction.AccessesBelow 512) ∧
    (∀ (machine : Machine) (target source address register : UInt8) registers pc,
      (Instruction.load register address).effect registers
          (machine.executed (.output target source)).data pc
        = (Instruction.load register address).effect registers machine.data pc) ∧
    (∀ (machine : Machine) (target source address register : UInt8) registers pc,
      (Instruction.input register address).effect registers
          (machine.executed (.store target source)).data pc
        = (Instruction.input register address).effect registers machine.data pc) := by
  refine ⟨fun address => ?_, fun address => ?_, Instruction.accessesBelow, ?_, ?_⟩
  · exact (writesTo_outputTo address).read_performAll hNew hHost
  · exact (writesTo_storedTo address).read_performAll hNew hHost
  · intro machine target source address register registers pc
    simp only [Instruction.effect, data_executed, DataMemory.read_extended_write_io]
  · intro machine target source address register registers pc
    simp only [Instruction.effect, data_executed, DataMemory.read_io_write_extended]

/-! ## A sample -/

/-- Write to one address of both pages, then a second time to the I/O page. -/
def writingProgram : Program := { words := [0x01101E, 0x030510, 0x050510, 0x01102A, 0x030510] }

/-- The new machine for the program that writes to both pages. -/
def writingMachine : Machine := { program := ProgramMemory.load { image := writingProgram } }

theorem ofProgram_writingProgram : ofProgram writingProgram = .ok writingMachine := rfl

set_option maxRecDepth 10000 in
/-- A run that outputs before a reset, skips the output after it by a forced phase, stores to
the same operand and then outputs another byte. -/
theorem dataPages_writingProgram :
    let operations : List Operation :=
      [.cycle, .cycle, .reset, .cycle, .step, .forcePhase 0, .cycle, .cycle, .cycle, .cycle]
    (∀ operation ∈ operations, operation.writesData = false) ∧
      latest (Event.outputTo 5) (writingMachine.logAll operations) = some 42 ∧
      (writingMachine.performAll operations).2.data.read (UInt8.toUInt16 5) = 42 := by
  intro operations
  have hHost : ∀ operation ∈ operations, operation.writesData = false := by decide
  have hLog : latest (Event.outputTo 5) (writingMachine.logAll operations) = some 42 := rfl
  have hRead := (dataPages_performAll ofProgram_writingProgram operations hHost).1 5
  rw [hLog] at hRead
  exact ⟨hHost, hLog, hRead⟩

end Machine

end ControlUnit
