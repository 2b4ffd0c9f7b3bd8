import ControlUnit.Assembly.Statement
import ControlUnit.Listing
import ControlUnit.Proofs.Lockstep
import ControlUnit.Proofs.Reference

/-!
# Ignored bits

A word has bits that nothing looks at: its upper eight bits, the operands that its opcode
does not use, and the bits of a register operand above the fifth.  What is left of it is
its meaning.  Two programs whose words mean the same cannot be told apart by a host,
whatever it does to the machines that run them.

The instruction register and the fields keep the ignored bits, so the machines themselves
are not equal.  They are related by `Alike`, which compares these two, and the cells of
program memory, by their meaning and everything else by equality.  An instruction with
its register operands reduced (`Instruction.reduced`) has the effect and the text of the
instruction, and words that mean the same encode instructions that reduce to the same.

## Main results

* `Instruction.executed_reduced`, `Instruction.text_reduced` — the bits that a register
  operand has above the fifth are ignored.
* `Machine.lockstep_alike` — machines that are alike make the same transitions.
* `Machine.performAll_sameMeaning` — programs that mean the same run the same.
-/

namespace ControlUnit

open Assembly (OperandKind operandKinds)

/-! ## The meaning of a word -/

/-- What an operand stands for.  A register operand counts modulo thirty-two. -/
def Assembly.OperandKind.meaning : OperandKind → UInt8 → Nat
  | .register, byte => byte.toNat % 32
  | .value, byte => byte.toNat

/-- The opcode byte, and what the operands stand for that the opcode uses.  An unknown
opcode uses none. -/
def Fields.meaning (fields : Fields) : UInt8 × List Nat :=
  (fields.opcode,
    match Opcode.ofCode? fields.opcode with
    | some opcode =>
      List.zipWith OperandKind.meaning (operandKinds opcode) [fields.first, fields.second]
    | none => [])

def wordMeaning (word : UInt32) : UInt8 × List Nat := (Reference.bytes word).meaning

theorem wordMeaning_eq (word : UInt32) : wordMeaning word = (Fields.split word).meaning := by
  rw [wordMeaning, Reference.bytes_eq_split]

/-- Programs whose words mean the same one by one have cells that mean the same. -/
theorem wordMeaning_cell {first second : Program}
    (h : first.words.map wordMeaning = second.words.map wordMeaning) (address : UInt8) :
    wordMeaning (first.cell address) = wordMeaning (second.cell address) := by
  have hCell : ∀ program : Program, wordMeaning (program.cell address)
      = ((program.words.map wordMeaning)[address.toNat]?).getD (wordMeaning 0) := by
    intro program
    rw [Program.cell, List.getElem?_map, Option.getD_map]
  rw [hCell, hCell, h]

/-! ## Register operands -/

theorem registerIndex_mod (operand : UInt8) : registerIndex (operand % 32) = registerIndex operand := by
  apply Fin.ext
  show (operand % 32).toNat % 32 = operand.toNat % 32
  rw [UInt8.toNat_mod]
  exact Nat.mod_mod operand.toNat 32

namespace Instruction

/-- The instruction with the numbers of the registers it selects as its register
operands. -/
def reduced : Instruction → Instruction
  | nop => nop
  | loadImmediate register value => loadImmediate (register % 32) value
  | move target source => move (target % 32) (source % 32)
  | output address register => output address (register % 32)
  | input register address => input (register % 32) address
  | store address register => store address (register % 32)
  | load register address => load (register % 32) address
  | jump target => jump target
  | call target => call target
  | ret => ret
  | push register => push (register % 32)
  | pop register => pop (register % 32)

theorem text_reduced (instruction : Instruction) : instruction.reduced.text = instruction.text := by
  have hName : ∀ operand, registerName (operand % 32) = registerName operand := by
    intro operand
    rw [registerName, registerName, registerIndex_mod]
  cases instruction <;> simp only [reduced, text, opcode, hName]

theorem executed_reduced (machine : Machine) (instruction : Instruction) :
    machine.executed instruction.reduced = machine.executed instruction := by
  have hGet : ∀ operand, machine.registers.get (operand % 32) = machine.registers.get operand := by
    intro operand
    simp only [RegisterFile.get, registerIndex_mod]
  have hSet : ∀ operand value,
      machine.registers.set (operand % 32) value = machine.registers.set operand value := by
    intro operand value
    simp only [RegisterFile.set, registerIndex_mod]
  unfold Machine.executed
  cases instruction <;> simp only [reduced, effect, Machine.apply, hGet, hSet]

end Instruction

/-- Fields that mean the same encode instructions that reduce to the same, or no
instruction. -/
theorem Fields.ofFields_of_meaning {first second : Fields} (h : first.meaning = second.meaning) :
    (∃ firstInstruction secondInstruction,
      Instruction.ofFields first = .ok firstInstruction ∧
      Instruction.ofFields second = .ok secondInstruction ∧
      firstInstruction.reduced = secondInstruction.reduced) ∨
    (∃ reason, Instruction.ofFields first = .error reason ∧
      Instruction.ofFields second = .error reason) := by
  obtain ⟨opcodeByte, firstLeft, firstRight⟩ := first
  obtain ⟨otherByte, secondLeft, secondRight⟩ := second
  obtain ⟨hByte, hOperands⟩ := Prod.mk.inj h
  subst hByte
  have hRegister : ∀ left right : UInt8,
      left.toNat % 32 = right.toNat % 32 ↔ left % 32 = right % 32 := by
    intro left right
    rw [← UInt8.toNat_inj, UInt8.toNat_mod, UInt8.toNat_mod]
    rfl
  simp only [Instruction.ofFields]
  cases hCode : Opcode.ofCode? opcodeByte with
  | none => exact .inr ⟨_, rfl, rfl⟩
  | some opcode =>
      refine .inl ⟨_, _, rfl, rfl, ?_⟩
      simp only [hCode] at hOperands
      -- One case for each way in which an opcode uses its operands.
      cases opcode <;>
        simp only [operandKinds, List.zipWith_cons_cons, List.zipWith_nil_left,
          OperandKind.meaning, List.cons.injEq, and_true, UInt8.toNat_inj, hRegister] at hOperands <;>
        simp only [Instruction.ofOpcode, Instruction.reduced, hOperands]

/-! ## What a host sees -/

/-- Transitions that a host cannot tell apart by the faults and the texts they report. -/
inductive Transition.Alike : Transition → Transition → Prop where
  | fetched (address : UInt8) {first second : UInt32}
      (h : wordMeaning first = wordMeaning second) :
      Alike (.fetched address first) (.fetched address second)
  | decoded {first second : Fields} (h : first.meaning = second.meaning) :
      Alike (.decoded first) (.decoded second)
  | executed {first second : Instruction} (h : first.text = second.text) :
      Alike (.executed first) (.executed second)
  | recovered (fault : Fault) : Alike (.recovered fault) (.recovered fault)

/-- Reports that agree in their faults and in the texts of their instructions. -/
inductive Report.Alike : Report → Report → Prop where
  | nothing : Alike .nothing .nothing
  | moved {first second : Transition} (h : first.Alike second) :
      Alike (.moved first) (.moved second)
  | executed {first second : Instruction} (h : first.text = second.text) :
      Alike (.cycled (.ok first)) (.cycled (.ok second))
  | recovered (fault : Fault) : Alike (.cycled (.error fault)) (.cycled (.error fault))
  | forced (result : Except Fault Phase) : Alike (.forced result) (.forced result)
  | popped (byte : UInt8) : Alike (.popped byte) (.popped byte)

theorem Transition.Alike.cycled {first second : Transition} (h : first.Alike second)
    {firstResult secondResult : Except Fault Instruction}
    (hFirst : first.result? = some firstResult) (hSecond : second.result? = some secondResult) :
    Report.Alike (.cycled firstResult) (.cycled secondResult) := by
  cases h with
  | fetched address h => cases hFirst
  | decoded h => cases hFirst
  | executed h =>
      cases hFirst
      cases hSecond
      exact .executed h
  | recovered fault =>
      cases hFirst
      cases hSecond
      exact .recovered fault

namespace Machine

/-- Machines that agree in all that a host can see but the words they run. -/
structure SameState (first second : Machine) : Prop where
  phase : first.phase = second.phase
  pc : first.pc = second.pc
  mar : first.mar = second.mar
  status : first.status = second.status
  cycles : first.cycles = second.cycles
  registers : first.registers = second.registers
  data : first.data = second.data
  stack : first.stack = second.stack

/-- Machines in the same state, whose words mean the same wherever they hold one. -/
structure Alike (first second : Machine) : Prop extends SameState first second where
  instructionRegister :
    wordMeaning first.instructionRegister = wordMeaning second.instructionRegister
  fields : first.fields.meaning = second.fields.meaning
  cells : ∀ address,
    wordMeaning (first.program.read address) = wordMeaning (second.program.read address)
  firstLoaded : first.program.load = first.program
  secondLoaded : second.program.load = second.program

variable {first second : Machine}

/-! ## Machines that are alike -/

theorem SameState.eq_with (h : SameState first second) :
    second = { first with
      instructionRegister := second.instructionRegister
      fields := second.fields
      program := second.program } := by
  obtain ⟨hPhase, hPc, hMar, hStatus, hCycles, hRegisters, hData, hStack⟩ := h
  simp only [hPhase, hPc, hMar, hStatus, hCycles, hRegisters, hData, hStack]

/-- What an instruction does, it does without a look at the words of the machine. -/
theorem executed_with (machine : Machine) (word : UInt32) (fields : Fields)
    (program : ProgramMemory) (instruction : Instruction) :
    { machine with instructionRegister := word, fields := fields, program := program }.executed
        instruction
      = { machine.executed instruction with
          instructionRegister := word, fields := fields, program := program } := by
  unfold executed
  cases instruction <;> rfl

theorem SameState.executed (h : SameState first second) (instruction : Instruction) :
    SameState (first.executed instruction) (second.executed instruction) := by
  have hSecond : second.executed instruction = { first.executed instruction with
      instructionRegister := second.instructionRegister
      fields := second.fields
      program := second.program } := by
    rw [← executed_with, ← h.eq_with]
  rw [hSecond]
  exact ⟨rfl, rfl, rfl, rfl, rfl, rfl, rfl, rfl⟩

theorem Alike.executed (h : Alike first second) {firstInstruction secondInstruction : Instruction}
    (hReduced : firstInstruction.reduced = secondInstruction.reduced) :
    Alike (first.executed firstInstruction) (second.executed secondInstruction) := by
  have hState : SameState (first.executed firstInstruction) (second.executed secondInstruction) := by
    rw [← Instruction.executed_reduced first, ← Instruction.executed_reduced second, hReduced]
    exact h.toSameState.executed _
  constructor
  · exact hState
  · simpa only [instructionRegister_executed] using h.instructionRegister
  · simpa only [fields_executed] using h.fields
  · simpa only [program_executed] using h.cells
  · simpa only [program_executed] using h.firstLoaded
  · simpa only [program_executed] using h.secondLoaded

theorem Alike.reset (h : Alike first second) : Alike first.reset second.reset := by
  constructor
  · exact ⟨rfl, rfl, rfl, rfl, rfl, rfl, rfl, rfl⟩
  · rfl
  · rfl
  · show ∀ address, wordMeaning (first.program.load.read address)
      = wordMeaning (second.program.load.read address)
    rw [h.firstLoaded, h.secondLoaded]
    exact h.cells
  · exact ProgramMemory.load_load first.program
  · exact ProgramMemory.load_load second.program

theorem Alike.fetch (h : Alike first second) : Alike first.fetch second.fetch := by
  have hWord : wordMeaning (first.program.read first.pc)
      = wordMeaning (second.program.read second.pc) := by
    rw [← h.pc]
    exact h.cells first.pc
  exact
    { h with
      phase := rfl
      pc := congrArg (· + 1) h.pc
      mar := h.pc
      instructionRegister := hWord }

theorem Alike.decode (h : Alike first second) : Alike first.decode second.decode := by
  have hFields : (Fields.split first.instructionRegister).meaning
      = (Fields.split second.instructionRegister).meaning := by
    rw [← wordMeaning_eq, ← wordMeaning_eq]
    exact h.instructionRegister
  exact { h with phase := rfl, fields := hFields }

/-- Machines that are alike make transitions that are alike, and are alike after them. -/
theorem Alike.step (h : Alike first second) :
    first.step.1.Alike second.step.1 ∧ Alike first.step.2 second.step.2 := by
  cases hPhase : first.phase with
  | fetch =>
      rw [step_fetch hPhase, step_fetch (h.phase ▸ hPhase), ← h.pc]
      exact ⟨.fetched first.pc (h.cells first.pc), h.fetch⟩
  | decode =>
      rw [step_decode hPhase, step_decode (h.phase ▸ hPhase)]
      exact ⟨.decoded h.decode.fields, h.decode⟩
  | execute =>
      have hOther : second.phase = .execute := h.phase ▸ hPhase
      have hOpcode : first.fields.opcode = second.fields.opcode := congrArg Prod.fst h.fields
      simp only [Machine.step, hPhase, hOther]
      rcases Fields.ofFields_of_meaning h.fields with
        ⟨firstInstruction, secondInstruction, hFirst, hSecond, hReduced⟩ |
          ⟨reason, hFirst, hSecond⟩
      · rw [execute_of_ok hFirst, execute_of_ok hSecond]
        refine ⟨.executed ?_, h.executed hReduced⟩
        rw [← Instruction.text_reduced firstInstruction, hReduced, Instruction.text_reduced]
      · rw [execute_of_error hFirst, execute_of_error hSecond, hOpcode, h.mar]
        exact ⟨.recovered _, h.reset⟩

theorem lockstep_alike : Lockstep Alike Transition.Alike where
  phase h := h.phase
  transition h := h.step.1
  afterStep h := h.step.2

theorem Alike.perform (h : Alike first second) (operation : Operation) :
    (first.perform operation).1.Alike (second.perform operation).1 ∧
      Alike (first.perform operation).2 (second.perform operation).2 := by
  cases operation with
  | step => exact ⟨.moved h.step.1, h.step.2⟩
  | cycle =>
      obtain ⟨hLast, hAfter⟩ := lockstep_alike.cycle h
      exact ⟨hLast.cycled (result_atExecute first) (result_atExecute second), hAfter⟩
  | reset => exact ⟨.nothing, h.reset⟩
  | forcePhase code =>
      simp only [Machine.perform, forcePhase]
      cases Phase.ofCode? code with
      | some phase => exact ⟨.forced _, { h with phase := rfl }⟩
      | none => exact ⟨.forced _, h.reset⟩
  | setRegister register value =>
      exact ⟨.nothing, { h with registers := congrArg (·.set register value) h.registers }⟩
  | writeData address value =>
      exact ⟨.nothing, { h with data := congrArg (·.write address value) h.data }⟩
  | pushByte value =>
      exact ⟨.nothing, { h with stack := congrArg (·.push value) h.stack }⟩
  | popByte =>
      have hPopped : first.stack.popped = second.stack.popped := congrArg Stack.popped h.stack
      simp only [Machine.perform, popByte, hPopped]
      exact ⟨.popped _, { h with stack := congrArg Stack.pop h.stack }⟩

/-! ## Runs -/

/-- New machines for programs whose cells mean the same are alike. -/
theorem alike_of_ofProgram {firstProgram secondProgram : Program}
    (hFirst : ofProgram firstProgram = .ok first) (hSecond : ofProgram secondProgram = .ok second)
    (hCells : ∀ address, wordMeaning (firstProgram.cell address)
      = wordMeaning (secondProgram.cell address)) : Alike first second := by
  have hRead : ∀ address, wordMeaning (first.program.read address)
      = wordMeaning (second.program.read address) := by
    intro address
    rw [read_of_ofProgram hFirst, read_of_ofProgram hSecond, hCells]
  have hFirstLoaded := load_of_ofProgram hFirst
  have hSecondLoaded := load_of_ofProgram hSecond
  rw [eq_of_ofProgram hFirst, eq_of_ofProgram hSecond] at *
  exact ⟨⟨rfl, rfl, rfl, rfl, rfl, rfl, rfl, rfl⟩, rfl, rfl, hRead, hFirstLoaded, hSecondLoaded⟩

/-- **Ignored bits never influence a run.**  Machines made for programs whose cells mean
the same, and driven by the same operations, are always in the same state, and report the
same faults and instructions of the same text. -/
theorem performAll_sameMeaning {firstProgram secondProgram : Program}
    (hFirst : ofProgram firstProgram = .ok first) (hSecond : ofProgram secondProgram = .ok second)
    (hCells : ∀ address, wordMeaning (firstProgram.cell address)
      = wordMeaning (secondProgram.cell address)) (operations : List Operation) :
    SameState (first.performAll operations).2 (second.performAll operations).2 ∧
      List.Forall₂ Report.Alike (first.performAll operations).1
        (second.performAll operations).1 := by
  have hStart : Alike first second := alike_of_ofProgram hFirst hSecond hCells
  obtain ⟨hReports, hEnd⟩ := performAll_related Alike.perform hStart operations
  exact ⟨hEnd.toSameState, hReports⟩

/-- The program that faults, with other ignored bits: register operands thirty-two and
sixty-four higher, an operand that saving does not use, other operands of the unknown
opcode, and upper bits. -/
def disguisedProgram : Program := { words := [0x013F07, 0xFF0A5FAA, 0x807F0056] }

def disguisedMachine : Machine := { program := ProgramMemory.load { image := disguisedProgram } }

set_option maxRecDepth 10000 in
/-- The disguise does not show: not in two cycles with a write between them, not in the
fault of the third cycle, and not in the transitions after it. -/
theorem performAll_sameMeaning_disguisedProgram :
    let operations : List Operation :=
      [.cycle, .writeData 300 1, .cycle, .forcePhase 0, .cycle, .step, .step, .popByte]
    faultingProgram ≠ disguisedProgram ∧
      SameState (faultingMachine.performAll operations).2 (disguisedMachine.performAll operations).2 ∧
      List.Forall₂ Report.Alike (faultingMachine.performAll operations).1
        (disguisedMachine.performAll operations).1 := by
  intro operations
  have hMeaning : faultingProgram.words.map wordMeaning = disguisedProgram.words.map wordMeaning := by
    decide
  refine ⟨by decide, ?_⟩
  exact performAll_sameMeaning ofProgram_faultingProgram rfl (wordMeaning_cell hMeaning) operations

end Machine

end ControlUnit
