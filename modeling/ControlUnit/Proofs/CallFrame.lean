import ControlUnit.Proofs.Operation

/-!
# Call frames

A call saves its return address on the stack, a push the contents of a register.  What is
saved stays where it is, with everything below it, as long as no return and no pop reaches
down to it: pushes only add bytes on top, also those that the full stack drops, and a
return or pop above the saved byte takes off a byte that was added later.  So the return
or pop that does reach it finds what was saved, and leaves the stack as it was before.

The invariant is `Stack.Keeps`: the saved byte with the bytes below it is the lower part of
the stack.  It does not speak of the program, so the body may be any code, with calls in
it, jumps out of the subroutine and a counter that wraps around.

## Main results

* `Machine.stack_executed` — what an instruction can do to the stack.
* `Machine.keeps_iterate` — a body that stays above a saved byte keeps it.
* `Machine.frame_restored` — calls and returns pair up, and so do pushes and pops.
-/

namespace ControlUnit

/-- Whether an instruction takes a byte off the stack. -/
def Instruction.pops : Instruction → Bool
  | ret => true
  | pop _ => true
  | _ => false

namespace Stack

/-- The saved byte lies on the stack, right above the bytes of `base`. -/
def Keeps (saved : UInt8) (base : List UInt8) (stack : Stack) : Prop :=
  ∃ upper, stack.values = upper ++ saved :: base

variable {saved : UInt8} {base : List UInt8} {stack : Stack}

theorem keeps_push_self (h : stack.depth < stackSize) :
    (stack.push saved).Keeps saved stack.values := by
  rw [push_of_lt h]
  exact ⟨[], rfl⟩

/-- A push keeps what lies on the stack, whether its own byte is stored or dropped. -/
theorem Keeps.push (h : stack.Keeps saved base) (value : UInt8) :
    (stack.push value).Keeps saved base := by
  obtain ⟨upper, hValues⟩ := h
  by_cases hDepth : stack.depth < stackSize
  · refine ⟨value :: upper, ?_⟩
    rw [push_of_lt hDepth, hValues, List.cons_append]
  · refine ⟨upper, ?_⟩
    rw [push_of_le (Nat.not_lt.1 hDepth), hValues]

/-- A pop above the saved byte takes off a byte that lies on top of it. -/
theorem Keeps.pop (h : stack.Keeps saved base) (hDepth : base.length + 1 < stack.depth) :
    stack.pop.Keeps saved base := by
  obtain ⟨upper, hValues⟩ := h
  cases upper with
  | nil =>
      rw [depth, hValues, List.nil_append, List.length_cons] at hDepth
      omega
  | cons first rest =>
      refine ⟨rest, ?_⟩
      rw [Stack.pop, hValues]
      rfl

/-- At the depth of the saved byte a pop gives it, and leaves what lies below. -/
theorem Keeps.popped_pop (h : stack.Keeps saved base) (hDepth : stack.depth = base.length + 1) :
    stack.popped = saved ∧ stack.pop.values = base := by
  obtain ⟨upper, hValues⟩ := h
  have hUpper : upper = [] := by
    rw [depth, hValues, List.length_append, List.length_cons] at hDepth
    exact List.length_eq_zero_iff.1 (by omega)
  rw [hUpper, List.nil_append] at hValues
  rw [Stack.popped, Stack.pop, hValues]
  exact ⟨rfl, rfl⟩

end Stack

namespace Machine

variable {machine : Machine} {saved : UInt8} {base : List UInt8}

/-! ## One cycle -/

/-- What an instruction can do to the stack: a return or pop takes the top off, any other
instruction leaves the stack or pushes a byte. -/
theorem stack_executed (machine : Machine) (instruction : Instruction) :
    (instruction.pops = true ∧ (machine.executed instruction).stack = machine.stack.pop) ∨
    (instruction.pops = false ∧
      ((machine.executed instruction).stack = machine.stack ∨
        ∃ value, (machine.executed instruction).stack = machine.stack.push value)) := by
  cases instruction with
  | nop => exact .inr ⟨rfl, .inl rfl⟩
  | loadImmediate register value => exact .inr ⟨rfl, .inl rfl⟩
  | move target source => exact .inr ⟨rfl, .inl rfl⟩
  | output address register => exact .inr ⟨rfl, .inl rfl⟩
  | input register address => exact .inr ⟨rfl, .inl rfl⟩
  | store address register => exact .inr ⟨rfl, .inl rfl⟩
  | load register address => exact .inr ⟨rfl, .inl rfl⟩
  | jump target => exact .inr ⟨rfl, .inl rfl⟩
  | call target => exact .inr ⟨rfl, .inr ⟨machine.pc, rfl⟩⟩
  | ret => exact .inl ⟨rfl, rfl⟩
  | push register => exact .inr ⟨rfl, .inr ⟨machine.registers.get register, rfl⟩⟩
  | pop register => exact .inl ⟨rfl, rfl⟩

/-- Fetching and decoding leave the stack alone. -/
@[simp] theorem stack_atExecute (machine : Machine) :
    machine.atExecute.stack = machine.stack := by
  unfold atExecute
  cases machine.phase with
  | fetch => rfl
  | decode => rfl
  | execute => rfl

theorem afterCycle_of_ok {instruction : Instruction} (h : machine.cycle.1 = .ok instruction) :
    machine.afterCycle = machine.atExecute.executed instruction := by
  rw [afterCycle]
  rcases cycle_cases machine with ⟨found, -, hCycle⟩ | ⟨reason, -, hCycle⟩
  · rw [hCycle] at h ⊢
    cases h
    rfl
  · rw [hCycle] at h
    cases h

/-- From the fetch phase a cycle executes the instruction at the program counter, which has
moved on by then. -/
theorem afterCycle_of_fetch {instruction : Instruction} (hPhase : machine.phase = .fetch)
    (hDecode : Instruction.decode (machine.program.read machine.pc) = .ok instruction) :
    machine.afterCycle = machine.fetch.decode.executed instruction := by
  have hAt : machine.atExecute = machine.fetch.decode := by rw [atExecute, hPhase]
  have hFields : Instruction.ofFields machine.atExecute.fields = .ok instruction := by
    rw [hAt]
    exact hDecode
  rw [afterCycle, cycle_eq_execute, execute_of_ok hFields, hAt]

/-- A cycle keeps what was saved, if it takes nothing off at the depth of the saved byte. -/
theorem keeps_afterCycle (hKeeps : machine.stack.Keeps saved base) {instruction : Instruction}
    (hCycle : machine.cycle.1 = .ok instruction)
    (hAbove : instruction.pops = true → base.length + 1 < machine.stack.depth) :
    machine.afterCycle.stack.Keeps saved base := by
  rw [afterCycle_of_ok hCycle]
  rcases stack_executed machine.atExecute instruction with
    ⟨hPops, hAfter⟩ | ⟨-, hAfter | ⟨value, hAfter⟩⟩
  · rw [hAfter, stack_atExecute]
    exact hKeeps.pop (hAbove hPops)
  · rw [hAfter, stack_atExecute]
    exact hKeeps
  · rw [hAfter, stack_atExecute]
    exact hKeeps.push value

/-! ## Bodies -/

/-- The next cycles execute instructions, of which none takes a byte off a stack that holds
no more than `depth` of them. -/
def StaysAbove (depth count : Nat) (machine : Machine) : Prop :=
  ∀ index < count, ∃ instruction,
    (afterCycle^[index] machine).cycle.1 = .ok instruction ∧
      (instruction.pops = true → depth < (afterCycle^[index] machine).stack.depth)

/-- A body that stays above a saved byte keeps it. -/
theorem keeps_iterate (hKeeps : machine.stack.Keeps saved base) {count : Nat}
    (hBody : machine.StaysAbove (base.length + 1) count) :
    (afterCycle^[count] machine).stack.Keeps saved base := by
  induction count with
  | zero => exact hKeeps
  | succ count ih =>
      obtain ⟨instruction, hCycle, hAbove⟩ := hBody count (Nat.lt_succ_self count)
      have hBefore : (afterCycle^[count] machine).stack.Keeps saved base :=
        ih fun index hIndex => hBody index (Nat.lt_succ_of_lt hIndex)
      rw [Function.iterate_succ_apply']
      exact keeps_afterCycle hBefore hCycle hAbove

/-- **Frames are restored.**  Let the next instruction of a reachable machine in the fetch
phase be a call or a push, with room on the stack, and let a body follow it that stays above
the byte it saves.  A return that is then executed at the depth of that byte continues behind
the call, and a pop gives its register what the pushed register held; either leaves the
stack with the contents it had before. -/
theorem frame_restored {program : Program} (hReachable : machine.Reachable program)
    (hPhase : machine.phase = .fetch) (hRoom : machine.stack.depth < 256) {count : Nat}
    (hBody : machine.afterCycle.StaysAbove (machine.stack.depth + 1) count)
    (hDepth : (afterCycle^[count] machine.afterCycle).stack.depth = machine.stack.depth + 1) :
    (∀ target, Instruction.decode (program.cell machine.pc) = .ok (.call target) →
      (afterCycle^[count] machine.afterCycle).cycle.1 = .ok .ret →
        (afterCycle^[count + 1] machine.afterCycle).pc = machine.pc + 1 ∧
        (afterCycle^[count + 1] machine.afterCycle).stack.values = machine.stack.values) ∧
    (∀ source target, Instruction.decode (program.cell machine.pc) = .ok (.push source) →
      (afterCycle^[count] machine.afterCycle).cycle.1 = .ok (.pop target) →
        (afterCycle^[count + 1] machine.afterCycle).registers.get target
          = machine.registers.get source ∧
        (afterCycle^[count + 1] machine.afterCycle).stack.values = machine.stack.values) := by
  obtain ⟨new, hNew, hProgram⟩ := hReachable.program_eq
  have hCell : machine.program.read machine.pc = program.cell machine.pc := by
    rw [hProgram, read_of_ofProgram hNew]
  -- Whatever byte the first cycle saved, the body keeps it and the last cycle takes it off.
  have hSaved : ∀ saved, machine.afterCycle.stack = machine.stack.push saved →
      (afterCycle^[count] machine.afterCycle).stack.popped = saved ∧
        (afterCycle^[count] machine.afterCycle).stack.pop.values = machine.stack.values := by
    intro saved hPush
    have hKeeps : machine.afterCycle.stack.Keeps saved machine.stack.values := by
      rw [hPush]
      exact Stack.keeps_push_self hRoom
    exact (keeps_iterate hKeeps hBody).popped_pop hDepth
  rw [Function.iterate_succ_apply']
  constructor
  · intro target hDecode hLast
    have hCall : machine.afterCycle.stack = machine.stack.push (machine.pc + 1) := by
      rw [afterCycle_of_fetch hPhase (hCell ▸ hDecode)]
      rfl
    obtain ⟨hPopped, hPop⟩ := hSaved (machine.pc + 1) hCall
    rw [← stack_atExecute] at hPopped hPop
    rw [afterCycle_of_ok hLast]
    exact ⟨hPopped, hPop⟩
  · intro source target hDecode hLast
    have hPush : machine.afterCycle.stack
        = machine.stack.push (machine.registers.get source) := by
      rw [afterCycle_of_fetch hPhase (hCell ▸ hDecode)]
      rfl
    obtain ⟨hPopped, hPop⟩ := hSaved (machine.registers.get source) hPush
    rw [← stack_atExecute] at hPopped hPop
    have hRegister : ∀ file : RegisterFile, ∀ value, (file.set target value).get target = value := by
      intro file value
      rw [RegisterFile.get_set, if_pos rfl]
    rw [afterCycle_of_ok hLast]
    exact ⟨(hRegister _ _).trans hPopped, hPop⟩

/-- A call, whose body calls a subroutine that saves a register in another one. -/
def nestingProgram : Program :=
  { words := [0x080200, 0x000000, 0x080400, 0x090000, 0x0A0100, 0x0B0200, 0x090000] }

/-- The new machine for the program with nested calls. -/
def nestingMachine : Machine := { program := ProgramMemory.load { image := nestingProgram } }

set_option maxRecDepth 10000 in
theorem staysAbove_nestingMachine : nestingMachine.afterCycle.StaysAbove 1 4 := by
  intro index hIndex
  match index with
  | 0 => exact ⟨.call 4, rfl, by decide⟩
  | 1 => exact ⟨.push 1, rfl, by decide⟩
  | 2 => exact ⟨.pop 2, rfl, by decide⟩
  | 3 => exact ⟨.ret, rfl, by decide⟩
  | _ + 4 => omega

set_option maxRecDepth 10000 in
/-- The outer call returns behind itself after four cycles, among them the return of the
inner one; the register saved in the inner body is restored into another one at once. -/
theorem frame_restored_nestingMachine :
    (nestingMachine.Reachable nestingProgram ∧ nestingMachine.afterCycle.StaysAbove 1 4 ∧
      (afterCycle^[5] nestingMachine.afterCycle).pc = nestingMachine.pc + 1 ∧
      (afterCycle^[5] nestingMachine.afterCycle).stack.values = nestingMachine.stack.values) ∧
    ∃ inner : Machine, inner.Reachable nestingProgram ∧ inner.afterCycle.StaysAbove 3 0 ∧
      (afterCycle^[1] inner.afterCycle).registers.get 2 = inner.registers.get 1 ∧
      (afterCycle^[1] inner.afterCycle).stack.values = inner.stack.values := by
  have hNew : ofProgram nestingProgram = .ok nestingMachine := rfl
  have hOuter : nestingMachine.Reachable nestingProgram := ⟨nestingMachine, [], hNew, rfl⟩
  have hInner : (afterCycle^[2] nestingMachine).Reachable nestingProgram :=
    ⟨nestingMachine, [.cycle, .cycle], hNew, rfl⟩
  have hEmpty : (afterCycle^[2] nestingMachine).afterCycle.StaysAbove 3 0 := by
    intro index hIndex
    omega
  have hCall := (frame_restored hOuter rfl (by decide) staysAbove_nestingMachine (by decide)).1 2
  have hPush := (frame_restored hInner rfl (by decide) hEmpty (by decide)).2 1 2
  exact ⟨⟨hOuter, staysAbove_nestingMachine, hCall rfl rfl⟩,
    afterCycle^[2] nestingMachine, hInner, hEmpty, hPush rfl rfl⟩

end Machine

end ControlUnit
