import ControlUnit.Proofs.Operation

/-!
# Recovery

A machine recovers from a fault by a reset.  Nothing of the earlier run survives it:
whatever a host has done before, the machine is again the new machine for its
program, so everything it does later is what the new machine does.

The three ways to a reset (the host's own, an unknown opcode met by a transition or a
cycle, and a forced phase with an unknown code) meet in `perform_of_recovery`; the
program memory, which a reset keeps, is the one thing that needs an invariant.
-/

namespace ControlUnit

/-- An operation with a report that says that the machine has been reset. -/
inductive Recovery : Operation → Report → Prop where
  | reset (report : Report) : Recovery .reset report
  | step (opcode address : UInt8) :
      Recovery .step (.moved (.recovered (.unknownOpcode opcode address)))
  | cycle (opcode address : UInt8) :
      Recovery .cycle (.cycled (.error (.unknownOpcode opcode address)))
  | forcePhase {code : UInt8} (report : Report) (hCode : 2 < code) :
      Recovery (.forcePhase code) report

/-- Exactly the codes above two are those of no phase. -/
theorem Phase.ofCode?_eq_none_iff {code : UInt8} : Phase.ofCode? code = none ↔ 2 < code := by
  by_cases hZero : code = 0
  · subst hZero
    decide
  · by_cases hOne : code = 1
    · subst hOne
      decide
    · by_cases hTwo : code = 2
      · subst hTwo
        decide
      · have hLarge : 2 < code := by
          rw [← UInt8.toNat_inj] at hZero hOne hTwo
          rw [UInt8.lt_iff_toNat_lt]
          simp only [UInt8.reduceToNat] at hZero hOne hTwo ⊢
          omega
        simp [ofCode?, hZero, hOne, hTwo, hLarge]

namespace Machine

/-- An operation that reports a recovery leaves the reset machine. -/
theorem perform_of_recovery {machine : Machine} {operation : Operation}
    (h : Recovery operation (machine.perform operation).1) :
    (machine.perform operation).2 = machine.reset := by
  generalize hReport : (machine.perform operation).1 = report at h
  cases h with
  | reset report => rfl
  | step opcode address =>
      simp only [perform, Report.moved.injEq] at hReport
      rcases step_cases machine with
        ⟨-, hStep⟩ | ⟨-, hStep⟩ | ⟨instruction, -, -, hStep⟩ | ⟨reason, -, -, hStep⟩
      · simp [hStep] at hReport
      · simp [hStep] at hReport
      · simp [hStep] at hReport
      · simp only [perform, hStep]
  | cycle opcode address =>
      simp only [perform, Report.cycled.injEq] at hReport
      rcases cycle_cases machine with ⟨instruction, -, hCycle⟩ | ⟨reason, -, hCycle⟩
      · simp [hCycle] at hReport
      · simp only [perform, hCycle]
  | forcePhase report hCode =>
      simp only [perform, forcePhase, Phase.ofCode?_eq_none_iff.2 hCode]

/-- **Recovery is complete**: after any operations of which the last reports a reset
or a fault, the machine is the new machine for its program, and so all that follows
is what would follow on the new one. -/
theorem performAll_of_recovery {program : Program} {new : Machine}
    (hNew : ofProgram program = .ok new) (operations : List Operation) (last : Operation)
    (hLast : Recovery last ((new.performAll operations).2.perform last).1) :
    (new.performAll (operations ++ [last])).2 = new ∧
      ∀ later, (new.performAll (operations ++ [last])).2.performAll later
        = new.performAll later := by
  have hProgram := program_performAll (load_of_ofProgram hNew) operations
  have hReset : (new.performAll (operations ++ [last])).2 = new := by
    calc
      (new.performAll (operations ++ [last])).2
          = ((new.performAll operations).2.perform last).2 := by
        rw [performAll_append]
        rfl
      _ = (new.performAll operations).2.reset := perform_of_recovery hLast
      _ = new := reset_eq_new hNew hProgram
  refine ⟨hReset, fun later => ?_⟩
  rw [hReset]

set_option maxRecDepth 10000 in
/-- A saved register, a byte pushed by the host and a written cell do not survive the
fault of the third cycle. -/
theorem performAll_of_recovery_faultingMachine :
    (faultingMachine.performAll
        ([.cycle, .cycle, .pushByte 9, .writeData 300 1] ++ [.cycle])).2 = faultingMachine :=
  (performAll_of_recovery ofProgram_faultingProgram
    [.cycle, .cycle, .pushByte 9, .writeData 300 1] .cycle (Recovery.cycle 0x7F 2)).1

end Machine

end ControlUnit
