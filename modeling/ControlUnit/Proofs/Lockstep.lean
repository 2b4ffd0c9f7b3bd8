import ControlUnit.Proofs.Operation
import Mathlib.Data.List.Forall2

/-!
# Machines in lockstep

Two machines are compared by driving them with the same operations.  A relation between
machines is shown to be kept by one transition (`Lockstep`); it is then kept by a whole
cycle, because related machines are in the same phase and so have the same number of
transitions left.  What holds of every operation holds of every sequence of them.

## Main results

* `Machine.Lockstep.cycle` — what a transition keeps, a cycle keeps.
* `Machine.performAll_related` — what every operation keeps, a sequence of them keeps, and
  the reports match one by one.
-/

namespace ControlUnit.Machine

/-- Related machines are in the same phase, make matching transitions, and are related
after them. -/
structure Lockstep (related : Machine → Machine → Prop)
    (matching : Transition → Transition → Prop) : Prop where
  phase : ∀ {first second}, related first second → first.phase = second.phase
  transition : ∀ {first second}, related first second → matching first.step.1 second.step.1
  afterStep : ∀ {first second}, related first second →
    related first.afterStep second.afterStep

variable {related : Machine → Machine → Prop} {matching : Transition → Transition → Prop}
  {first second : Machine}

namespace Lockstep

theorem iterate (h : Lockstep related matching) (hRelated : related first second)
    (count : Nat) : related (Machine.afterStep^[count] first) (Machine.afterStep^[count] second) := by
  induction count with
  | zero => exact hRelated
  | succ count ih =>
      rw [Function.iterate_succ_apply', Function.iterate_succ_apply']
      exact h.afterStep ih

theorem atExecute (h : Lockstep related matching) (hRelated : related first second) :
    related first.atExecute second.atExecute := by
  rw [← afterStep_iterate_eq_atExecute, ← afterStep_iterate_eq_atExecute, h.phase hRelated]
  exact h.iterate hRelated _

/-- The cycles of related machines end in matching transitions and leave related machines. -/
theorem cycle (h : Lockstep related matching) (hRelated : related first second) :
    matching first.atExecute.step.1 second.atExecute.step.1 ∧
      related first.afterCycle second.afterCycle := by
  have hLast : related first.atExecute second.atExecute := h.atExecute hRelated
  constructor
  · exact h.transition hLast
  · rw [← afterStep_atExecute first, ← afterStep_atExecute second]
    exact h.afterStep hLast

end Lockstep

/-- What every operation keeps, a sequence of operations keeps, and its reports match one by
one. -/
theorem performAll_related {agree : Report → Report → Prop}
    (hKeep : ∀ {first second}, related first second → ∀ operation,
      agree (first.perform operation).1 (second.perform operation).1 ∧
        related (first.perform operation).2 (second.perform operation).2)
    (hStart : related first second) (operations : List Operation) :
    List.Forall₂ agree (first.performAll operations).1 (second.performAll operations).1 ∧
      related (first.performAll operations).2 (second.performAll operations).2 := by
  induction operations generalizing first second with
  | nil => exact ⟨.nil, hStart⟩
  | cons operation rest ih =>
      obtain ⟨hReport, hNext⟩ := hKeep hStart operation
      obtain ⟨hReports, hEnd⟩ := ih hNext
      exact ⟨.cons hReport hReports, hEnd⟩

end ControlUnit.Machine
