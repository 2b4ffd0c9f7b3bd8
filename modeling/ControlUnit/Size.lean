/-!
# Sizes

Sizes and places are 64-bit machine numbers. A sum of sizes that needs more bits is a
failure: whatever asks for it has no result. A difference of sizes stops at zero.

## Main results

* `Size.sum?_eq_some_iff`, `Size.sum?_eq_none_iff`, `Size.exists_sum?` — when a sum
  fails, and what it is if it does not.
* `Size.toNat_monus` — a difference that stops at zero is one of natural numbers.
-/

namespace ControlUnit.Size

/-- The sum of two sizes, if it is a size. -/
def sum? (first second : UInt64) : Option UInt64 :=
  if first.toNat + second.toNat < UInt64.size then some (first + second) else none

/-- The difference of two sizes, or zero if the second is greater. -/
def monus (first second : UInt64) : UInt64 := if second ≤ first then first - second else 0

variable {first second sum : UInt64}

theorem sum?_eq_none_iff :
    sum? first second = none ↔ UInt64.size ≤ first.toNat + second.toNat := by
  rw [sum?]
  split
  · rename_i h
    exact iff_of_false (Option.some_ne_none _) (Nat.not_le.2 h)
  · rename_i h
    exact iff_of_true rfl (Nat.not_lt.1 h)

/-- A sum that is a size is the sum of the numbers. -/
theorem sum?_eq_some_iff :
    sum? first second = some sum ↔ sum.toNat = first.toNat + second.toNat := by
  rw [sum?]
  split
  · rename_i h
    have hSum : (first + second).toNat = first.toNat + second.toNat := by
      rw [UInt64.toNat_add]
      exact Nat.mod_eq_of_lt h
    rw [Option.some_inj, ← hSum, UInt64.toNat_inj, eq_comm]
  · rename_i h
    refine iff_of_false (Option.some_ne_none _).symm fun hSum => h ?_
    rw [← hSum]
    exact sum.toNat_lt

/-- A sum that needs no more bits does not fail. -/
theorem exists_sum? (h : first.toNat + second.toNat < UInt64.size) :
    ∃ sum, sum? first second = some sum ∧ sum.toNat = first.toNat + second.toNat := by
  cases hSum : sum? first second with
  | none => exact absurd (sum?_eq_none_iff.1 hSum) (Nat.not_le.2 h)
  | some sum => exact ⟨sum, rfl, sum?_eq_some_iff.1 hSum⟩

theorem toNat_monus (first second : UInt64) :
    (monus first second).toNat = first.toNat - second.toNat := by
  rw [monus]
  split
  · rename_i h
    exact UInt64.toNat_sub_of_le _ _ h
  · rename_i h
    rw [UInt64.le_iff_toNat_le] at h
    show 0 = _
    omega

end ControlUnit.Size
