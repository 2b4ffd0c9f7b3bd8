import ControlUnit.Program
import Mathlib.Data.List.Perm.Basic

/-!
# Tables of ranges

The check of a program compares the ends of every range with those of the ranges before it in
the table.  What it finds out does not depend on this order: the ranges that are not empty are
disjoint, so no address lies in two entries of the table (`Program.Unambiguous`).  The first
entry that contains an address is then the only one, and a table may be put into any order.

## Main results

* `Subroutine.overlaps_iff_exists` — ranges overlap exactly if they share an address.
* `Program.pairwise_iff_unambiguous` — no two ranges overlap exactly if no address is in two
  entries.
* `Program.check_iff_unambiguous` — what the check of a program comes to.
-/

namespace ControlUnit

/-! ## Two ranges -/

namespace Subroutine

variable {first second : Subroutine}

/-- Ranges that are not empty overlap exactly if they share an address. -/
theorem overlaps_iff_exists (hFirst : first.start < first.stop)
    (hSecond : second.start < second.stop) :
    first.overlaps second = true ↔
      ∃ address, first.contains address = true ∧ second.contains address = true := by
  rw [overlaps, Bool.and_eq_true, decide_eq_true_eq, decide_eq_true_eq]
  simp only [contains_iff]
  constructor
  · rintro ⟨hBefore, hBehind⟩
    -- The later of the two starts lies in both ranges.
    rcases UInt16.le_total first.start second.start with hLater | hLater
    · exact ⟨second.start, ⟨hLater, hBehind⟩, UInt16.le_refl _, hSecond⟩
    · exact ⟨first.start, ⟨UInt16.le_refl _, hFirst⟩, hLater, hBefore⟩
  · rintro ⟨address, ⟨hStart, hStop⟩, hStart', hStop'⟩
    exact ⟨UInt16.lt_of_le_of_lt hStart hStop', UInt16.lt_of_le_of_lt hStart' hStop⟩

end Subroutine

namespace Program

/-! ## No address in two entries -/

/-- No address lies in two entries of a table, not even in two that are alike. -/
def Unambiguous (table : List Subroutine) : Prop :=
  ∀ (address : UInt16) (first second : Nat) (one other : Subroutine),
    table[first]? = some one → table[second]? = some other →
      one.contains address = true → other.contains address = true → first = second

variable {table : List Subroutine}

/-- No two ranges overlap exactly if no address lies in two of them. -/
theorem pairwise_iff_unambiguous (hBounds : ∀ subroutine ∈ table, subroutine.inBounds = true) :
    (table.Pairwise fun first second => second.overlaps first = false) ↔ Unambiguous table := by
  have hNonempty : ∀ {index : Nat} {subroutine : Subroutine}, table[index]? = some subroutine →
      subroutine.start < subroutine.stop := fun hAt =>
    (Subroutine.inBounds_iff.1 (hBounds _ (List.mem_of_getElem? hAt))).1
  rw [List.pairwise_iff_getElem]
  constructor
  · intro hPairs address first second one other hOne hOther hIn hIn'
    -- Of two different entries the later one does not overlap the earlier one.
    have hEarlier : ∀ {i j : Nat} {s t : Subroutine}, table[i]? = some s → table[j]? = some t →
        s.contains address = true → t.contains address = true → ¬i < j := by
      intro i j s t hs ht hInS hInT hLess
      have hShared := (Subroutine.overlaps_iff_exists (hNonempty ht) (hNonempty hs)).2
        ⟨address, hInT, hInS⟩
      obtain ⟨hi, rfl⟩ := List.getElem?_eq_some_iff.1 hs
      obtain ⟨hj, rfl⟩ := List.getElem?_eq_some_iff.1 ht
      rw [hPairs i j hi hj hLess] at hShared
      cases hShared
    have hNotLess := hEarlier hOne hOther hIn hIn'
    have hNotGreater := hEarlier hOther hOne hIn' hIn
    omega
  · intro hUnique i j hi hj hLess
    rw [← Bool.not_eq_true, Subroutine.overlaps_iff_exists
      (hNonempty (List.getElem?_eq_getElem hj)) (hNonempty (List.getElem?_eq_getElem hi))]
    rintro ⟨address, hInJ, hInI⟩
    have hSame := hUnique address i j _ _ (List.getElem?_eq_getElem hi)
      (List.getElem?_eq_getElem hj) hInI hInJ
    omega

/-! ## Looking up an address -/

variable {program : Program} {address : UInt16}

theorem unambiguous_of_check (h : program.check = .ok ()) : Unambiguous program.subroutines := by
  obtain ⟨-, hBounds, hPairs⟩ := check_eq_ok_iff.1 h
  exact (pairwise_iff_unambiguous hBounds).1 hPairs

/-- Whichever entry contains an address, it is the one that is found. -/
theorem subroutineName_of_contains (hUnique : Unambiguous program.subroutines)
    {subroutine : Subroutine} (hMem : subroutine ∈ program.subroutines)
    (hIn : subroutine.contains address = true) :
    program.subroutineName address = subroutine.name := by
  obtain ⟨index, hAt⟩ := List.mem_iff_getElem?.1 hMem
  rw [subroutineName]
  cases hFind : program.subroutines.find? fun entry => entry.contains address with
  | none =>
      have hNone := List.find?_eq_none.1 hFind subroutine hMem
      exact absurd hIn hNone
  | some found =>
      have hFound : found.contains address = true := by simpa using List.find?_some hFind
      obtain ⟨other, hOther⟩ := List.mem_iff_getElem?.1 (List.mem_of_find?_eq_some hFind)
      have hSame := hUnique address other index found subroutine hOther hAt hFound hIn
      rw [hSame, hAt] at hOther
      rw [Option.some.inj hOther]

theorem subroutineName_of_not_contains
    (h : ∀ subroutine ∈ program.subroutines, subroutine.contains address = false) :
    program.subroutineName address = unknownSubroutine := by
  have hNone : program.subroutines.find? (fun entry => entry.contains address) = none :=
    List.find?_eq_none.2 fun subroutine hMem => by simp [h subroutine hMem]
  rw [subroutineName, hNone]

/-! ## Tables in another order -/

/-- A table may be put into any order. -/
theorem check_of_perm (hPerm : table.Perm program.subroutines) (h : program.check = .ok ()) :
    check { program with subroutines := table } = .ok () := by
  obtain ⟨hSize, hBounds, hPairs⟩ := check_eq_ok_iff.1 h
  refine check_eq_ok_iff.2 ⟨hSize, fun subroutine hMem => hBounds _ (hPerm.mem_iff.1 hMem), ?_⟩
  refine (hPerm.pairwise_iff fun {first second} hFree => ?_).2 hPairs
  rwa [Subroutine.overlaps_comm]

/-- In a table without ambiguity an address has the same name in any order. -/
theorem subroutineName_of_perm (hPerm : table.Perm program.subroutines)
    (hUnique : Unambiguous table) (hUnique' : Unambiguous program.subroutines) :
    subroutineName { program with subroutines := table } address
      = program.subroutineName address := by
  by_cases hIn : ∃ subroutine ∈ table, subroutine.contains address = true
  · obtain ⟨subroutine, hMem, hContains⟩ := hIn
    rw [subroutineName_of_contains hUnique hMem hContains,
      subroutineName_of_contains hUnique' (hPerm.mem_iff.1 hMem) hContains]
  · have hNone : ∀ subroutine ∈ table, subroutine.contains address = false := by
      intro subroutine hMem
      rw [← Bool.not_eq_true]
      exact fun hContains => hIn ⟨subroutine, hMem, hContains⟩
    rw [subroutineName_of_not_contains hNone,
      subroutineName_of_not_contains fun subroutine hMem => hNone _ (hPerm.mem_iff.2 hMem)]

/-! ## The check -/

/-- **What the check of a program comes to**: it succeeds exactly if there are at most 256 words,
every range is non-empty and ends within 256, and no address lies in two entries of the table.
Where it does, the name of an address is that of the entry that contains it, or the name that
stands for none; and in another order the table passes the check and gives every address the
same name. -/
theorem check_iff_unambiguous :
    (∀ program : Program, program.check = .ok () ↔
      program.words.length ≤ 256 ∧
      (∀ subroutine ∈ program.subroutines,
        subroutine.start < subroutine.stop ∧ subroutine.stop.toNat ≤ 256) ∧
      Unambiguous program.subroutines) ∧
    ∀ program : Program, program.check = .ok () →
      (∀ address, ∀ subroutine ∈ program.subroutines, subroutine.contains address = true →
        program.subroutineName address = subroutine.name) ∧
      (∀ address, (∀ subroutine ∈ program.subroutines, subroutine.contains address = false) →
        program.subroutineName address = "Unknown") ∧
      ∀ table : List Subroutine, table.Perm program.subroutines →
        check { program with subroutines := table } = .ok () ∧
        ∀ address, subroutineName { program with subroutines := table } address
          = program.subroutineName address := by
  refine ⟨fun program => ?_, fun program h => ?_⟩
  · rw [check_eq_ok_iff]
    have hBounds : (∀ subroutine ∈ program.subroutines, subroutine.inBounds = true) ↔
        ∀ subroutine ∈ program.subroutines,
          subroutine.start < subroutine.stop ∧ subroutine.stop.toNat ≤ 256 :=
      forall₂_congr fun _ _ => Subroutine.inBounds_iff
    rw [← hBounds]
    exact and_congr_right fun _ => and_congr_right pairwise_iff_unambiguous
  · have hUnique := unambiguous_of_check h
    refine ⟨fun address subroutine hMem hIn => subroutineName_of_contains hUnique hMem hIn,
      fun address hNone => subroutineName_of_not_contains hNone, fun table hPerm => ?_⟩
    have hCheck := check_of_perm hPerm h
    exact ⟨hCheck, fun address =>
      subroutineName_of_perm hPerm (unambiguous_of_check hCheck) hUnique⟩

/-! ### Samples -/

/-- Two ranges that touch, and one that ends with program memory. -/
def touchingTable : List Subroutine := [⟨"main", 2, 5⟩, ⟨"init", 0, 2⟩, ⟨"last", 255, 256⟩]

def touchingProgram : Program where
  words := [0, 0, 0, 0, 0]
  subroutines := touchingTable

theorem check_touchingProgram :
    check touchingProgram = .ok () ∧
    Unambiguous touchingTable ∧
    (⟨"init", 0, 2⟩ : Subroutine) ∈ touchingTable ∧
    touchingProgram.subroutineName 1 = "init" ∧
    touchingProgram.subroutineName 5 = "Unknown" ∧
    touchingTable.reverse.Perm touchingTable ∧
    check { touchingProgram with subroutines := touchingTable.reverse } = .ok () ∧
    subroutineName { touchingProgram with subroutines := touchingTable.reverse } 2
      = touchingProgram.subroutineName 2 := by
  have hCheck : touchingProgram.check = .ok () := by decide
  have hMem : (⟨"init", 0, 2⟩ : Subroutine) ∈ touchingTable := by decide
  have hPerm : touchingTable.reverse.Perm touchingTable := List.reverse_perm _
  obtain ⟨hIff, hPassed⟩ := check_iff_unambiguous
  obtain ⟨hIn, hOut, hOrder⟩ := hPassed touchingProgram hCheck
  obtain ⟨hReversed, hNames⟩ := hOrder _ hPerm
  exact ⟨hCheck, ((hIff touchingProgram).1 hCheck).2.2, hMem, hIn 1 _ hMem (by decide),
    hOut 5 (by decide), hPerm, hReversed, hNames 2⟩

/-- A range inside of another one is refused, and so is the same range twice. -/
example : check { words := [], subroutines := [⟨"a", 0, 9⟩, ⟨"b", 3, 4⟩] }
      = .error (.overlappingRanges "a" "b") ∧
    check { words := [], subroutines := [⟨"a", 0, 9⟩, ⟨"a", 0, 9⟩] }
      = .error (.overlappingRanges "a" "a") := by
  decide

end Program

end ControlUnit
