import ControlUnit.Text.Numeral

/-!
# Programs

A program is a list of instruction words, to be placed from address zero, with a
table of subroutines: named half-open ranges of addresses that label a report.

A program is sound if it fits into program memory and its ranges are non-empty, in
bounds and disjoint. `Program.check` tells which of these fails first.

## Main results

* `Program.check_eq_ok_iff` — the check succeeds exactly on the programs that fit,
  with ranges in bounds of which no two overlap.
-/

namespace ControlUnit

/-- The number of words program memory can hold. -/
def programSize : Nat := 256

/-- A named range of addresses, from `start` up to but not including `stop`. -/
structure Subroutine where
  name : String
  start : UInt16
  stop : UInt16
  deriving DecidableEq, Repr

namespace Subroutine

def contains (subroutine : Subroutine) (address : UInt16) : Bool :=
  subroutine.start ≤ address && address < subroutine.stop

/-- Whether the range is non-empty and lies in program memory. -/
def inBounds (subroutine : Subroutine) : Bool :=
  subroutine.start < subroutine.stop && subroutine.stop.toNat ≤ programSize

/-- Whether each of two ranges begins before the other ends. -/
def overlaps (first second : Subroutine) : Bool :=
  first.start < second.stop && second.start < first.stop

variable {subroutine : Subroutine} {address : UInt16}

theorem contains_iff : subroutine.contains address = true ↔
    subroutine.start ≤ address ∧ address < subroutine.stop := by
  rw [contains, Bool.and_eq_true, decide_eq_true_eq, decide_eq_true_eq]

theorem inBounds_iff : subroutine.inBounds = true ↔
    subroutine.start < subroutine.stop ∧ subroutine.stop.toNat ≤ programSize := by
  rw [inBounds, Bool.and_eq_true, decide_eq_true_eq, decide_eq_true_eq]

theorem overlaps_comm (first second : Subroutine) :
    first.overlaps second = second.overlaps first := by
  rw [overlaps, overlaps, Bool.and_comm]

end Subroutine

/-- The words of a program and its table of subroutines. -/
structure Program where
  words : List UInt32 := []
  subroutines : List Subroutine := []
  deriving DecidableEq, Repr, Inhabited

/-- What is wrong with a program. -/
inductive ProgramError where
  /-- There are more words than program memory holds. -/
  | tooLarge (size : Nat)
  /-- The range of a subroutine is empty or reaches beyond program memory. -/
  | invalidRange (subroutine : Subroutine)
  /-- Two ranges overlap. The first of the names stands earlier in the table. -/
  | overlappingRanges (first second : String)
  deriving DecidableEq, Repr

/-- The report of what is wrong with a program. -/
def ProgramError.message : ProgramError → String
  | tooLarge size =>
    "program size " ++ Text.decimal size ++ " exceeds available space " ++ Text.decimal programSize
  | invalidRange subroutine =>
    "subroutine `" ++ subroutine.name ++ "` has invalid range "
      ++ Text.decimal subroutine.start.toNat ++ ".." ++ Text.decimal subroutine.stop.toNat
  | overlappingRanges first second => "subroutines `" ++ first ++ "` and `" ++ second ++ "` overlap"

namespace Program

def size (program : Program) : Nat := program.words.length

def isEmpty (program : Program) : Bool := program.words.isEmpty

/-- What stands for the name of a subroutine at an address outside all of them. -/
def unknownSubroutine : String := "Unknown"

/-- The name of the first subroutine of the table that contains an address. -/
def subroutineName (program : Program) (address : UInt16) : String :=
  match program.subroutines.find? (·.contains address) with
  | some subroutine => subroutine.name
  | none => unknownSubroutine

/-- Check the rest of a table, given the entries before it. -/
def checkRanges (earlier : List Subroutine) : List Subroutine → Except ProgramError Unit
  | [] => .ok ()
  | subroutine :: later =>
    if !subroutine.inBounds then .error (.invalidRange subroutine)
    else
      match earlier.find? subroutine.overlaps with
      | some other => .error (.overlappingRanges other.name subroutine.name)
      | none => checkRanges (earlier ++ [subroutine]) later

/-- Check that a program fits and that its ranges are non-empty, in bounds and
disjoint. The size is checked first, then the entries in the order of the table. -/
def check (program : Program) : Except ProgramError Unit :=
  if programSize < program.size then .error (.tooLarge program.size)
  else checkRanges [] program.subroutines

/-- The check of a table succeeds exactly if every entry is in bounds and overlaps
neither an entry before the table nor an earlier one of it. -/
theorem checkRanges_eq_ok_iff {earlier table : List Subroutine} :
    checkRanges earlier table = .ok () ↔
      (∀ subroutine ∈ table, subroutine.inBounds = true ∧
        ∀ other ∈ earlier, subroutine.overlaps other = false) ∧
      table.Pairwise fun first second => second.overlaps first = false := by
  induction table generalizing earlier with
  | nil => simp [checkRanges]
  | cons subroutine later ih =>
      rw [checkRanges]
      cases hBounds : subroutine.inBounds with
      | false => simp [hBounds]
      | true =>
          simp only [Bool.not_true, Bool.false_eq_true, if_false]
          cases hFind : earlier.find? subroutine.overlaps with
          | some other =>
              have hOverlap := List.find?_some hFind
              have hMem := List.mem_of_find?_eq_some hFind
              simp only [reduceCtorEq, false_iff]
              intro h
              rw [(h.1 subroutine (by simp)).2 other hMem] at hOverlap
              cases hOverlap
          | none =>
              rw [List.find?_eq_none] at hFind
              simp only [Bool.not_eq_true] at hFind
              simp only [ih, List.mem_append, List.mem_cons, List.pairwise_cons,
                List.not_mem_nil, or_false]
              constructor
              · rintro ⟨hEach, hPairs⟩
                refine ⟨?_, fun other h => (hEach other h).2 subroutine (.inr rfl), hPairs⟩
                rintro other (rfl | h)
                · exact ⟨hBounds, hFind⟩
                · exact ⟨(hEach other h).1, fun e he => (hEach other h).2 e (.inl he)⟩
              · rintro ⟨hEach, hHead, hPairs⟩
                refine ⟨fun other h => ⟨(hEach other (.inr h)).1, ?_⟩, hPairs⟩
                rintro e (he | rfl)
                · exact (hEach other (.inr h)).2 e he
                · exact hHead other h

/-- The check succeeds exactly on the programs that fit, with ranges in bounds of
which no two overlap. -/
theorem check_eq_ok_iff {program : Program} :
    program.check = .ok () ↔
      program.size ≤ programSize ∧
      (∀ subroutine ∈ program.subroutines, subroutine.inBounds = true) ∧
      program.subroutines.Pairwise fun first second => second.overlaps first = false := by
  rw [check]
  by_cases hSize : programSize < program.size
  · simp [hSize, Nat.not_le.2 hSize]
  · simp [hSize, Nat.not_lt.1 hSize, checkRanges_eq_ok_iff]

end Program

end ControlUnit
