import ControlUnit.Debugger
import ControlUnit.Proofs.Operation

/-!
# Dumps of data memory

A dump is asked for by an address and a number of cells.  What it should give is said by distance:
the cells that are at the address or behind it by less than the number (`DataMemory.cellsFrom`).
The program looks for the end of the range instead, by a sum of sizes, before it looks at how far
memory reaches.  Where the sum fails there is no dump, whatever memory holds.

## Main results

* `DataMemory.cellsFrom_eq`, `DataMemory.dump?_eq` — the cells that are asked for and those that are
  given, both as ranges of consecutive addresses.
* `DataMemory.dump_exact_iff` — there is a dump, which is what is asked for, exactly if the sum of
  address and number is a size.
* `DataMemory.dump_not_exact` — a dump of the last two cells of memory that fails.
-/

namespace ControlUnit

namespace DataMemory

/-- A cell of memory next to its address. -/
def cellAt (memory : DataMemory) (address : Nat) : Nat × UInt8 :=
  (address, memory.read address.toUInt16)

/-- The cells of memory that are at an address or less than a number of cells behind it. -/
def cellsFrom (memory : DataMemory) (start count : Nat) : List (Nat × UInt8) :=
  ((List.range 512).filter fun address =>
    decide (start ≤ address ∧ address - start < count)).map memory.cellAt

/-! ## Ranges of addresses -/

variable (memory : DataMemory)

theorem zipIdx_toList :
    memory.toList.zipIdx.map (fun cell => (cell.2, cell.1))
      = (List.range 512).map memory.cellAt := by
  apply List.ext_getElem?
  intro index
  rw [List.getElem?_map, List.getElem?_map, List.getElem?_zipIdx]
  by_cases hIndex : index < 512
  · have hCell : index < dataSize := hIndex
    have hSmall : index < 65536 := Nat.lt_trans hIndex (by decide)
    have hAddress : index.toUInt16.toNat = index := UInt16.toNat_ofNat_of_lt' hSmall
    simp [toList, cellAt, read, hIndex, hCell, hAddress]
  · have hCell : ¬index < dataSize := hIndex
    simp [toList, hIndex, hCell]

/-- The addresses of a list from zero on that are less than a number behind one of them. -/
theorem filter_range (start count size : Nat) :
    ((List.range size).filter fun address => decide (start ≤ address ∧ address - start < count))
      = List.range' start (min (start + count) size - start) := by
  induction size with
  | zero => simp
  | succ size ih =>
      rw [List.range_succ, List.filter_append, ih]
      by_cases hLast : start ≤ size ∧ size - start < count
      · have hLength : min (start + count) (size + 1) - start
            = min (start + count) size - start + 1 := by omega
        have hNext : start + (min (start + count) size - start) = size := by omega
        rw [hLength, List.range'_1_concat, hNext]
        simp [hLast]
      · have hLength : min (start + count) (size + 1) - start
            = min (start + count) size - start := by omega
        rw [hLength]
        simp [hLast]

/-- The cells that are asked for have consecutive addresses. -/
theorem cellsFrom_eq (start count : Nat) :
    memory.cellsFrom start count
      = (List.range' start (min (start + count) 512 - start)).map memory.cellAt := by
  rw [cellsFrom, filter_range]

/-- The cells that are given have consecutive addresses, up to the sum. -/
theorem dump?_eq (start count : UInt64) :
    memory.dump? start count
      = (Size.sum? start count).map fun stop =>
          (List.range' start.toNat (min stop.toNat 512 - start.toNat)).map memory.cellAt := by
  rw [dump?]
  congr 1
  funext stop
  have hTake : (List.range 512).take (min stop.toNat dataSize)
      = List.range (min stop.toNat 512) := by
    show (List.range 512).take (min stop.toNat 512) = _
    rw [List.take_range, Nat.min_assoc, Nat.min_self]
  rw [List.map_drop, List.map_take, zipIdx_toList, ← List.map_take, ← List.map_drop, hTake,
    List.range_eq_range', List.drop_range']
  simp

/-! ## Sums that fail -/

variable {memory} {start count : UInt64}

theorem dump?_of_lt (h : start.toNat + count.toNat < UInt64.size) :
    memory.dump? start count = some (memory.cellsFrom start.toNat count.toNat) := by
  obtain ⟨stop, hStop, hSum⟩ := Size.exists_sum? h
  rw [dump?_eq, hStop, Option.map_some, hSum, cellsFrom_eq]

theorem dump?_of_le (h : UInt64.size ≤ start.toNat + count.toNat) :
    memory.dump? start count = none := by
  rw [dump?_eq, Size.sum?_eq_none_iff.2 h]
  rfl

end DataMemory

/-- The extended page is shown from its beginning, unless the number of cells asked for is too
great for the sum. -/
theorem Debugger.extendedCells?_eq (debugger : Debugger) (count : UInt64) :
    debugger.extendedCells? count
      = if 256 + count.toNat < UInt64.size then
          some ((List.range' 256 (min count.toNat 256)).map debugger.machine.data.cellAt)
        else none := by
  have hStart : extendedPage.toUInt64.toNat = 256 := rfl
  have hLength : min (256 + count.toNat) 512 - 256 = min count.toNat 256 := by omega
  rw [extendedCells?]
  by_cases hSum : extendedPage.toUInt64.toNat + count.toNat < UInt64.size
  · rw [DataMemory.dump?_of_lt hSum, DataMemory.cellsFrom_eq, hStart, hLength]
    exact (if_pos hSum).symm
  · rw [DataMemory.dump?_of_le (Nat.not_lt.1 hSum)]
    exact (if_neg hSum).symm

namespace DataMemory

/-- **Dumps as far as sums reach.**  As long as address and number add up to a size, a dump gives
the cells that are asked for; else it fails, also where these are cells of memory.  So too for the
extended page. -/
theorem dump_exact_iff (memory : DataMemory) (start count : UInt64) (debugger : Debugger) :
    memory.dump? start count
        = (if start.toNat + count.toNat < UInt64.size then
            some (memory.cellsFrom start.toNat count.toNat)
          else none) ∧
      (memory.dump? start count = some (memory.cellsFrom start.toNat count.toNat) ↔
        start.toNat + count.toNat < UInt64.size) ∧
      debugger.extendedCells? count
        = if 256 + count.toNat < UInt64.size then
            some ((List.range' 256 (min count.toNat 256)).map debugger.machine.data.cellAt)
          else none := by
  by_cases hSum : start.toNat + count.toNat < UInt64.size
  · rw [if_pos hSum, dump?_of_lt hSum]
    exact ⟨rfl, iff_of_true rfl hSum, debugger.extendedCells?_eq count⟩
  · rw [if_neg hSum, dump?_of_le (Nat.not_lt.1 hSum)]
    exact ⟨rfl, iff_of_false (Option.some_ne_none _).symm hSum, debugger.extendedCells?_eq count⟩

/-- Not every dump gives the cells that are asked for, and not every view of the extended page has
as many as it should: the sum fails. -/
theorem dump_not_exact :
    (¬∀ (memory : DataMemory) (start count : UInt64),
      memory.dump? start count = some (memory.cellsFrom start.toNat count.toNat)) ∧
    ¬∀ (debugger : Debugger) (count : UInt64), ∃ cells,
      debugger.extendedCells? count = some cells ∧ cells.length = min count.toNat 256 := by
  constructor
  · intro hAll
    have hDump := hAll zeroed 510 18446744073709551615
    rw [dump?_of_le (by decide)] at hDump
    cases hDump
  · intro hAll
    obtain ⟨cells, hCells, -⟩ := hAll { machine := faultingMachine } 18446744073709551615
    rw [Debugger.extendedCells?_eq, if_neg (by decide)] at hCells
    cases hCells

end DataMemory

end ControlUnit
