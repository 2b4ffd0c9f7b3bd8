import ControlUnit.Debugger
import Mathlib.Data.List.Nodup

/-!
# The disassembly window

The lines of the disassembly around the program counter are consecutive addresses.  The window
begins half of its lines before the counter, but not before address zero and not so late that it
would reach beyond the end of memory; a window of more lines than memory has cells is all of
memory.  So it always has the counter in it, and in its middle unless it touches an end of memory.

The window is looked for in sizes, for any number of lines.  The differences stop at zero, and the
one sum never fails, because a window of more lines than memory has cells begins at zero: there is
a disassembly for every number of lines.

## Main results

* `Debugger.toNat_windowStart` — where a window begins, in natural numbers.
* `Debugger.disassembly?_eq` — there always is a disassembly.
* `Debugger.getElem?_windowLines` — which line is where.
* `Debugger.filter_isCurrent_windowLines`, `Debugger.getElem?_address_iff` — one line is at the
  program counter.
-/

namespace ControlUnit.Debugger

variable {lines : UInt64}

/-! ## The ends of the window -/

theorem toNat_windowStart (pc : UInt8) (lines : UInt64) :
    (windowStart pc lines).toNat
      = min (pc.toNat - lines.toNat / 2) (programSize - lines.toNat) := by
  have hHalf : (lines / 2).toNat = lines.toNat / 2 := UInt64.toNat_div lines 2
  have hStart : (Size.monus pc.toUInt64 (lines / 2)).toNat = pc.toNat - lines.toNat / 2 := by
    rw [Size.toNat_monus, UInt8.toNat_toUInt64, hHalf]
  have hLatest : (Size.monus programSize.toUInt64 lines).toNat = programSize - lines.toNat :=
    Size.toNat_monus _ lines
  rw [← hStart, ← hLatest]
  show (if _ ≤ _ then _ else _ : UInt64).toNat = _
  split
  · rename_i hLe
    rw [UInt64.le_iff_toNat_le] at hLe
    exact (Nat.min_eq_left hLe).symm
  · rename_i hLe
    rw [UInt64.le_iff_toNat_le] at hLe
    exact (Nat.min_eq_right (by omega)).symm

theorem windowStart_add_le (pc : UInt8) (lines : UInt64) :
    (windowStart pc lines).toNat + min lines.toNat programSize ≤ programSize := by
  rw [toNat_windowStart]
  simp only [programSize]
  omega

/-- The sum that ends a window is a size. -/
theorem windowStart_add_lt (pc : UInt8) (lines : UInt64) :
    (windowStart pc lines).toNat + lines.toNat < UInt64.size := by
  have hPc := pc.toNat_lt
  have hLines : lines.toNat < UInt64.size := lines.toNat_lt
  rw [toNat_windowStart]
  simp only [programSize, UInt64.size] at hLines ⊢
  omega

/-- The program counter is in its window. -/
theorem pc_in_window (pc : UInt8) (hLines : 1 ≤ lines.toNat) :
    (windowStart pc lines).toNat ≤ pc.toNat ∧
      pc.toNat < (windowStart pc lines).toNat + min lines.toNat programSize := by
  have hPc := pc.toNat_lt
  rw [toNat_windowStart]
  simp only [programSize]
  omega

/-- The program counter is in the middle of its window, unless this touches an end of memory. -/
theorem windowStart_cases (pc : UInt8) (lines : UInt64) :
    (windowStart pc lines).toNat = 0 ∨
      (windowStart pc lines).toNat + min lines.toNat programSize = programSize ∨
      (windowStart pc lines).toNat + lines.toNat / 2 = pc.toNat := by
  rw [toNat_windowStart]
  simp only [programSize]
  omega

/-! ## The lines -/

variable {debugger : Debugger}

/-- The lines of a window around the program counter. -/
def windowLines (debugger : Debugger) (lines : UInt64) : List DisassemblyLine :=
  (List.range' (windowStart debugger.machine.pc lines).toNat (min lines.toNat programSize)).map
    fun address => debugger.lineAt address.toUInt8

/-- There is a disassembly for every number of lines: no sum fails. -/
theorem disassembly?_eq (debugger : Debugger) (lines : UInt64) :
    debugger.disassembly? lines = some (debugger.windowLines lines) := by
  obtain ⟨stop, hStop, hSum⟩ := Size.exists_sum? (windowStart_add_lt debugger.machine.pc lines)
  have hLength : min stop.toNat programSize - (windowStart debugger.machine.pc lines).toNat
      = min lines.toNat programSize := by
    rw [hSum, toNat_windowStart]
    simp only [programSize]
    omega
  rw [disassembly?]
  simp only [hStop, Option.map_some, hLength]
  rfl

theorem length_windowLines (debugger : Debugger) (lines : UInt64) :
    (debugger.windowLines lines).length = min lines.toNat programSize := by
  rw [windowLines, List.length_map, List.length_range']

theorem map_address_windowLines (debugger : Debugger) (lines : UInt64) :
    (debugger.windowLines lines).map (·.address.toNat)
      = List.range' (windowStart debugger.machine.pc lines).toNat
          (min lines.toNat programSize) := by
  rw [windowLines, List.map_map]
  refine (List.map_congr_left ?_).trans (List.map_id _)
  intro address hMem
  have hLast := windowStart_add_le debugger.machine.pc lines
  rw [List.mem_range'_1] at hMem
  show address.toUInt8.toNat = address
  exact UInt8.toNat_ofNat_of_lt' (Nat.lt_of_lt_of_le hMem.2 hLast)

/-- Which line is where. -/
theorem getElem?_windowLines (debugger : Debugger) (lines : UInt64) (index : Nat) :
    (debugger.windowLines lines)[index]?
      = if index < min lines.toNat programSize then
          some (debugger.lineAt
            ((windowStart debugger.machine.pc lines).toNat + index).toUInt8)
        else none := by
  rw [windowLines, List.getElem?_map]
  split
  · rename_i h
    rw [List.getElem?_range' h]
    simp
  · rename_i h
    rw [List.getElem?_eq_none (by rw [List.length_range']; omega)]
    rfl

/-- Where the line at the program counter is. -/
theorem getElem?_address_iff (debugger : Debugger) (h : 1 ≤ lines.toNat) (index : Nat) :
    ((debugger.windowLines lines)[index]?).map (·.address) = some debugger.machine.pc ↔
      index = debugger.machine.pc.toNat - (windowStart debugger.machine.pc lines).toNat := by
  obtain ⟨hStart, hStop⟩ := pc_in_window debugger.machine.pc h
  have hLast := windowStart_add_le debugger.machine.pc lines
  rw [getElem?_windowLines]
  split
  · have hByte : ((windowStart debugger.machine.pc lines).toNat + index).toUInt8.toNat
        = (windowStart debugger.machine.pc lines).toNat + index :=
      UInt8.toNat_ofNat_of_lt' (show _ < programSize by omega)
    rw [Option.map_some, Option.some_inj, lineAt, ← UInt8.toNat_inj, hByte]
    omega
  · simp only [Option.map_none, reduceCtorEq, false_iff]
    omega

/-- One line is at the program counter. -/
theorem filter_isCurrent_windowLines (debugger : Debugger) (h : 1 ≤ lines.toNat) :
    (debugger.windowLines lines).filter (·.isCurrent) = [debugger.lineAt debugger.machine.pc] := by
  have hWindow := pc_in_window debugger.machine.pc h
  have hLast := windowStart_add_le debugger.machine.pc lines
  rw [windowLines, List.filter_map]
  -- Addresses below the size of memory are told apart by their bytes.
  have hSame : ∀ address ∈ List.range' (windowStart debugger.machine.pc lines).toNat
      (min lines.toNat programSize), ((fun line => line.isCurrent) ∘ fun address : Nat =>
        debugger.lineAt address.toUInt8) address = (address == debugger.machine.pc.toNat) := by
    intro address hMem
    rw [List.mem_range'_1] at hMem
    have hByte : address.toUInt8.toNat = address :=
      UInt8.toNat_ofNat_of_lt' (Nat.lt_of_lt_of_le hMem.2 hLast)
    rw [Function.comp_apply, lineAt, Bool.eq_iff_iff, beq_iff_eq, beq_iff_eq, ← UInt8.toNat_inj,
      hByte]
  rw [List.filter_congr hSame, List.filter_beq,
    List.count_eq_one_of_mem List.nodup_range' (List.mem_range'_1.2 hWindow)]
  show [debugger.lineAt debugger.machine.pc.toNat.toUInt8] = _
  rw [Nat.toUInt8, UInt8.ofNat_toNat]

/-- Every line of a window is that of its address. -/
theorem eq_lineAt_of_mem {line : DisassemblyLine} (h : line ∈ debugger.windowLines lines) :
    line = debugger.lineAt line.address := by
  obtain ⟨address, -, rfl⟩ := List.mem_map.1 h
  rfl

theorem isCurrent_iff_of_mem {line : DisassemblyLine}
    (h : line ∈ debugger.windowLines lines) :
    line.isCurrent = true ↔ line.address = debugger.machine.pc := by
  rw [eq_lineAt_of_mem h]
  exact beq_iff_eq

end ControlUnit.Debugger
