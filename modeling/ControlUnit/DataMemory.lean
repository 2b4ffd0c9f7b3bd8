import ControlUnit.Size

/-!
# Data memory

Five hundred and twelve byte cells in two pages. The I/O page, addresses 0 to 255,
is reached by the instructions for input and output; three of its cells are the
registers of the pins. The extended page, addresses 256 to 511, is reached by the
instructions that store and load.

Addresses beyond the memory read as zero, and writes to them are dropped.

## Main results

* `DataMemory.read_write` — a write changes the cell it names and no other.
* `DataMemory.read_of_le` — there is nothing beyond the memory.
-/

namespace ControlUnit

/-- The number of cells of data memory. -/
def dataSize : Nat := 512

/-- The address at which the extended page begins. -/
def extendedPage : UInt16 := 256

/-! ## The pins -/

/-- The address of the register that reads the pins. -/
def pinB : UInt8 := 0x03

/-- The address of the register that holds the directions of the pins. -/
def directionB : UInt8 := 0x04

/-- The address of the register that drives the pins. -/
def dataB : UInt8 := 0x05

/-- The named I/O registers, in the order in which reports show them. -/
def ioRegisters : List (String × UInt8) := [("DDRB", directionB), ("PORTB", dataB), ("PINB", pinB)]

/-! ## The memory -/

/-- The contents of data memory. -/
structure DataMemory where
  cells : Vector UInt8 dataSize
  deriving DecidableEq

namespace DataMemory

def zeroed : DataMemory := ⟨Vector.replicate dataSize 0⟩

/-- The contents of a cell, or zero beyond the memory. -/
def read (memory : DataMemory) (address : UInt16) : UInt8 :=
  if h : address.toNat < dataSize then memory.cells[address.toNat] else 0

/-- The memory after a write to a cell. A write beyond the memory is dropped. -/
def write (memory : DataMemory) (address : UInt16) (value : UInt8) : DataMemory :=
  if h : address.toNat < dataSize then ⟨memory.cells.set address.toNat value⟩ else memory

def toList (memory : DataMemory) : List UInt8 := memory.cells.toList

/-- The cells that do not hold zero, by address, with their contents. -/
def nonzero (memory : DataMemory) : List (Nat × UInt8) :=
  (memory.toList.zipIdx.filter (·.1 != 0)).map fun cell => (cell.2, cell.1)

/-- The cells from `start` up to `start + count`, as far as the memory reaches. The sum
is looked for first, so there is no result if it fails. -/
def dump? (memory : DataMemory) (start count : UInt64) : Option (List (Nat × UInt8)) :=
  (Size.sum? start count).map fun stop =>
    ((memory.toList.zipIdx.take (min stop.toNat dataSize)).drop start.toNat).map fun cell =>
      (cell.2, cell.1)

/-- A write changes the cell it names, if there is one, and no other. -/
theorem read_write (memory : DataMemory) (address other : UInt16) (value : UInt8) :
    (memory.write address value).read other
      = if address = other ∧ address.toNat < dataSize then value else memory.read other := by
  unfold read write
  by_cases hAddress : address.toNat < dataSize
  · by_cases hOther : other.toNat < dataSize
    · simp only [hAddress, hOther, dif_pos, and_true, Vector.getElem_set, UInt16.toNat_inj]
    · have hne : address ≠ other := by rintro rfl; exact hOther hAddress
      simp [hAddress, hOther, hne]
  · simp [hAddress]

@[simp] theorem read_zeroed (address : UInt16) : zeroed.read address = 0 := by
  simp [read, zeroed]

/-- There is nothing beyond the memory. -/
theorem read_of_le (memory : DataMemory) {address : UInt16} (h : dataSize ≤ address.toNat) :
    memory.read address = 0 := by
  simp [read, Nat.not_lt.2 h]

end DataMemory

end ControlUnit
