import ControlUnit.Program

/-!
# Program memory

The 256 word cells from which instructions are fetched, together with the program
they are filled from. Loading copies the program into the cells; it has an effect
only the first time.

## Main results

* `ProgramMemory.load_load` — loading twice is loading once.
* `ProgramMemory.read_load` — after the first load a cell holds the word of the
  program, or what it held before where the program has none.
-/

namespace ControlUnit

/-- Program memory and the program that belongs into it. -/
structure ProgramMemory where
  /-- The program the cells are filled from. -/
  image : Program
  /-- The words that are fetched. -/
  cells : Vector UInt32 programSize := Vector.replicate programSize 0
  /-- Whether the program has been copied into the cells. -/
  loaded : Bool := false
  deriving DecidableEq

namespace ProgramMemory

/-- Empty memory for a program, or the reason why the program cannot be loaded. -/
def ofProgram (image : Program) : Except ProgramError ProgramMemory :=
  match image.check with
  | .ok () => .ok { image := image }
  | .error reason => .error reason

/-- Copy the program into the cells, unless that has been done. -/
def load (memory : ProgramMemory) : ProgramMemory :=
  if memory.loaded then memory
  else
    { memory with
      cells := Vector.ofFn fun address => (memory.image.words[address.val]?).getD memory.cells[address]
      loaded := true }

/-- The word at an address. -/
def read (memory : ProgramMemory) (address : UInt8) : UInt32 :=
  have _inRange : address.toNat < programSize := address.toNat_lt
  memory.cells[address.toNat]

/-- The name of the subroutine that contains an address. -/
def subroutineName (memory : ProgramMemory) (address : UInt8) : String :=
  memory.image.subroutineName address.toUInt16

/-- Loading twice is loading once. -/
@[simp] theorem load_load (memory : ProgramMemory) : memory.load.load = memory.load := by
  by_cases h : memory.loaded = true <;> simp [load, h]

/-- The first load puts each word of the program into its cell. -/
theorem read_load {memory : ProgramMemory} (h : memory.loaded = false) (address : UInt8) :
    memory.load.read address = (memory.image.words[address.toNat]?).getD (memory.read address) := by
  simp [load, read, h]
  rfl

end ProgramMemory

end ControlUnit
