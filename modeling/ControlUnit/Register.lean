/-!
# Registers

The thirty-two general registers and the status register.

A register operand is any byte. The register file reduces it modulo thirty-two, so
an access never fails and operands that differ by thirty-two name one register.

## Main results

* `RegisterFile.get_set` — a write changes the register it names and no other.
* `RegisterFile.ext_get` — a register file is known by what its registers hold.
-/

namespace ControlUnit

/-- The number of general registers. -/
def registerCount : Nat := 32

/-- The register that an operand selects. -/
def registerIndex (operand : UInt8) : Fin registerCount :=
  ⟨operand.toNat % registerCount, Nat.mod_lt _ (by decide)⟩

/-- The contents of the general registers, register zero first. -/
structure RegisterFile where
  cells : Vector UInt8 registerCount
  deriving DecidableEq

namespace RegisterFile

def zeroed : RegisterFile := ⟨Vector.replicate registerCount 0⟩

/-- The contents of the register that an operand selects. -/
def get (file : RegisterFile) (operand : UInt8) : UInt8 := file.cells[registerIndex operand]

/-- The file after a write to the register that an operand selects. -/
def set (file : RegisterFile) (operand value : UInt8) : RegisterFile :=
  ⟨file.cells.set (registerIndex operand) value⟩

def toList (file : RegisterFile) : List UInt8 := file.cells.toList

def isZeroed (file : RegisterFile) : Bool := file.toList.all (· == 0)

/-- The registers that do not hold zero, by number, with their contents. -/
def nonzero (file : RegisterFile) : List (Nat × UInt8) :=
  (file.toList.zipIdx.filter (·.1 != 0)).map fun cell => (cell.2, cell.1)

/-- A write changes the register it names and no other. -/
theorem get_set (file : RegisterFile) (operand value other : UInt8) :
    (file.set operand value).get other
      = if registerIndex operand = registerIndex other then value else file.get other := by
  simp only [get, set, Fin.getElem_fin, Vector.getElem_set, Fin.ext_iff]

@[simp] theorem get_zeroed (operand : UInt8) : zeroed.get operand = 0 := by
  simp [get, zeroed]

/-- A register file is known by what its registers hold. -/
theorem ext_get {first second : RegisterFile} (h : ∀ operand, first.get operand = second.get operand) :
    first = second := by
  obtain ⟨firstCells⟩ := first
  obtain ⟨secondCells⟩ := second
  congr 1
  apply Vector.ext
  intro index hIndex
  have hOperand := h (UInt8.ofNat index)
  have hSmall : index < 32 := hIndex
  have hRegister : (registerIndex (UInt8.ofNat index)).val = index := by
    simp [registerIndex, registerCount]
    omega
  simpa only [get, Fin.getElem_fin, hRegister] using hOperand

end RegisterFile

/-! ## The status register -/

/-- The status register with the flags interrupt, sign, negative, zero, overflow
and carry, in bits 5 to 0. No instruction writes it. -/
structure StatusRegister where
  /-- The byte that is stored. Its upper two bits are not flags. -/
  raw : UInt8 := 0
  deriving DecidableEq, Repr, Inhabited

namespace StatusRegister

/-- The flags of the register, without the two bits above them. -/
def bits (status : StatusRegister) : UInt8 := status.raw &&& 0x3F

def flag (status : StatusRegister) (mask : UInt8) : Bool := status.raw &&& mask != 0

/-- The register after it has been cleared. -/
def cleared (_ : StatusRegister) : StatusRegister := ⟨0⟩

end StatusRegister

end ControlUnit
