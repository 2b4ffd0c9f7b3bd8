import ControlUnit.Opcode
import ControlUnit.Text.Numeral

/-!
# Instruction words

An instruction is a 24-bit word, held in 32 bits of which the upper eight are
ignored: the opcode in bits 23 to 16, the first operand in bits 15 to 8, the
second in bits 7 to 0.

`Fields` is the word taken apart, `Instruction` is what it means. Register operands
stay raw bytes here; the register file reduces them when it is accessed. An opcode
with one operand ignores the second field, one with none ignores both.

## Main results

* `Fields.split_join` — fields packed into a word come apart again.
* `Fields.join_split` — packing the fields of a word clears its upper eight bits.
* `Instruction.ofFields_eq_ok_iff`, `Instruction.ofFields_eq_error_iff` — which fields
  encode which instruction, and which encode none.
* `Instruction.decode_encode` — an encoded instruction decodes to itself.
-/

namespace ControlUnit

/-! ## Fields -/

/-- The three bytes of an instruction word. -/
structure Fields where
  /-- Bits 23 to 16. -/
  opcode : UInt8 := 0
  /-- Bits 15 to 8. -/
  first : UInt8 := 0
  /-- Bits 7 to 0. -/
  second : UInt8 := 0
  deriving DecidableEq, Repr, Inhabited

namespace Fields

/-- The fields of a word. -/
def split (word : UInt32) : Fields where
  opcode := (word >>> 16).toUInt8
  first := (word >>> 8).toUInt8
  second := word.toUInt8

/-- The word with the given fields. Its upper eight bits are clear. -/
def join (fields : Fields) : UInt32 :=
  fields.opcode.toUInt32 <<< 16 ||| fields.first.toUInt32 <<< 8 ||| fields.second.toUInt32

end Fields

/-- The part of a word that belongs to the instruction. -/
def significant (word : UInt32) : UInt32 := word &&& 0xFFFFFF

/-! ## Instructions -/

/-- A decoded instruction, with its operands named by what they select. -/
inductive Instruction where
  | nop
  /-- Set a register to a constant. -/
  | loadImmediate (register value : UInt8)
  /-- Copy a register to another. -/
  | move (target source : UInt8)
  /-- Write a register to an I/O address. -/
  | output (address register : UInt8)
  /-- Read an I/O address into a register. -/
  | input (register address : UInt8)
  /-- Write a register to the extended page. -/
  | store (address register : UInt8)
  /-- Read the extended page into a register. -/
  | load (register address : UInt8)
  /-- Continue at an address. -/
  | jump (target : UInt8)
  /-- Push the program counter and continue at an address. -/
  | call (target : UInt8)
  /-- Continue at the address popped from the stack. -/
  | ret
  | push (register : UInt8)
  | pop (register : UInt8)
  deriving DecidableEq, Repr

/-- Why a word is no instruction. -/
inductive DecodeError where
  /-- The opcode field encodes no operation. -/
  | invalidOpcode (code : UInt8)
  deriving DecidableEq, Repr

def DecodeError.message : DecodeError → String
  | invalidOpcode code => "invalid opcode: " ++ Text.hexByte code

namespace Instruction

def opcode : Instruction → Opcode
  | nop => .nop
  | loadImmediate .. => .loadImmediate
  | move .. => .move
  | output .. => .output
  | input .. => .input
  | store .. => .store
  | load .. => .load
  | jump .. => .jump
  | call .. => .call
  | ret => .ret
  | push .. => .push
  | pop .. => .pop

/-- The two operand fields of an instruction. A field that the operation does not
use is zero. -/
def operands : Instruction → UInt8 × UInt8
  | nop => (0, 0)
  | loadImmediate register value => (register, value)
  | move target source => (target, source)
  | output address register => (address, register)
  | input register address => (register, address)
  | store address register => (address, register)
  | load register address => (register, address)
  | jump target => (target, 0)
  | call target => (target, 0)
  | ret => (0, 0)
  | push register => (register, 0)
  | pop register => (register, 0)

/-- The instruction with a given operation and operand fields. -/
def ofOpcode (first second : UInt8) : Opcode → Instruction
  | .nop => nop
  | .loadImmediate => loadImmediate first second
  | .move => move first second
  | .output => output first second
  | .input => input first second
  | .store => store first second
  | .load => load first second
  | .jump => jump first
  | .call => call first
  | .ret => ret
  | .push => push first
  | .pop => pop first

def ofFields (fields : Fields) : Except DecodeError Instruction :=
  match Opcode.ofCode? fields.opcode with
  | some opcode => .ok (ofOpcode fields.first fields.second opcode)
  | none => .error (.invalidOpcode fields.opcode)

def fields (instruction : Instruction) : Fields where
  opcode := instruction.opcode.code
  first := instruction.operands.1
  second := instruction.operands.2

/-- The instruction that a word encodes. -/
def decode (word : UInt32) : Except DecodeError Instruction := ofFields (.split word)

/-- The word that encodes an instruction. -/
def encode (instruction : Instruction) : UInt32 := instruction.fields.join

end Instruction

/-! ## Packing and unpacking -/

namespace Fields

/-- The word of fields, as a number. -/
theorem toNat_join (fields : Fields) :
    fields.join.toNat
      = fields.opcode.toNat * 65536 + fields.first.toNat * 256 + fields.second.toNat := by
  have hOpcode := fields.opcode.toNat_lt
  have hFirst := fields.first.toNat_lt
  have hSecond := fields.second.toNat_lt
  have hHigh : (fields.opcode.toUInt32 <<< 16).toNat = fields.opcode.toNat <<< 16 := by
    simp [Nat.shiftLeft_eq]; omega
  have hMiddle : (fields.first.toUInt32 <<< 8).toNat = fields.first.toNat <<< 8 := by
    simp [Nat.shiftLeft_eq]; omega
  have hLow : fields.first.toNat <<< 8 ||| fields.second.toNat
      = fields.first.toNat * 256 + fields.second.toNat := by
    rw [← Nat.shiftLeft_add_eq_or_of_lt (by omega), Nat.shiftLeft_eq]
  rw [join, UInt32.toNat_or, UInt32.toNat_or, hHigh, hMiddle, UInt8.toNat_toUInt32,
    Nat.or_assoc, hLow, ← Nat.shiftLeft_add_eq_or_of_lt (by omega), Nat.shiftLeft_eq]
  omega

/-- The upper eight bits of the word of fields are clear. -/
theorem toNat_join_lt (fields : Fields) : fields.join.toNat < 16777216 := by
  have hOpcode := fields.opcode.toNat_lt
  have hFirst := fields.first.toNat_lt
  have hSecond := fields.second.toNat_lt
  rw [toNat_join]
  omega

/-- The fields of a word, as digits of base 256. -/
theorem toNat_split (word : UInt32) :
    (split word).opcode.toNat = word.toNat / 65536 % 256 ∧
      (split word).first.toNat = word.toNat / 256 % 256 ∧
      (split word).second.toNat = word.toNat % 256 := by
  simp [split, Nat.shiftRight_eq_div_pow]

/-- Fields packed into a word come apart again. -/
@[simp] theorem split_join (fields : Fields) : split fields.join = fields := by
  obtain ⟨hOpcode, hFirst, hSecond⟩ := toNat_split fields.join
  rw [toNat_join] at hOpcode hFirst hSecond
  have := fields.opcode.toNat_lt
  have := fields.first.toNat_lt
  have := fields.second.toNat_lt
  have hOpcodeEq : (split fields.join).opcode = fields.opcode := UInt8.toNat_inj.1 (by omega)
  have hFirstEq : (split fields.join).first = fields.first := UInt8.toNat_inj.1 (by omega)
  have hSecondEq : (split fields.join).second = fields.second := UInt8.toNat_inj.1 (by omega)
  exact (Fields.mk.injEq ..).mpr ⟨hOpcodeEq, hFirstEq, hSecondEq⟩

end Fields

/-- The significant part of a word, as a number. -/
theorem toNat_significant (word : UInt32) : (significant word).toNat = word.toNat % 16777216 := by
  rw [significant, UInt32.toNat_and]
  exact Nat.and_two_pow_sub_one_eq_mod word.toNat 24

/-- Packing the fields of a word clears its upper eight bits. -/
@[simp] theorem Fields.join_split (word : UInt32) : (split word).join = significant word := by
  obtain ⟨hOpcode, hFirst, hSecond⟩ := toNat_split word
  apply UInt32.toNat_inj.1
  rw [toNat_join, toNat_significant]
  omega

namespace Instruction

/-- The fields of an instruction encode it. -/
@[simp] theorem ofFields_fields (instruction : Instruction) :
    ofFields instruction.fields = .ok instruction := by
  cases instruction <;> rfl

/-- Fields encode an instruction exactly if their first byte is the code of its
operation. -/
theorem ofFields_eq_ok_iff {fields : Fields} {instruction : Instruction} :
    ofFields fields = .ok instruction ↔
      ∃ opcode, opcode.code = fields.opcode ∧
        ofOpcode fields.first fields.second opcode = instruction := by
  rw [ofFields]
  cases hCode : Opcode.ofCode? fields.opcode with
  | none =>
      simp only [reduceCtorEq, false_iff]
      rintro ⟨opcode, hOpcode, -⟩
      rw [Opcode.ofCode?_eq_some_iff.2 hOpcode] at hCode
      cases hCode
  | some found =>
      have hFound := Opcode.ofCode?_eq_some_iff.1 hCode
      constructor
      · intro h
        exact ⟨found, hFound, Except.ok.inj h⟩
      · rintro ⟨opcode, hOpcode, rfl⟩
        rw [Opcode.code_injective (hFound.trans hOpcode.symm)]

/-- Fields encode no instruction exactly if their first byte is above eleven, and that
byte is then reported. -/
theorem ofFields_eq_error_iff {fields : Fields} {reason : DecodeError} :
    ofFields fields = .error reason ↔
      0x0B < fields.opcode ∧ reason = .invalidOpcode fields.opcode := by
  rw [ofFields, ← Opcode.ofCode?_eq_none_iff]
  cases Opcode.ofCode? fields.opcode with
  | none => simp [eq_comm]
  | some opcode => simp

/-- An encoded instruction decodes to itself. -/
@[simp] theorem decode_encode (instruction : Instruction) :
    decode instruction.encode = .ok instruction := by
  simp [decode, encode]

end Instruction

end ControlUnit
