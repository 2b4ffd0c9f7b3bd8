import ControlUnit.Assembly.Statement
import ControlUnit.Proofs.Reference
import Mathlib.Data.Nat.Bitwise

/-!
# Words of instructions

Which word an instruction has, and what is left of a word that is decoded and encoded again.

How many operands an opcode has is said by the table that the assembler reads operands by, so the
bits that an opcode uses (`Opcode.usedBits`) are known without decoding: its own byte, and those of
the operands in front.  A word with a known opcode is decoded to an instruction whose word is the
used part of it.  So the instruction has that word exactly if the operand bytes that its opcode does
not use are zero, and the upper eight bits never matter.

## Main results

* `Instruction.operands_ofOpcode` — the operands that are kept are those that the table counts.
* `toNat_and_usedBits` — the used part of a word, by its bytes.
* `Instruction.decode_cases` — the words that are no instructions, and the words of the others.
-/

namespace ControlUnit

open Assembly (operandKinds)

/-! ## Used bits -/

/-- The bits of a word that an opcode uses: its own byte and those of its operands. -/
def Opcode.usedBits (opcode : Opcode) : UInt32 :=
  match (operandKinds opcode).length with
  | 0 => 0xFF0000
  | 1 => 0xFFFF00
  | _ => 0xFFFFFF

/-- The operand bytes of a word that an opcode does not use. -/
def Opcode.unusedBytes (opcode : Opcode) (word : UInt32) : List UInt8 :=
  [(Reference.bytes word).first, (Reference.bytes word).second].drop (operandKinds opcode).length

/-- A mask of consecutive bits cuts a number on both sides. -/
theorem and_mask_shiftLeft (n low width : Nat) :
    n &&& ((2 ^ width - 1) <<< low) = n / 2 ^ low % 2 ^ width * 2 ^ low := by
  rw [← Nat.and_two_pow_sub_one_eq_mod, ← Nat.shiftRight_eq_div_pow, ← Nat.shiftLeft_eq]
  apply Nat.eq_of_testBit_eq
  intro index
  rw [Nat.testBit_and, Nat.testBit_shiftLeft, Nat.testBit_shiftLeft, Nat.testBit_and,
    Nat.testBit_shiftRight]
  by_cases hIndex : low ≤ index
  · simp [hIndex]
  · simp [hIndex]

theorem length_operandKinds_cases (opcode : Opcode) :
    (operandKinds opcode).length = 0 ∨ (operandKinds opcode).length = 1 ∨
      (operandKinds opcode).length = 2 := by
  cases opcode <;> decide

/-- The used part of a word, by its bytes. -/
theorem toNat_and_usedBits (word : UInt32) (opcode : Opcode) :
    (word &&& opcode.usedBits).toNat
      = word.toNat / 65536 % 256 * 65536
        + (if 0 < (operandKinds opcode).length then word.toNat / 256 % 256 else 0) * 256
        + (if 1 < (operandKinds opcode).length then word.toNat % 256 else 0) := by
  have hNone : word.toNat &&& 0xFF0000 = word.toNat / 65536 % 256 * 65536 :=
    and_mask_shiftLeft word.toNat 16 8
  have hOne : word.toNat &&& 0xFFFF00 = word.toNat / 256 % 65536 * 256 :=
    and_mask_shiftLeft word.toNat 8 16
  have hBoth : word.toNat &&& 0xFFFFFF = word.toNat % 16777216 :=
    Nat.and_two_pow_sub_one_eq_mod word.toNat 24
  rw [UInt32.toNat_and, Opcode.usedBits]
  rcases length_operandKinds_cases opcode with h | h | h
  · simp only [h, Nat.lt_irrefl, Nat.not_lt_zero, if_false]
    refine hNone.trans ?_
    omega
  · simp only [h, Nat.lt_irrefl, Nat.zero_lt_one, if_true, if_false]
    refine hOne.trans ?_
    omega
  · simp only [h, Nat.zero_lt_two, Nat.one_lt_two, if_true]
    refine hBoth.trans ?_
    omega

/-- The used part of a word is all that is significant of it exactly if the bytes that are not used
are zero. -/
theorem and_usedBits_eq_significant_iff (word : UInt32) (opcode : Opcode) :
    word &&& opcode.usedBits = significant word ↔ ∀ byte ∈ opcode.unusedBytes word, byte = 0 := by
  obtain ⟨-, hFirst, hSecond⟩ := Fields.toNat_split word
  have hZero : ∀ byte : UInt8, byte = 0 ↔ byte.toNat = 0 := by
    intro byte
    rw [← UInt8.toNat_inj]
    rfl
  rw [← UInt32.toNat_inj, toNat_and_usedBits, toNat_significant, Opcode.unusedBytes,
    Reference.bytes_eq_split]
  rcases length_operandKinds_cases opcode with h | h | h
  · rw [h, List.drop_zero, List.forall_mem_cons, List.forall_mem_singleton, hZero, hZero,
      hFirst, hSecond]
    simp only [Nat.lt_irrefl, Nat.not_lt_zero, if_false]
    omega
  · rw [h, List.drop_one, List.tail_cons, List.forall_mem_singleton, hZero, hSecond]
    simp only [Nat.lt_irrefl, Nat.zero_lt_one, if_true, if_false]
    omega
  · have hAll : ∀ byte ∈ ([] : List UInt8), byte = 0 := List.forall_mem_nil _
    rw [h]
    simp only [Nat.zero_lt_two, Nat.one_lt_two, if_true]
    refine iff_of_true ?_ hAll
    omega

/-! ## Decoding and encoding -/

namespace Instruction

theorem opcode_ofOpcode (first second : UInt8) (opcode : Opcode) :
    (ofOpcode first second opcode).opcode = opcode := by
  cases opcode <;> rfl

/-- The operands that are kept are those that the table counts. -/
theorem operands_ofOpcode (first second : UInt8) (opcode : Opcode) :
    (ofOpcode first second opcode).operands
      = (if 0 < (operandKinds opcode).length then first else 0,
          if 1 < (operandKinds opcode).length then second else 0) := by
  cases opcode <;> rfl

/-- The instruction that is decoded from a word has the used part of it as its word. -/
theorem encode_ofOpcode {word : UInt32} {opcode : Opcode}
    (h : opcode.code = (Fields.split word).opcode) :
    (ofOpcode (Fields.split word).first (Fields.split word).second opcode).encode
      = word &&& opcode.usedBits := by
  obtain ⟨hOpcode, hFirst, hSecond⟩ := Fields.toNat_split word
  apply UInt32.toNat_inj.1
  rw [encode, Fields.toNat_join, toNat_and_usedBits, fields, opcode_ofOpcode, operands_ofOpcode]
  simp only [apply_ite UInt8.toNat, h, hOpcode, hFirst, hSecond]
  rfl

/-- A word is no instruction, or that of its opcode and of the operands that this uses. -/
theorem decode_cases (word : UInt32) :
    (0x0B < (Fields.split word).opcode ∧
      decode word = .error (.invalidOpcode (Fields.split word).opcode)) ∨
    ((Fields.split word).opcode ≤ 0x0B ∧
      ∃ instruction, decode word = .ok instruction ∧
        instruction.opcode.code = (Fields.split word).opcode ∧
        instruction.encode = word &&& instruction.opcode.usedBits) := by
  cases hDecode : decode word with
  | error reason =>
      obtain ⟨hAbove, hReason⟩ := ofFields_eq_error_iff.1 hDecode
      exact .inl ⟨hAbove, congrArg Except.error hReason⟩
  | ok instruction =>
      obtain ⟨opcode, hCode, rfl⟩ := ofFields_eq_ok_iff.1 hDecode
      have hKnown : ¬0x0B < (Fields.split word).opcode := by
        intro hAbove
        have hError : decode word = .error (.invalidOpcode (Fields.split word).opcode) :=
          ofFields_eq_error_iff.2 ⟨hAbove, rfl⟩
        rw [hDecode] at hError
        cases hError
      refine .inr ⟨UInt8.not_lt.1 hKnown, _, rfl, ?_, ?_⟩
      · rw [opcode_ofOpcode, hCode]
      · rw [opcode_ofOpcode, encode_ofOpcode hCode]

/-- **Instructions and their words.**  An instruction is decoded from its word, which has 24 bits.
A word is no instruction exactly if its opcode byte is above eleven, and that byte is reported;
else the word of its instruction is the word without the upper eight bits and with zeros for the
operand bytes that its opcode does not use, so it is all of the 24 bits exactly if these are zero
already. -/
theorem inverse_on_used_bits :
    (∀ instruction : Instruction,
      decode instruction.encode = .ok instruction ∧ instruction.encode.toNat < 0x1000000) ∧
    ∀ word : UInt32,
      (0x0B < (Reference.bytes word).opcode ∧
        decode word = .error (.invalidOpcode (Reference.bytes word).opcode)) ∨
      ((Reference.bytes word).opcode ≤ 0x0B ∧
        ∃ instruction, decode word = .ok instruction ∧
          instruction.opcode.code = (Reference.bytes word).opcode ∧
          instruction.encode = word &&& instruction.opcode.usedBits ∧
          (instruction.encode = significant word ↔
            ∀ byte ∈ instruction.opcode.unusedBytes word, byte = 0)) := by
  constructor
  · intro instruction
    exact ⟨decode_encode instruction, instruction.fields.toNat_join_lt⟩
  · intro word
    rw [Reference.bytes_eq_split]
    rcases decode_cases word with hError | ⟨hKnown, instruction, hDecode, hOpcode, hEncode⟩
    · exact .inl hError
    · refine .inr ⟨hKnown, instruction, hDecode, hOpcode, hEncode, ?_⟩
      rw [hEncode]
      exact and_usedBits_eq_significant_iff word instruction.opcode

end Instruction

end ControlUnit
