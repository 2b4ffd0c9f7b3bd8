/-!
# Operation codes

The twelve operations of the control unit, the byte that encodes each, and the
mnemonic it is written with.

## Main results

* `Opcode.ofCode?_eq_some_iff` — the code of an opcode, and no other byte, is read
  as that opcode.
* `Opcode.ofCode?_eq_none_iff` — exactly the bytes above eleven encode nothing.
-/

namespace ControlUnit

/-- The operations of the instruction set, in the order of their codes. -/
inductive Opcode where
  | nop
  | loadImmediate
  | move
  | output
  | input
  | store
  | load
  | jump
  | call
  | ret
  | push
  | pop
  deriving DecidableEq, Repr

namespace Opcode

/-- Every opcode, in the order of the codes. -/
def all : List Opcode :=
  [nop, loadImmediate, move, output, input, store, load, jump, call, ret, push, pop]

/-- The byte that encodes an opcode. -/
def code : Opcode → UInt8
  | nop => 0x00
  | loadImmediate => 0x01
  | move => 0x02
  | output => 0x03
  | input => 0x04
  | store => 0x05
  | load => 0x06
  | jump => 0x07
  | call => 0x08
  | ret => 0x09
  | push => 0x0A
  | pop => 0x0B

/-- The opcode that a byte encodes. -/
def ofCode? (code : UInt8) : Option Opcode := all.find? fun opcode => opcode.code == code

/-- The name an opcode has in assembly text. -/
def mnemonic : Opcode → String
  | nop => "NOP"
  | loadImmediate => "LDI"
  | move => "MOV"
  | output => "OUT"
  | input => "IN"
  | store => "STS"
  | load => "LDS"
  | jump => "JMP"
  | call => "CALL"
  | ret => "RET"
  | push => "PUSH"
  | pop => "POP"

/-- The opcode with a given mnemonic. The case of the letters `a` to `z` does not
matter, and no other character has a case here. -/
def ofMnemonic? (name : String) : Option Opcode :=
  all.find? fun opcode => opcode.mnemonic.toList == name.toList.map Char.toUpper

theorem mem_all (opcode : Opcode) : opcode ∈ all := by
  cases opcode <;> decide

/-- Different opcodes have different codes. -/
theorem code_injective {first second : Opcode} (h : first.code = second.code) :
    first = second := by
  cases first <;> cases second <;> first | rfl | exact absurd h (by decide)

@[simp] theorem ofCode?_code (opcode : Opcode) : ofCode? opcode.code = some opcode := by
  cases opcode <;> decide

/-- The code of an opcode, and no other byte, is read as that opcode. -/
theorem ofCode?_eq_some_iff {code : UInt8} {opcode : Opcode} :
    ofCode? code = some opcode ↔ opcode.code = code := by
  constructor
  · intro h
    simpa using List.find?_some h
  · rintro rfl
    exact ofCode?_code opcode

/-- Exactly the bytes above eleven encode nothing. -/
theorem ofCode?_eq_none_iff {code : UInt8} : ofCode? code = none ↔ 0x0B < code := by
  constructor
  · intro h
    by_cases hCode : 0x0B < code
    · exact hCode
    · exfalso
      have hSmall : code.toNat < 12 := by
        have := UInt8.not_lt.1 hCode
        have := UInt8.le_iff_toNat_le.1 this
        simp at this
        omega
      have hOf : code = UInt8.ofNat code.toNat := by simp
      rw [hOf] at h
      generalize code.toNat = n at hSmall h
      match n with
      | 0 | 1 | 2 | 3 | 4 | 5 | 6 | 7 | 8 | 9 | 10 | 11 => exact absurd h (by decide)
      | _ + 12 => omega
  · intro h
    rw [ofCode?, List.find?_eq_none]
    intro opcode _ hEq
    have : opcode.code = code := by simpa using hEq
    subst this
    cases opcode <;> exact absurd h (by decide)

end Opcode

end ControlUnit
