import ControlUnit.DataMemory
import ControlUnit.Instruction
import ControlUnit.Program
import ControlUnit.Register
import ControlUnit.Text.Column

/-!
# Listings

Instructions and programs as assembly text.

A word is written as the instruction it encodes if assembling that text would give
the word back: its unused operands are zero and its registers exist. Any other word
with a known opcode is written as data, so a listing still assembles to the same
words. A word with an unknown opcode is marked.
-/

namespace ControlUnit

def registerName (operand : UInt8) : String := "R" ++ Text.decimal (registerIndex operand)

/-- An I/O address: its name if it has one, else its value. -/
def ioName (address : UInt8) : String :=
  match ioRegisters.find? fun named => named.2 == address with
  | some named => named.1
  | none => Text.hexByte address

namespace Instruction

/-- An instruction as assembly text. A register operand is shown as the register it
selects. -/
def text (instruction : Instruction) : String :=
  let mnemonic := instruction.opcode.mnemonic
  match instruction with
  | nop => mnemonic
  | loadImmediate register value => mnemonic ++ " " ++ registerName register ++ ", " ++ Text.hexByte value
  | move target source => mnemonic ++ " " ++ registerName target ++ ", " ++ registerName source
  | output address register => mnemonic ++ " " ++ ioName address ++ ", " ++ registerName register
  | input register address => mnemonic ++ " " ++ registerName register ++ ", " ++ ioName address
  | store address register => mnemonic ++ " " ++ Text.hexByte address ++ ", " ++ registerName register
  | load register address => mnemonic ++ " " ++ registerName register ++ ", " ++ Text.hexByte address
  | jump target => mnemonic ++ " " ++ Text.decimal target.toNat
  | call target => mnemonic ++ " " ++ Text.decimal target.toNat
  | ret => mnemonic
  | push register => mnemonic ++ " " ++ registerName register
  | pop register => mnemonic ++ " " ++ registerName register

def registers : Instruction → List UInt8
  | nop => []
  | loadImmediate register _ => [register]
  | move target source => [target, source]
  | output _ register => [register]
  | input register _ => [register]
  | store _ register => [register]
  | load register _ => [register]
  | jump _ => []
  | call _ => []
  | ret => []
  | push register => [register]
  | pop register => [register]

/-- Whether every register operand names the register it selects. -/
def registersExist (instruction : Instruction) : Bool :=
  instruction.registers.all fun register => register.toNat < registerCount

end Instruction

/-- The fields of a word, each with its name. -/
def Fields.text (fields : Fields) : String :=
  "opcode=" ++ Text.hexByte fields.opcode ++ " op1=" ++ Text.hexByte fields.first
    ++ " op2=" ++ Text.hexByte fields.second

namespace Listing

/-- A word in base sixteen with six digits, or more if the word has more. -/
def wordDigits (word : UInt32) : String := Text.padded 16 6 word.toNat

/-- A word as assembly text. -/
def wordText (word : UInt32) : String :=
  let word := significant word
  match Instruction.decode word with
  | .ok instruction =>
    if instruction.encode == word && instruction.registersExist then instruction.text
    else "DW 0x" ++ wordDigits word
  | .error _ => "??? 0x" ++ wordDigits word

inductive Row where
  | remark (text : String)
  /-- The label of a subroutine, set off by a blank line. -/
  | label (name : String)
  /-- A word and its address. -/
  | word (address : Nat) (bits : UInt32)
  deriving DecidableEq, Repr

/-- The lines of a part of a listing. The comment of a word shows all of its bits. -/
def Row.lines : Row → List String
  | .remark text => ["; " ++ text]
  | .label name => ["", name ++ ":"]
  | .word address bits =>
    [Text.padded 10 3 address ++ ": " ++ Text.flushLeft 20 (wordText bits) ++ " ; " ++ wordDigits bits]

/-- The label row at an address, for the first subroutine that starts there. -/
def labelAt (subroutines : List Subroutine) (address : Nat) : List Row :=
  match subroutines.find? fun subroutine => subroutine.start.toNat == address with
  | some subroutine => [.label subroutine.name]
  | none => []

def rows (program : Program) : List Row :=
  [.remark "cu8 disassembly", .remark "---------------"]
    ++ program.words.zipIdx.flatMap fun cell =>
        labelAt program.subroutines cell.2 ++ [.word cell.2 cell.1]

end Listing

def Program.listing (program : Program) : String :=
  Text.ofLines ((Listing.rows program).flatMap Listing.Row.lines)

end ControlUnit
