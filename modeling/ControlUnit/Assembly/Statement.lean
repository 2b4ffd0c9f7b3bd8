import ControlUnit.Assembly.Expression

/-!
# Statements

What a line of source text says. A line holds a label, a statement, or a label and
then a statement. A statement defines a constant, sets the origin, places a word, or
is an instruction.

The operands of a statement are the texts between its commas that are not blank. How
an operand is read depends on the instruction: some operands name registers, the
others are expressions.
-/

namespace ControlUnit.Assembly

/-! ## Operands -/

inductive OperandKind where
  | register
  | value
  deriving DecidableEq, Repr

/-- The operands of an instruction, in the order of its fields. -/
def operandKinds : Opcode → List OperandKind
  | .nop => []
  | .loadImmediate => [.register, .value]
  | .move => [.register, .register]
  | .output => [.value, .register]
  | .input => [.register, .value]
  | .store => [.value, .register]
  | .load => [.register, .value]
  | .jump => [.value]
  | .call => [.value]
  | .ret => []
  | .push => [.register]
  | .pop => [.register]

inductive Operand where
  | register (number : UInt8)
  /-- A text that stands for a register and names none. -/
  | unknownRegister (text : String)
  | value (expression : Expression)
  deriving DecidableEq, Repr

/-- The operand that a text writes. -/
def Operand.ofText (text : List Char) : OperandKind → Operand
  | .register =>
    match register? text with
    | some number => .register number
    | none => .unknownRegister (String.ofList text)
  | .value => .value (.ofText text)

/-- The byte that an operand puts into its field. -/
def Operand.byte (symbols : Symbols) : Operand → Except LineError UInt8
  | .register number => .ok number
  | .unknownRegister text => .error (.invalidRegister text)
  | .value expression =>
    match expression.value symbols with
    | .error cause => .error cause
    | .ok found =>
      if 0 ≤ found ∧ found ≤ 255 then .ok found.toInt.toNat.toUInt8
      else .error (.valueOutOfRange found)

/-! ## Statements -/

inductive Statement where
  /-- A symbol and its value. -/
  | constant (name : String) (value : Expression)
  /-- The address at which to continue. -/
  | origin (address : Expression)
  /-- A word of data. -/
  | word (value : Expression)
  | instruction (opcode : Opcode) (operands : List Operand)
  deriving DecidableEq, Repr

def operandTexts (text : List Char) : List (List Char) :=
  ((text.splitOn ',').map Text.trim).filter fun operand => !operand.isEmpty

/-- The only operand of a directive. -/
def soleOperand (directive : Directive) : List (List Char) → Except LineError Expression
  | [operand] => .ok (.ofText operand)
  | _ => .error (.directiveOperands directive)

/-- The statement with a given mnemonic and operand texts. -/
def Statement.ofMnemonic (mnemonic : String) (operands : List (List Char)) :
    Except LineError Statement :=
  let capitals := mnemonic.toList.map Char.toUpper
  if capitals = Directive.origin.name.toList then (soleOperand .origin operands).map .origin
  else if capitals = Directive.word.name.toList then (soleOperand .word operands).map .word
  else
    match Opcode.ofMnemonic? mnemonic with
    | none => .error (.unknownMnemonic mnemonic)
    | some opcode =>
      let kinds := operandKinds opcode
      if operands.length = kinds.length then
        .ok (.instruction opcode (List.zipWith Operand.ofText operands kinds))
      else .error (.operandCount opcode kinds.length operands.length)

/-- The statement that a text writes. -/
def Statement.ofText (text : List Char) : Except LineError Statement :=
  match Text.cut? '=' text with
  | some (name, value) => (readName (Text.trim name)).map fun name => .constant name (.ofText value)
  | none =>
    ofMnemonic (String.ofList (text.takeWhile fun c => !Text.isBlank c))
      (operandTexts (text.dropWhile fun c => !Text.isBlank c))

/-! ## Labels -/

/-- A label. A local label opens no subroutine. -/
structure Label where
  name : String
  isLocal : Bool
  deriving DecidableEq, Repr

/-- The label that the text before a colon writes. A dot marks it as local. -/
def Label.ofText (text : List Char) : Except LineError Label :=
  match Text.trim text with
  | '.' :: name => (readName name).map fun name => ⟨name, true⟩
  | name => (readName name).map fun name => ⟨name, false⟩

/-! ## Lines -/

/-- A line of source text: the text before its first colon, if it has one, and the
trimmed text of its statement, which may be empty. -/
structure SourceLine where
  label? : Option (List Char)
  statement : List Char
  deriving DecidableEq, Repr

def SourceLine.ofText (line : List Char) : SourceLine :=
  let content := Text.content line
  match Text.cut? ':' content with
  | some (label, rest) => ⟨some label, Text.trim rest⟩
  | none => ⟨none, content⟩

end ControlUnit.Assembly
