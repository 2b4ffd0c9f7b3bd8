import ControlUnit.Opcode
import ControlUnit.Program
import ControlUnit.Text.Numeral

/-!
# Assembly errors

What can be wrong with a source text: the fault of one line, or a program that
cannot be loaded. A line's fault is told by its cause; the report names the line.
-/

namespace ControlUnit.Assembly

inductive Directive where
  /-- Continue at an address. -/
  | origin
  /-- A word of data. -/
  | word
  deriving DecidableEq, Repr

/-- The name a directive is written with. -/
def Directive.name : Directive → String
  | origin => "ORG"
  | word => "DW"

/-- What is wrong with a line. -/
inductive LineError where
  /-- A label or constant whose name is none, or is that of a register. -/
  | invalidName (name : String)
  /-- A directive without exactly one operand. -/
  | directiveOperands (directive : Directive)
  | operandCount (opcode : Opcode) (expected found : Nat)
  /-- A blank where an expression needs a number or a symbol. -/
  | missingOperand
  /-- A numeral that spells no 64-bit number. -/
  | invalidNumber (text : String)
  | unknownMnemonic (mnemonic : String)
  | undefinedSymbol (name : String)
  | duplicateSymbol (name : String)
  | invalidRegister (text : String)
  /-- A value that does not fit where it is used. -/
  | valueOutOfRange (value : Int64)
  deriving DecidableEq, Repr

namespace LineError

/-- The kind of a fault, as reports name it. -/
def kind : LineError → String
  | invalidName _ => "syntax error"
  | directiveOperands _ => "syntax error"
  | operandCount .. => "syntax error"
  | missingOperand => "syntax error"
  | invalidNumber _ => "syntax error"
  | unknownMnemonic _ => "unknown mnemonic"
  | undefinedSymbol _ => "undefined symbol"
  | duplicateSymbol _ => "duplicate symbol"
  | invalidRegister _ => "invalid register"
  | valueOutOfRange _ => "value out of range"

/-- What a report says about a fault after its kind and line. -/
def detail : LineError → String
  | invalidName name => "invalid symbol name `" ++ name ++ "`"
  | directiveOperands directive => directive.name ++ " requires 1 operand(s)"
  | operandCount opcode expected found =>
    opcode.mnemonic ++ " takes " ++ Text.decimal expected ++ " operand(s), found " ++ Text.decimal found
  | missingOperand => "missing operand"
  | invalidNumber text => "invalid number literal `" ++ text ++ "`"
  | unknownMnemonic mnemonic => mnemonic
  | undefinedSymbol name => name
  | duplicateSymbol name => name
  | invalidRegister text => text
  | valueOutOfRange value => Text.integer value.toInt

end LineError

end Assembly

/-- Why a source text does not assemble. -/
inductive AssemblyError where
  /-- The fault of a line, with the number of the line. -/
  | line (number : Nat) (cause : Assembly.LineError)
  /-- The words do not make a program that can be loaded. -/
  | program (cause : ProgramError)
  deriving DecidableEq, Repr

/-- The report of why a source text does not assemble. -/
def AssemblyError.message : AssemblyError → String
  | line number cause => cause.kind ++ " on line " ++ Text.decimal number ++ ": " ++ cause.detail
  | program cause => cause.message

end ControlUnit
