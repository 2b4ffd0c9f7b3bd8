import ControlUnit.Assembly.Layout
import ControlUnit.Instruction

/-!
# Assembly

From source text to program. The source is laid out first; then every word is
encoded with the symbols of the whole text, in the order of the addresses, so the
first word that cannot be encoded decides the report. The program must be one that
can be loaded.
-/

namespace ControlUnit.Assembly

/-- The bytes of operands, up to the first that has none. -/
def operandBytes (symbols : Symbols) : List Operand → Except LineError (List UInt8)
  | [] => .ok []
  | operand :: rest =>
    match operand.byte symbols with
    | .error cause => .error cause
    | .ok byte =>
      match operandBytes symbols rest with
      | .error cause => .error cause
      | .ok more => .ok (byte :: more)

/-- The word of an instruction. A field without an operand is zero. -/
def instructionWord (symbols : Symbols) (opcode : Opcode) (operands : List Operand) :
    Except LineError UInt32 :=
  match operandBytes symbols operands with
  | .error cause => .error cause
  | .ok bytes =>
    let fields : Fields :=
      { opcode := opcode.code, first := bytes[0]?.getD 0, second := bytes[1]?.getD 0 }
    .ok fields.join

/-- The word of data with a given value, which must fit into 24 bits. -/
def dataWord (symbols : Symbols) (value : Expression) : Except LineError UInt32 :=
  match value.value symbols with
  | .error cause => .error cause
  | .ok value =>
    if 0 ≤ value ∧ value ≤ 0xFFFFFF then .ok value.toInt.toNat.toUInt32
    else .error (.valueOutOfRange value)

def Item.encode (symbols : Symbols) : Item → Except AssemblyError UInt32
  | fill => .ok 0
  | word line value => (dataWord symbols value).mapError (.line line)
  | instruction line opcode operands =>
    (instructionWord symbols opcode operands).mapError (.line line)

/-- The words of items, up to the first that cannot be encoded. -/
def encodeAll (symbols : Symbols) : List Item → Except AssemblyError (List UInt32)
  | [] => .ok []
  | item :: rest =>
    match item.encode symbols with
    | .error reason => .error reason
    | .ok word =>
      match encodeAll symbols rest with
      | .error reason => .error reason
      | .ok more => .ok (word :: more)

def Layout.program (layout : Layout) : Except AssemblyError Program :=
  match encodeAll layout.symbols layout.items with
  | .error reason => .error reason
  | .ok words =>
    let program : Program := { words := words, subroutines := layout.subroutines }
    match program.check with
    | .ok () => .ok program
    | .error cause => .error (.program cause)

end Assembly

/-- The program that a source text describes. -/
def assemble (source : String) : Except AssemblyError Program :=
  match Assembly.Layout.ofSource source.toList with
  | .error reason => .error reason
  | .ok layout => layout.program

end ControlUnit
