import ControlUnit.Assembly.Error
import ControlUnit.DataMemory
import ControlUnit.Register

/-!
# Symbols

The names of labels and constants, and the table of their values. A name begins
with a letter or an underscore, goes on with letters, digits and underscores, and
is not that of a register. Letters and digits are those of ASCII.

A symbol has one value: the table refuses to define it again.

## Main results

* `Symbols.value?_define` — a definition gives its symbol a value and leaves every
  other symbol alone.
-/

namespace ControlUnit.Assembly

/-! ## Names -/

/-- The register that a name stands for: `R` or `r` and a number below thirty-two. -/
def register? : List Char → Option UInt8
  | [] => none
  | c :: digits =>
    if c = 'R' ∨ c = 'r' then
      match Text.unsigned? 10 digits with
      | some number => if number < registerCount then some (.ofNat number) else none
      | none => none
    else none

/-- Whether a character can begin a name. -/
def isNameStart (c : Char) : Bool := c.isAlpha || c == '_'

/-- Whether a character can stand in a name. -/
def isNameRest (c : Char) : Bool := c.isAlphanum || c == '_'

def isName : List Char → Bool
  | [] => false
  | c :: rest => isNameStart c && rest.all isNameRest && (register? (c :: rest)).isNone

/-- The name that a text is. -/
def readName (text : List Char) : Except LineError String :=
  if isName text then .ok (String.ofList text) else .error (.invalidName (String.ofList text))

/-! ## The table -/

/-- Symbols with their values, the one defined last in front. -/
structure Symbols where
  entries : List (String × Int64)
  deriving DecidableEq, Repr

namespace Symbols

/-- The symbols every source text can use: the registers of the pins and the numbers of three pins. -/
def builtin : Symbols :=
  ⟨[("DDRB", directionB.toNat.toInt64), ("PORTB", dataB.toNat.toInt64), ("PINB", pinB.toNat.toInt64),
    ("PORTB0", 0), ("PORTB1", 1), ("PORTB2", 2)]⟩

def value? (symbols : Symbols) (name : String) : Option Int64 := symbols.entries.lookup name

def define (symbols : Symbols) (name : String) (value : Int64) : Except LineError Symbols :=
  match symbols.value? name with
  | some _ => .error (.duplicateSymbol name)
  | none => .ok ⟨(name, value) :: symbols.entries⟩

/-- A definition gives its symbol a value and leaves every other symbol alone. -/
theorem value?_define {symbols extended : Symbols} {name : String} {value : Int64}
    (h : symbols.define name value = .ok extended) (other : String) :
    extended.value? other = if other = name then some value else symbols.value? other := by
  rw [define] at h
  split at h
  · cases h
  · cases h
    cases hOther : other == name with
    | true =>
        have : other = name := by simpa using hOther
        simp [value?, this]
    | false =>
        have : other ≠ name := by simpa using hOther
        simp [value?, List.lookup_cons, hOther, this]

/-- A symbol is refused a value exactly if it has one. -/
theorem define_eq_error_iff {symbols : Symbols} {name : String} {value : Int64} {cause : LineError} :
    symbols.define name value = .error cause ↔
      cause = .duplicateSymbol name ∧ symbols.value? name ≠ none := by
  cases hValue : symbols.value? name <;> simp [define, hValue, eq_comm]

end Symbols

end ControlUnit.Assembly
