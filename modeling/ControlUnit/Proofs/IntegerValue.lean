import ControlUnit.Proofs.Resolution
import Mathlib.Data.Int.Bitwise

/-!
# Integer values

What an expression means over the integers, without a bound: the bitwise or of its terms, a
shifted atom being multiplied by a power of two.  The assembler calculates with 64-bit machine
numbers instead, and drops the bits that leave them.  Both operations carry nothing from high
bits to low ones, so what it gets is the integer modulo 2^64, and the integer itself exactly if
that is a machine number.

A range check sees the machine number only.  An expression whose integer is a machine number
that does not fit is refused, but one whose integer lost its high bits may come back into the
range and is accepted.

## Main results

* `Assembly.Expression.integer_of_value` — a value is the integer that is meant, cut down to a
  machine number.
* `Assembly.CutDown.of_value` — it is the integer itself if that is a machine number, and is
  then refused wherever it does not fit.
* `Assembly.integers_of_assemble` — the integers in an assembled source text.
* `Assembly.not_exact` — not every integer in an assembled source text is a machine number.
-/

namespace ControlUnit

/-! ## Integers as machine numbers -/

theorem getLsbD_ofInt (width index : Nat) (n : Int) :
    (BitVec.ofInt width n).getLsbD index = (decide (index < width) && n.testBit index) := by
  cases n with
  | ofNat n =>
      rw [Int.ofNat_eq_natCast, BitVec.ofInt_natCast, BitVec.getLsbD_ofNat]
      rfl
  | negSucc n =>
      rw [BitVec.ofInt_negSucc_eq_not_ofNat, BitVec.getLsbD_not, BitVec.getLsbD_ofNat]
      cases decide (index < width) with
      | false => rfl
      | true => rfl

/-- Cutting integers down to machine numbers goes through their bitwise or. -/
theorem ofInt_lor (first second : Int) :
    Int64.ofInt (first.lor second) = Int64.ofInt first ||| Int64.ofInt second := by
  apply Int64.toBitVec_inj.1
  rw [Int64.toBitVec_or, Int64.toBitVec_ofInt, Int64.toBitVec_ofInt, Int64.toBitVec_ofInt]
  apply BitVec.eq_of_getLsbD_eq
  intro index hIndex
  rw [BitVec.getLsbD_or, getLsbD_ofInt, getLsbD_ofInt, getLsbD_ofInt, Int.testBit_lor,
    Bool.and_or_distrib_left]

/-- A shift of a machine number is a product of the integers, cut down. -/
theorem ofInt_mul_two_pow (n : Int) {amount : Nat} (h : amount < 64) :
    Int64.ofInt (n * 2 ^ amount) = Int64.ofInt n <<< Int64.ofInt amount := by
  have hAmount : ((BitVec.ofInt 64 amount).smod 64).toNat = amount := by
    have hAll : ∀ amount : Fin 64, ((BitVec.ofInt 64 amount.val).smod 64).toNat = amount.val := by
      decide
    exact hAll ⟨amount, h⟩
  have hPower : BitVec.ofInt 64 (2 ^ amount) = BitVec.twoPow 64 amount := by
    have hCast : (2 ^ amount : Int) = (2 ^ amount : Nat) := by push_cast; rfl
    apply BitVec.eq_of_toNat_eq
    rw [hCast, BitVec.ofInt_natCast, BitVec.toNat_ofNat, BitVec.toNat_twoPow]
  apply Int64.toBitVec_inj.1
  rw [Int64.toBitVec_shiftLeft, Int64.toBitVec_ofInt, Int64.toBitVec_ofInt, Int64.toBitVec_ofInt,
    BitVec.shiftLeft_eq', hAmount, BitVec.shiftLeft_eq_mul_twoPow, BitVec.ofInt_mul, hPower]

/-- Whether an integer is one of the machine numbers. -/
def IsMachineNumber (n : Int) : Prop := -2 ^ 63 ≤ n ∧ n < 2 ^ 63

/-- An integer survives being cut down exactly if it is a machine number. -/
theorem toInt_ofInt_eq_iff {n : Int} : (Int64.ofInt n).toInt = n ↔ IsMachineNumber n := by
  constructor
  · intro h
    rw [← h]
    exact ⟨Int64.le_toInt _, Int64.toInt_lt _⟩
  · rintro ⟨hLow, hHigh⟩
    exact Int64.toInt_ofInt_of_le hLow hHigh

theorem lt_two_pow_iff_testBit {width n : Nat} :
    n < 2 ^ width ↔ ∃ sign, ∀ index, width ≤ index → n.testBit index = sign := by
  constructor
  · intro hLess
    refine ⟨false, fun index hIndex => Nat.testBit_lt_two_pow ?_⟩
    exact Nat.lt_of_lt_of_le hLess (Nat.pow_le_pow_right (by omega) hIndex)
  · rintro ⟨sign, hSign⟩
    -- Far up, every bit of a natural number is clear.
    have hFar : n < 2 ^ (width + n) :=
      Nat.lt_of_lt_of_le Nat.lt_two_pow_self (Nat.pow_le_pow_right (by omega) (by omega))
    have hClear : sign = false := by
      rw [← hSign (width + n) (by omega), Nat.testBit_lt_two_pow hFar]
    exact Nat.lt_pow_two_of_testBit n fun index hIndex => (hSign index hIndex).trans hClear

/-- Machine numbers are the integers whose bits are all the same from the sign on. -/
theorem isMachineNumber_iff_testBit {n : Int} :
    IsMachineNumber n ↔ ∃ sign, ∀ index, 63 ≤ index → n.testBit index = sign := by
  rw [IsMachineNumber]
  cases n with
  | ofNat n =>
      have hBound : (-2 ^ 63 ≤ Int.ofNat n ∧ Int.ofNat n < 2 ^ 63) ↔ n < 2 ^ 63 := by
        rw [Int.ofNat_eq_natCast]
        omega
      exact hBound.trans lt_two_pow_iff_testBit
  | negSucc n =>
      have hBound : (-2 ^ 63 ≤ Int.negSucc n ∧ Int.negSucc n < 2 ^ 63) ↔ n < 2 ^ 63 := by omega
      have hBit : ∀ index, (Int.negSucc n).testBit index = !n.testBit index := fun _ => rfl
      rw [hBound, lt_two_pow_iff_testBit]
      simp only [hBit, Bool.not_eq_eq_eq_not]
      constructor
      · rintro ⟨sign, hSign⟩
        exact ⟨!sign, by simpa using hSign⟩
      · rintro ⟨sign, hSign⟩
        exact ⟨!sign, hSign⟩

theorem IsMachineNumber.lor {first second : Int} (hFirst : IsMachineNumber first)
    (hSecond : IsMachineNumber second) : IsMachineNumber (first.lor second) := by
  obtain ⟨firstSign, hFirst⟩ := isMachineNumber_iff_testBit.1 hFirst
  obtain ⟨secondSign, hSecond⟩ := isMachineNumber_iff_testBit.1 hSecond
  refine isMachineNumber_iff_testBit.2 ⟨firstSign || secondSign, fun index hIndex => ?_⟩
  rw [Int.testBit_lor, hFirst index hIndex, hSecond index hIndex]

namespace Assembly

/-! ## Integers of expressions -/

/-- The integer that an atom stands for. -/
def Atom.integer? (symbols : Symbols) : Atom → Option Int
  | missing => none
  | number value => some value.toInt
  | malformed _ => none
  | symbol name => (symbols.value? name).map Int64.toInt

/-- The integer that a term stands for.  A shift is the product with a power of two. -/
def Term.integer? (symbols : Symbols) : Term → Option Int
  | atom part => part.integer? symbols
  | shifted left right =>
    match left.integer? symbols, right.integer? symbols with
    | some n, some amount => if 0 ≤ amount then some (n * 2 ^ amount.toNat) else none
    | _, _ => none

/-- The integer that an expression stands for: the bitwise or of those of its terms. -/
def Expression.integer? (symbols : Symbols) : Expression → Option Int
  | [] => some 0
  | term :: rest =>
    match term.integer? symbols, Expression.integer? symbols rest with
    | some n, some more => some (n.lor more)
    | _, _ => none

variable {symbols : Symbols} {value : Int64}

theorem Atom.integer_of_value {atom : Atom} (h : atom.value symbols = .ok value) :
    atom.integer? symbols = some value.toInt := by
  cases atom with
  | missing => cases h
  | number found =>
      cases h
      rfl
  | malformed text => cases h
  | symbol name =>
      rw [Atom.value] at h
      cases hFound : symbols.value? name with
      | none => simp [hFound] at h
      | some found =>
          simp only [hFound, Except.ok.injEq] at h
          rw [Atom.integer?, hFound, h]
          rfl

/-- A shifted machine number is the product with a power of two, cut down. -/
theorem shiftLeft_eq_ofInt {n amount : Int64} (hLow : 0 ≤ amount) (hHigh : amount < shiftLimit) :
    0 ≤ amount.toInt ∧ n <<< amount = .ofInt (n.toInt * 2 ^ amount.toInt.toNat) := by
  have hNonneg : 0 ≤ amount.toInt := Int64.le_iff_toInt_le.1 hLow
  have hLess : amount.toInt < 32 := Int64.lt_iff_toInt_lt.1 hHigh
  have hCast : (amount.toInt.toNat : Int) = amount.toInt := Int.toNat_of_nonneg hNonneg
  refine ⟨hNonneg, ?_⟩
  rw [ofInt_mul_two_pow n.toInt (by omega), hCast, Int64.ofInt_toInt, Int64.ofInt_toInt]

theorem Term.integer_of_value {term : Term} (h : term.value symbols = .ok value) :
    ∃ n, term.integer? symbols = some n ∧ value = .ofInt n := by
  cases term with
  | atom part => exact ⟨value.toInt, Atom.integer_of_value h, (Int64.ofInt_toInt value).symm⟩
  | shifted left right =>
      obtain ⟨found, amount, hLeft, hRight, hLow, hHigh, rfl⟩ := Term.value_shifted_eq_ok_iff.1 h
      obtain ⟨hNonneg, hShift⟩ := shiftLeft_eq_ofInt (n := found) hLow hHigh
      refine ⟨found.toInt * 2 ^ amount.toInt.toNat, ?_, hShift⟩
      simp only [Term.integer?, Atom.integer_of_value hLeft, Atom.integer_of_value hRight, hNonneg,
        if_true]

/-- A value is the integer that is meant, cut down to a machine number. -/
theorem Expression.integer_of_value {expression : Expression}
    (h : expression.value symbols = .ok value) :
    ∃ n, expression.integer? symbols = some n ∧ value = .ofInt n := by
  induction expression generalizing value with
  | nil =>
      cases h
      exact ⟨0, rfl, rfl⟩
  | cons term rest ih =>
      obtain ⟨head, tail, hHead, hTail, rfl⟩ := Expression.value_cons_eq_ok_iff.1 h
      obtain ⟨n, hTerm, rfl⟩ := Term.integer_of_value hHead
      obtain ⟨more, hRest, rfl⟩ := ih hTail
      refine ⟨n.lor more, ?_, (ofInt_lor n more).symm⟩
      simp only [Expression.integer?, hTerm, hRest]

/-! ## Where integers are used -/

def Operand.expression? : Operand → Option Expression
  | .register _ => none
  | .unknownRegister _ => none
  | .value expression => some expression

/-- The expressions that a statement is written with. -/
def Statement.expressions : Statement → List Expression
  | .constant _ expression => [expression]
  | .origin expression => [expression]
  | .word expression => [expression]
  | .instruction _ operands => operands.filterMap Operand.expression?

def Line.expressions (line : Line) : List Expression :=
  line.statement?.elim [] Statement.expressions

theorem length_operandKinds_le (opcode : Opcode) : (operandKinds opcode).length ≤ 2 := by
  cases opcode <;> decide

theorem FieldByte.exists_value {kind? : Option OperandKind} {expression : Expression} {byte : UInt8}
    (h : FieldByte symbols kind? (some (.value expression)) byte) :
    ∃ value, expression.value symbols = .ok value := by
  cases h with
  | value hValue hByte => exact ⟨_, hValue⟩

/-- Every expression of a resolved statement has a value. -/
theorem Emits.exists_value {address : Nat} {statement : Statement} {words : List UInt32}
    (h : Emits symbols address (some statement) words) :
    ∀ expression ∈ statement.expressions, ∃ value, expression.value symbols = .ok value := by
  intro expression hMem
  cases h with
  | constant hValue hName => exact ⟨_, List.mem_singleton.1 hMem ▸ hValue⟩
  | origin hValue hOrigin => exact ⟨_, List.mem_singleton.1 hMem ▸ hValue⟩
  | word hValue hWord hRange => exact ⟨_, List.mem_singleton.1 hMem ▸ hValue⟩
  | @instruction opcode operands first second hCount hFirst hSecond =>
      obtain ⟨operand, hOperand, hExpression⟩ := List.mem_filterMap.1 hMem
      obtain ⟨index, hIndex, rfl⟩ := List.getElem_of_mem hOperand
      have hValue : operands[index]? = some (.value expression) := by
        rw [List.getElem?_eq_getElem hIndex]
        cases hFound : operands[index] <;> simp_all [Operand.expression?]
      have hKinds := length_operandKinds_le opcode
      match index with
      | 0 => exact FieldByte.exists_value (hValue ▸ hFirst)
      | 1 => exact FieldByte.exists_value (hValue ▸ hSecond)
      | index + 2 => omega

/-- Wherever an expression is used, its value is refused if it does not fit there. -/
structure Refused (symbols : Symbols) (expression : Expression) (value : Int64) : Prop where
  operand : value.toInt < 0 ∨ 255 < value.toInt →
    (Operand.value expression).byte symbols = .error (.valueOutOfRange value)
  word : value.toInt < 0 ∨ 0xFFFFFF < value.toInt →
    dataWord symbols expression = .error (.valueOutOfRange value)
  origin : ∀ (layout : Layout) (number : Nat), layout.symbols = symbols →
    value.toInt < layout.address ∨ 256 < value.toInt →
      layout.statement number (.origin expression) = .error (.valueOutOfRange value)

theorem not_between_of_toInt {low high : Int64}
    (h : value.toInt < low.toInt ∨ high.toInt < value.toInt) : ¬(low ≤ value ∧ value ≤ high) := by
  rw [Int64.le_iff_toInt_le, Int64.le_iff_toInt_le]
  omega

theorem Refused.of_value {expression : Expression} (h : expression.value symbols = .ok value) :
    Refused symbols expression value where
  operand hRange := by
    rw [Operand.byte, h]
    exact if_neg (not_between_of_toInt hRange)
  word hRange := by
    rw [dataWord, h]
    exact if_neg (not_between_of_toInt hRange)
  origin layout number hSymbols hRange := by
    rw [Layout.statement, hSymbols, h]
    exact if_pos hRange

/-- The value of an expression is the integer `n` cut down to a machine number.  It is `n` itself
exactly if that is a machine number, and it is refused wherever it does not fit. -/
structure CutDown (symbols : Symbols) (expression : Expression) (value : Int64) (n : Int) :
    Prop where
  valued : expression.value symbols = .ok value
  integer : expression.integer? symbols = some n
  modulo : value.toInt = n.bmod (2 ^ 64)
  exact : value.toInt = n ↔ IsMachineNumber n
  refused : Refused symbols expression value

/-- Every value is the integer that is meant, cut down to a machine number. -/
theorem CutDown.of_value {expression : Expression} (h : expression.value symbols = .ok value) :
    ∃ n, CutDown symbols expression value n := by
  obtain ⟨n, hInteger, rfl⟩ := Expression.integer_of_value h
  exact ⟨n, {
    valued := h
    integer := hInteger
    modulo := Int64.toInt_ofInt
    exact := toInt_ofInt_eq_iff
    refused := .of_value h }⟩

/-! ## Assembled programs -/

/-- Every expression of a resolved line has a value. -/
theorem Resolution.exists_value {emissions : List (Emission UInt32)}
    (h : Resolution symbols emissions) {emission : Emission UInt32} (hMem : emission ∈ emissions)
    {expression : Expression} (hExpression : expression ∈ emission.line.expressions) :
    ∃ value, expression.value symbols = .ok value := by
  obtain ⟨before, after, hSplit⟩ := List.append_of_mem hMem
  have hWords := (h.resolved before emission after hSplit).words
  rw [Line.expressions] at hExpression
  cases hStatement : emission.line.statement? with
  | none => simp [hStatement] at hExpression
  | some statement =>
      rw [hStatement] at hWords hExpression
      exact hWords.exists_value expression hExpression

/-- **The values in an assembled source text are the integers that its expressions stand for,
modulo 2^64**: operands, words, origins and constants alike, under the one table that resolves
its lines.  They are those integers themselves exactly where these are machine numbers. -/
theorem integers_of_assemble {source : String} {program : Program}
    (h : assemble source = .ok program) :
    ∃ (symbols : Symbols) (emissions : List (Emission UInt32)),
      Resolves symbols emissions source program ∧
        ∀ emission ∈ emissions, ∀ expression ∈ emission.line.expressions,
          ∃ value n, CutDown symbols expression value n := by
  obtain ⟨emissions, layout, hLines, hLaid, hEncode, -, hCheck⟩ := exists_laid_of_assemble h
  have hResolves := hLaid.resolves hLines hEncode (Program.check_eq_ok_iff.1 hCheck).1
  refine ⟨_, _, hResolves, fun emission hMem expression hExpression => ?_⟩
  obtain ⟨value, hValue⟩ := hResolves.resolution.exists_value hMem hExpression
  obtain ⟨n, hCutDown⟩ := CutDown.of_value hValue
  exact ⟨value, n, hCutDown⟩

theorem integers_forwardSource :
    assemble forwardSource = .ok forwardProgram ∧
      ∃ (symbols : Symbols) (emissions : List (Emission UInt32)),
        Resolves symbols emissions forwardSource forwardProgram ∧
          ∀ emission ∈ emissions, ∀ expression ∈ emission.line.expressions,
            ∃ value n, CutDown symbols expression value n :=
  ⟨assemble_forwardSource, integers_of_assemble assemble_forwardSource⟩

/-- A text whose only integer is 2^64 + 16, which comes back into the range of words. -/
def overflowingSource : String := "DW 0x1000000000000001 << 4"

theorem assemble_overflowingSource : assemble overflowingSource = .ok ⟨[16], []⟩ := by
  have hResult : (assemble overflowingSource).toOption = some ⟨[16], []⟩ := by decide +kernel
  exact eq_ok_of_toOption hResult

/-- Not every integer in an assembled source text is a machine number. -/
theorem not_exact : ¬∀ (source : String) (program : Program) (symbols : Symbols)
    (emissions : List (Emission UInt32)), assemble source = .ok program →
      Resolves symbols emissions source program →
        ∀ emission ∈ emissions, ∀ expression ∈ emission.line.expressions,
          ∀ value, expression.value symbols = .ok value →
            expression.integer? symbols = some value.toInt := by
  intro hExact
  obtain ⟨emissions, layout, hLines, hLaid, hEncode, -, hCheck⟩ :=
    exists_laid_of_assemble assemble_overflowingSource
  have hResolves := hLaid.resolves hLines hEncode (Program.check_eq_ok_iff.1 hCheck).1
  let expression : Expression := [.shifted (.number 0x1000000000000001) (.number 4)]
  have hRead : (Text.lines overflowingSource.toList).map Line.ofText
      = [.ok ⟨none, some (.word expression)⟩] := by decide +kernel
  obtain ⟨emission, hEmissions, hLine⟩ :=
    List.map_eq_singleton_iff.1 (hResolves.lines.symm.trans hRead)
  have hEmission : emission ∈ Laid.resolve layout.symbols emissions := by
    rw [hEmissions]
    exact List.mem_singleton_self _
  have hExpression : expression ∈ emission.line.expressions := by
    rw [Except.ok.inj hLine]
    exact List.mem_singleton_self _
  have hValue : expression.value layout.symbols = .ok 16 := rfl
  have hInteger : expression.integer? layout.symbols = some (2 ^ 64 + 16) := rfl
  have hSame := hExact _ _ _ _ assemble_overflowingSource hResolves emission hEmission
    expression hExpression 16 hValue
  rw [hInteger] at hSame
  exact absurd hSame (by decide)

end Assembly

end ControlUnit
