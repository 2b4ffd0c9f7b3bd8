import ControlUnit.Proofs.IntegerValue
import ControlUnit.Proofs.Literal
import Mathlib.Data.List.Forall2
import Mathlib.Data.Nat.Digits.Defs

/-!
# Spellings

Which texts are accepted as numbers and as registers, and for what they are taken, said without
the readers.  A run of digits stands for its positional value.  A literal is a run of decimal
digits, or `0x` or `0b`, in either case, with a run of digits of that base; a register is `R`,
in either case, with a run of decimal digits.

The readers accept more than that: a sign behind the mark of a base, and a plus sign behind the
letter of a register.  So a number that begins with a digit can be negative, and the texts that
are read as they should be are those without a sign.

## Main results

* `Text.natural?_eq_some_iff` — a run of digits is read as its positional value.
* `Assembly.literal?_eq_some_iff`, `Assembly.register?_eq_some_iff` — the accepted texts.
* `Assembly.accepted_iff` — which atoms and register operands have a value.
* `Assembly.signs_accepted` — not all of them are literals and registers.
-/

namespace ControlUnit

namespace Text

/-! ## Digits -/

def smallDigits : List Char := "0123456789abcdef".toList

def capitalDigits : List Char := "0123456789ABCDEF".toList

/-- The character is the digit of a base with a given value, as a small letter or a capital. -/
structure IsDigit (base : Nat) (c : Char) (digit : Nat) : Prop where
  lt : digit < base
  spelled : smallDigits[digit]? = some c ∨ capitalDigits[digit]? = some c

/-- The text is a run of digits of a base, the first of them with the highest weight, and `n` is
its positional value. -/
structure Digits (base : Nat) (text : List Char) (n : Nat) : Prop where
  ne_nil : text ≠ []
  positional : ∃ digits, List.Forall₂ (IsDigit base) text digits ∧
    n = Nat.ofDigits base digits.reverse

/-- The base decides only which digits there are, and not what they are worth. -/
theorem digitValue?_eq_some_iff_sixteen {base digit : Nat} {c : Char} (hBase : base ≤ 16) :
    digitValue? base c = some digit ↔ digit < base ∧ digitValue? 16 c = some digit := by
  simp only [digitValue?, Option.ite_none_right_eq_some, Option.some.injEq]
  by_cases hDecimal : '0' ≤ c ∧ c ≤ '9'
  · simp only [if_pos hDecimal]
    omega
  · by_cases hSmall : 'a' ≤ c ∧ c ≤ 'f'
    · simp only [if_neg hDecimal, if_pos hSmall]
      omega
    · by_cases hCapital : 'A' ≤ c ∧ c ≤ 'F'
      · simp only [if_neg hDecimal, if_neg hSmall, if_pos hCapital]
        omega
      · simp only [if_neg hDecimal, if_neg hSmall, if_neg hCapital]
        omega

theorem digitValue?_sixteen_eq_some_iff {digit : Nat} {c : Char} (hDigit : digit < 16) :
    digitValue? 16 c = some digit ↔
      smallDigits[digit]? = some c ∨ capitalDigits[digit]? = some c := by
  constructor
  · intro h
    have hName : Assembly.isNameRest c = true :=
      Assembly.isNameRest_of_digitValue? (by rw [h]; exact Option.some_ne_none _)
    have hSpelled := Assembly.of_isNameRest
      (p := fun c => ∀ digit : Fin 16, digitValue? 16 c = some digit.val →
        smallDigits[digit.val]? = some c ∨ capitalDigits[digit.val]? = some c)
      (by decide +kernel) hName
    exact hSpelled ⟨digit, hDigit⟩ h
  · have hSmall : ∀ digit : Fin 16, smallDigits[digit.val]?.bind (digitValue? 16)
        = some digit.val := by decide +kernel
    have hCapital : ∀ digit : Fin 16, capitalDigits[digit.val]?.bind (digitValue? 16)
        = some digit.val := by decide +kernel
    rintro (hSpelled | hSpelled)
    · simpa [hSpelled] using hSmall ⟨digit, hDigit⟩
    · simpa [hSpelled] using hCapital ⟨digit, hDigit⟩

theorem digitValue?_eq_some_iff {base digit : Nat} {c : Char} (hBase : base ≤ 16) :
    digitValue? base c = some digit ↔ IsDigit base c digit := by
  rw [digitValue?_eq_some_iff_sixteen hBase]
  constructor
  · rintro ⟨hLess, hValue⟩
    exact ⟨hLess, (digitValue?_sixteen_eq_some_iff (by omega)).1 hValue⟩
  · rintro ⟨hLess, hSpelled⟩
    exact ⟨hLess, (digitValue?_sixteen_eq_some_iff (by omega)).2 hSpelled⟩

/-- A digit behind a number multiplies it by the base. -/
theorem ofDigits_reverse_cons (base digit : Nat) (digits : List Nat) :
    Nat.ofDigits base (digit :: digits).reverse
      = Nat.ofDigits base digits.reverse + base ^ digits.length * digit := by
  rw [List.reverse_cons, Nat.ofDigits_append, Nat.ofDigits_singleton, List.length_reverse]

theorem continue?_eq_some_iff {base : Nat} (hBase : base ≤ 16) {value n : Nat} {text : List Char} :
    continue? base value text = some n ↔
      ∃ digits, List.Forall₂ (IsDigit base) text digits ∧
        n = Nat.ofDigits base digits.reverse + base ^ text.length * value := by
  induction text generalizing value with
  | nil =>
      simp only [continue?, Option.some.injEq, List.forall₂_nil_left_iff, exists_eq_left]
      simp [eq_comm]
  | cons c rest ih =>
      rw [continue?]
      constructor
      · intro h
        cases hDigit : digitValue? base c with
        | none => simp [hDigit] at h
        | some digit =>
            simp only [hDigit] at h
            obtain ⟨digits, hDigits, rfl⟩ := ih.1 h
            refine ⟨digit :: digits, .cons ((digitValue?_eq_some_iff hBase).1 hDigit) hDigits, ?_⟩
            rw [ofDigits_reverse_cons, hDigits.length_eq, List.length_cons, hDigits.length_eq]
            ring
      · rintro ⟨digits, hDigits, rfl⟩
        cases hDigits with
        | @cons _ digit _ digits hDigit hDigits =>
            simp only [(digitValue?_eq_some_iff hBase).2 hDigit]
            refine ih.2 ⟨digits, hDigits, ?_⟩
            rw [ofDigits_reverse_cons, hDigits.length_eq, List.length_cons, hDigits.length_eq]
            ring

/-- A run of digits is read as its positional value, and nothing else is read. -/
theorem natural?_eq_some_iff {base : Nat} (hBase : base ≤ 16) {text : List Char} {n : Nat} :
    natural? base text = some n ↔ Digits base text n := by
  rw [natural?]
  cases text with
  | nil =>
      simp only [List.isEmpty_nil, if_true, reduceCtorEq, false_iff]
      exact fun h => h.ne_nil rfl
  | cons c rest =>
      simp only [List.isEmpty_cons, Bool.false_eq_true, if_false, continue?_eq_some_iff hBase,
        Nat.mul_zero, Nat.add_zero]
      exact ⟨fun h => ⟨List.cons_ne_nil c rest, h⟩, Digits.positional⟩

/-- No sign is a digit. -/
theorem Digits.not_mem {base n : Nat} (hBase : base ≤ 16) {text : List Char}
    (h : Digits base text n) {c : Char} (hDigit : digitValue? base c = none) : c ∉ text :=
  not_mem_of_natural? ((natural?_eq_some_iff hBase).2 h) hDigit

/-- Digits with or without a plus sign before them. -/
inductive Unsigned (base : Nat) : List Char → Nat → Prop
  | bare {text : List Char} {n : Nat} (hDigits : Digits base text n) : Unsigned base text n
  | plus {digits : List Char} {n : Nat} (hDigits : Digits base digits n) :
      Unsigned base ('+' :: digits) n

theorem Unsigned.ne_nil {base n : Nat} {text : List Char} (h : Unsigned base text n) :
    text ≠ [] := by
  cases h with
  | bare hDigits => exact hDigits.ne_nil
  | plus hDigits => exact List.cons_ne_nil _ _

theorem unsigned?_eq_some_iff {base : Nat} (hBase : base ≤ 16) {text : List Char} {n : Nat} :
    unsigned? base text = some n ↔ Unsigned base text n := by
  have hSign : digitValue? base '+' = none :=
    digitValue?_eq_none (c := '+') (by decide) (by decide) (by decide)
  unfold unsigned?
  split
  · rename_i digits
    rw [natural?_eq_some_iff hBase]
    constructor
    · exact .plus
    · intro h
      cases h with
      | bare hDigits => exact absurd List.mem_cons_self (hDigits.not_mem hBase hSign)
      | plus hDigits => exact hDigits
  · rename_i hPlus
    rw [natural?_eq_some_iff hBase]
    constructor
    · exact .bare
    · intro h
      cases h with
      | bare hDigits => exact hDigits
      | plus hDigits => exact absurd rfl (hPlus _)

end Text

namespace Assembly

open Text

/-! ## Numbers -/

/-- The base that a character marks behind a zero. -/
def markedBase? : Char → Option Nat
  | 'x' | 'X' => some 16
  | 'b' | 'B' => some 2
  | _ => none

/-- Text that writes a number: decimal digits, or a zero, the mark of a base and digits of that
base. -/
inductive Literal : List Char → Nat → Prop
  | decimal {text : List Char} {n : Nat} (hDigits : Digits 10 text n) : Literal text n
  | marked {mark : Char} {base n : Nat} {digits : List Char} (hMark : markedBase? mark = some base)
      (hDigits : Digits base digits n) : Literal ('0' :: mark :: digits) n

/-- Digits with or without a sign before them. -/
inductive Signed (base : Nat) : List Char → Int → Prop
  | unsigned {text : List Char} {n : Nat} (hDigits : Digits base text n) : Signed base text n
  | plus {digits : List Char} {n : Nat} (hDigits : Digits base digits n) :
      Signed base ('+' :: digits) n
  | minus {digits : List Char} {n : Nat} (hDigits : Digits base digits n) :
      Signed base ('-' :: digits) (-n)

/-- Text that is accepted as a number: a literal, or one with a sign behind the mark of its
base. -/
inductive AcceptedNumber : List Char → Int → Prop
  | decimal {text : List Char} {n : Nat} (hDigits : Digits 10 text n) : AcceptedNumber text n
  | marked {mark : Char} {base : Nat} {digits : List Char} {n : Int}
      (hMark : markedBase? mark = some base) (hDigits : Signed base digits n) :
      AcceptedNumber ('0' :: mark :: digits) n

theorem mem_of_markedBase? {mark : Char} {base : Nat} (h : markedBase? mark = some base) :
    (mark, base) ∈ [('x', 16), ('X', 16), ('b', 2), ('B', 2)] := by
  unfold markedBase? at h
  split at h <;> simp_all

theorem digitValue?_of_markedBase? {mark : Char} {base : Nat} (h : markedBase? mark = some base) :
    digitValue? 10 mark = none := by
  have hAll : ∀ marked ∈ [('x', 16), ('X', 16), ('b', 2), ('B', 2)],
      digitValue? 10 marked.1 = none := by decide
  exact hAll _ (mem_of_markedBase? h)

theorem le_of_markedBase? {mark : Char} {base : Nat} (h : markedBase? mark = some base) :
    base ≤ 16 := by
  have hAll : ∀ marked ∈ [('x', 16), ('X', 16), ('b', 2), ('B', 2)], marked.2 ≤ 16 := by decide
  exact hAll _ (mem_of_markedBase? h)

variable {text : List Char}

theorem signed?_eq_some_iff {base : Nat} (hBase : base ≤ 16) {n : Int} :
    signed? base text = some n ↔ Signed base text n := by
  have hRead : ∀ {digits m}, natural? base digits = some m → Digits base digits m :=
    (natural?_eq_some_iff hBase).1
  constructor
  · intro h
    unfold signed? at h
    split at h
    · rename_i digits
      cases hDigits : natural? base digits with
      | none => simp [hDigits] at h
      | some m =>
          rw [hDigits] at h
          cases h
          exact .plus (hRead hDigits)
    · rename_i digits
      cases hDigits : natural? base digits with
      | none => simp [hDigits] at h
      | some m =>
          rw [hDigits] at h
          cases h
          exact .minus (hRead hDigits)
    · cases hDigits : natural? base text with
      | none => simp [hDigits] at h
      | some m =>
          rw [hDigits] at h
          cases h
          exact .unsigned (hRead hDigits)
  · intro h
    cases h with
    | unsigned hDigits => exact signed?_of_natural? ((natural?_eq_some_iff hBase).2 hDigits)
    | plus hDigits =>
        rw [signed?, (natural?_eq_some_iff hBase).2 hDigits]
        rfl
    | minus hDigits =>
        rw [signed?, (natural?_eq_some_iff hBase).2 hDigits]
        rfl

theorem literal?_marked {mark : Char} {base : Nat} (h : markedBase? mark = some base)
    (digits : List Char) : literal? ('0' :: mark :: digits) = signed? base digits := by
  have hMem := mem_of_markedBase? h
  simp only [List.mem_cons, Prod.mk.injEq, List.not_mem_nil, or_false] at hMem
  rcases hMem with ⟨rfl, rfl⟩ | ⟨rfl, rfl⟩ | ⟨rfl, rfl⟩ | ⟨rfl, rfl⟩ <;> rfl

/-- Without the mark of a base, digits are decimal. -/
theorem literal?_unmarked
    (h : ∀ mark digits, text = '0' :: mark :: digits → markedBase? mark = none) :
    literal? text = signed? 10 text := by
  unfold literal?
  split
  · exact absurd (h _ _ rfl) (by decide)
  · exact absurd (h _ _ rfl) (by decide)
  · exact absurd (h _ _ rfl) (by decide)
  · exact absurd (h _ _ rfl) (by decide)
  · rfl

/-- A text that begins with a digit is accepted as a number exactly if it is written as one. -/
theorem literal?_eq_some_iff (hDigit : beginsWithDigit text = true) {n : Int} :
    literal? text = some n ↔ AcceptedNumber text n := by
  by_cases hMarked : ∃ mark base digits, text = '0' :: mark :: digits ∧ markedBase? mark = some base
  · obtain ⟨mark, base, digits, rfl, hMark⟩ := hMarked
    rw [literal?_marked hMark, signed?_eq_some_iff (le_of_markedBase? hMark)]
    constructor
    · exact .marked hMark
    · intro h
      cases h with
      | decimal hDigits =>
          have hNot := hDigits.not_mem (by decide) (digitValue?_of_markedBase? hMark)
          simp at hNot
      | marked hOther hDigits => rwa [Option.some.inj (hMark.symm.trans hOther)]
  · have hUnmarked : ∀ mark digits, text = '0' :: mark :: digits → markedBase? mark = none := by
      intro mark digits hText
      rw [Option.eq_none_iff_forall_ne_some]
      exact fun base hMark => hMarked ⟨mark, base, digits, hText, hMark⟩
    rw [literal?_unmarked hUnmarked, signed?_eq_some_iff (by decide)]
    constructor
    · intro h
      cases h with
      | unsigned hDigits => exact .decimal hDigits
      | plus hDigits => cases hDigit
      | minus hDigits => cases hDigit
    · intro h
      cases h with
      | decimal hDigits => exact .unsigned hDigits
      | marked hMark hDigits => exact absurd ⟨_, _, _, rfl, hMark⟩ hMarked

theorem Literal.accepted {n : Nat} (h : Literal text n) : AcceptedNumber text n := by
  cases h with
  | decimal hDigits => exact .decimal hDigits
  | marked hMark hDigits => exact .marked hMark (.unsigned hDigits)

/-- Without signs, only literals are accepted. -/
theorem AcceptedNumber.exists_literal {n : Int} (h : AcceptedNumber text n) (hPlus : '+' ∉ text)
    (hMinus : '-' ∉ text) : ∃ m : Nat, Literal text m ∧ n = m := by
  cases h with
  | decimal hDigits => exact ⟨_, .decimal hDigits, rfl⟩
  | marked hMark hDigits =>
      cases hDigits with
      | unsigned hDigits => exact ⟨_, .marked hMark hDigits, rfl⟩
      | plus hDigits => simp at hPlus
      | minus hDigits => simp at hMinus

theorem Literal.minus_not_mem {n : Nat} (h : Literal text n) : '-' ∉ text := by
  cases h with
  | decimal hDigits => exact hDigits.not_mem (by decide) (by decide)
  | @marked mark base n digits hMark hDigits =>
      have hMinus := hDigits.not_mem (le_of_markedBase? hMark)
        (digitValue?_eq_none (c := '-') (by decide) (by decide) (by decide))
      have hMarkNe : '-' ≠ mark := by
        rintro rfl
        cases hMark
      simp [hMinus, hMarkNe]

theorem beginsWithDigit_filter (h : beginsWithDigit text = true) :
    beginsWithDigit (text.filter fun c => c != '_') = true := by
  cases text with
  | nil => cases h
  | cons c rest =>
      have hNe : (c != '_') = true := by
        rw [bne_iff_ne]
        rintro rfl
        cases h
      have hFilter : (c :: rest).filter (fun c => c != '_') = c :: rest.filter fun c => c != '_' :=
        List.filter_cons_of_pos hNe
      rwa [hFilter]

theorem number?_eq_some_iff (hDigit : beginsWithDigit text = true) {value : Int64} :
    number? text = some value ↔
      ∃ n, AcceptedNumber (text.filter fun c => c != '_') n ∧ IsMachineNumber n ∧
        value = .ofInt n := by
  have hBounds : ∀ n : Int, Int64.minValue.toInt ≤ n ∧ n ≤ Int64.maxValue.toInt ↔
      IsMachineNumber n := by
    intro n
    rw [IsMachineNumber, Int64.toInt_minValue, Int64.toInt_maxValue]
    omega
  have hLiteral := fun n => literal?_eq_some_iff (beginsWithDigit_filter hDigit) (n := n)
  rw [number?]
  constructor
  · intro h
    cases hRead : literal? (text.filter fun c => c != '_') with
    | none => simp [hRead] at h
    | some n =>
        simp only [hRead, Option.ite_none_right_eq_some, Option.some.injEq] at h
        exact ⟨n, (hLiteral n).1 hRead, (hBounds n).1 h.1, h.2.symm⟩
  · rintro ⟨n, hAccepted, hMachine, rfl⟩
    simp only [(hLiteral n).2 hAccepted, if_pos ((hBounds n).2 hMachine)]

/-- The text of an atom, without what stands around it and the underscores in it. -/
def strippedText (text : List Char) : List Char := (bare text).filter fun c => c != '_'

variable {symbols : Symbols}

/-- An atom that begins with a digit has the value that its text is accepted for. -/
theorem Atom.value_eq_ok_iff (hDigit : beginsWithDigit (bare text) = true) {value : Int64} :
    (Atom.ofText text).value symbols = .ok value ↔
      ∃ n, AcceptedNumber (strippedText text) n ∧ IsMachineNumber n ∧ value = .ofInt n := by
  rw [strippedText, ← number?_eq_some_iff hDigit, Atom.ofText]
  cases hBare : bare text with
  | nil =>
      rw [hBare] at hDigit
      cases hDigit
  | cons c rest =>
      rw [hBare, beginsWithDigit] at hDigit
      simp only [hDigit, if_true]
      cases number? (c :: rest) with
      | none => simp [Atom.value]
      | some found => simp [Atom.value]

/-! ## Registers -/

/-- Text that names a register: `R` or `r`, and decimal digits of a number up to 31. -/
inductive Register : List Char → Nat → Prop
  | named {letter : Char} {digits : List Char} {n : Nat} (hLetter : letter = 'R' ∨ letter = 'r')
      (hDigits : Digits 10 digits n) (hRange : n ≤ 31) : Register (letter :: digits) n

/-- Text that is accepted as a register: its name, or one with a plus sign before the digits. -/
inductive AcceptedRegister : List Char → Nat → Prop
  | named {text : List Char} {n : Nat} (hRegister : Register text n) : AcceptedRegister text n
  | plus {letter : Char} {digits : List Char} {n : Nat}
      (hRegister : Register (letter :: digits) n) : AcceptedRegister (letter :: '+' :: digits) n

theorem register?_cons_eq_some_iff {letter : Char} {digits : List Char} {number : UInt8} :
    register? (letter :: digits) = some number ↔
      (letter = 'R' ∨ letter = 'r') ∧ unsigned? 10 digits = some number.toNat ∧
        number.toNat ≤ 31 := by
  rw [register?]
  by_cases hLetter : letter = 'R' ∨ letter = 'r'
  · rw [if_pos hLetter]
    cases hRead : unsigned? 10 digits with
    | none => simp
    | some n =>
        by_cases hLess : n < registerCount
        · have hNumber : (UInt8.ofNat n).toNat = n :=
            UInt8.toNat_ofNat_of_lt' (Nat.lt_trans hLess (by decide))
          simp only [if_pos hLess, Option.some.injEq, hLetter, true_and]
          constructor
          · rintro rfl
            exact ⟨hNumber.symm, by rw [hNumber]; exact Nat.le_of_lt_succ hLess⟩
          · rintro ⟨rfl, -⟩
            exact UInt8.ofNat_toNat
        · simp only [if_neg hLess, reduceCtorEq, Option.some.injEq, false_iff]
          rintro ⟨-, rfl, hRange⟩
          exact hLess (Nat.lt_succ_of_le hRange)
  · simp [hLetter]

/-- A text is accepted as a register exactly if it is written as one. -/
theorem register?_eq_some_iff {number : UInt8} :
    register? text = some number ↔ AcceptedRegister text number.toNat := by
  cases text with
  | nil =>
      simp only [register?, reduceCtorEq, false_iff]
      rintro ⟨⟨⟩⟩
  | cons letter digits =>
      rw [register?_cons_eq_some_iff, unsigned?_eq_some_iff (by decide)]
      constructor
      · rintro ⟨hLetter, hNumber, hRange⟩
        cases hNumber with
        | bare hDigits => exact .named (.named hLetter hDigits hRange)
        | plus hDigits => exact .plus (.named hLetter hDigits hRange)
      · intro h
        cases h with
        | named hRegister =>
            cases hRegister with
            | named hLetter hDigits hRange => exact ⟨hLetter, .bare hDigits, hRange⟩
        | plus hRegister =>
            cases hRegister with
            | named hLetter hDigits hRange => exact ⟨hLetter, .plus hDigits, hRange⟩

theorem AcceptedRegister.register {n : Nat} (h : AcceptedRegister text n) (hPlus : '+' ∉ text) :
    Register text n := by
  cases h with
  | named hRegister => exact hRegister
  | plus hRegister => simp at hPlus

theorem Register.plus_not_mem {n : Nat} (h : Register text n) : '+' ∉ text := by
  cases h with
  | named hLetter hDigits hRange =>
      have hPlus := hDigits.not_mem (by decide) (c := '+') (by decide)
      rcases hLetter with rfl | rfl <;> simp [hPlus]

theorem Operand.byte_register_eq_ok_iff {number : UInt8} :
    (Operand.ofText text .register).byte symbols = .ok number ↔
      AcceptedRegister text number.toNat := by
  rw [← register?_eq_some_iff, Operand.ofText]
  cases register? text with
  | none => simp [Operand.byte]
  | some found => simp [Operand.byte]

/-! ## Accepted texts -/

/-- **Which numbers and registers are accepted**: an atom that begins with a digit, exactly if it
is a literal, with or without a sign behind the mark of its base, of a machine number; and a
register operand, exactly if it is the name of a register, with or without a plus sign before
its number.  Texts without signs are accepted for the literals and the registers that they
are. -/
theorem accepted_iff (symbols : Symbols) (text : List Char) :
    (beginsWithDigit (bare text) = true → ∀ value : Int64,
      ((Atom.ofText text).value symbols = .ok value ↔
        ∃ n, AcceptedNumber (strippedText text) n ∧ IsMachineNumber n ∧ value = .ofInt n) ∧
      ('+' ∉ bare text → '-' ∉ bare text →
        ((Atom.ofText text).value symbols = .ok value ↔
          ∃ n : Nat, Literal (strippedText text) n ∧ n < 2 ^ 63 ∧ value = .ofInt n))) ∧
    ∀ number : UInt8,
      ((Operand.ofText text .register).byte symbols = .ok number ↔
        AcceptedRegister text number.toNat) ∧
      ('+' ∉ text →
        ((Operand.ofText text .register).byte symbols = .ok number ↔
          Register text number.toNat)) := by
  refine ⟨fun hDigit value => ⟨Atom.value_eq_ok_iff hDigit, fun hPlus hMinus => ?_⟩,
    fun number => ⟨Operand.byte_register_eq_ok_iff, fun hPlus => ?_⟩⟩
  · rw [Atom.value_eq_ok_iff hDigit]
    constructor
    · rintro ⟨n, hAccepted, hMachine, rfl⟩
      have hNot : ∀ {sign}, sign ∉ bare text → sign ∉ strippedText text := by
        intro sign hSign hMem
        exact hSign (List.mem_of_mem_filter hMem)
      obtain ⟨m, hLiteral, rfl⟩ := hAccepted.exists_literal (hNot hPlus) (hNot hMinus)
      exact ⟨m, hLiteral, by exact_mod_cast hMachine.2, rfl⟩
    · rintro ⟨n, hLiteral, hLess, rfl⟩
      exact ⟨n, hLiteral.accepted, ⟨by omega, by exact_mod_cast hLess⟩, rfl⟩
  · rw [Operand.byte_register_eq_ok_iff]
    exact ⟨fun h => h.register hPlus, .named⟩

/-! ### Samples -/

/-- A number with a sign behind the mark of its base. -/
def signedText : String := "0x-5"

theorem value_signedText (symbols : Symbols) :
    beginsWithDigit (bare signedText.toList) = true ∧
      (Atom.ofText signedText.toList).value symbols = .ok (-5) := by
  have hPlain : Plain signedText.toList := by decide
  have hNumber : number? signedText.toList = some (-5) := by decide
  rw [bare_of_plain hPlain, Atom.ofText_of_number? hPlain (by decide) hNumber]
  exact ⟨by decide, rfl⟩

theorem accepted_samples :
    (∃ n, AcceptedNumber (strippedText signedText.toList) n ∧ IsMachineNumber n ∧
      -5 = Int64.ofInt n) ∧
    (∃ n : Nat, Literal (strippedText "0X_1f".toList) n ∧ n < 2 ^ 63 ∧ 31 = Int64.ofInt n) ∧
    Register "r07".toList 7 := by
  obtain ⟨hDigit, hValue⟩ := value_signedText .builtin
  have hPlain : Plain "0X_1f".toList := by decide
  have hBare : bare "0X_1f".toList = "0X_1f".toList := bare_of_plain hPlain
  have hNumber : number? "0X_1f".toList = some 31 := by decide
  have hAtom : (Atom.ofText "0X_1f".toList).value .builtin = .ok 31 := by
    rw [Atom.ofText_of_number? hPlain (by decide) hNumber]
    rfl
  refine ⟨?_, ?_, ?_⟩
  · exact (((accepted_iff .builtin signedText.toList).1 hDigit (-5)).1).1 hValue
  · refine (((accepted_iff .builtin "0X_1f".toList).1 ?_ 31).2 ?_ ?_).1 hAtom
    · rw [hBare]
      decide
    · rw [hBare]
      decide
    · rw [hBare]
      decide
  · exact (((accepted_iff .builtin "r07".toList).2 7).2 (by decide)).1 (by decide)

/-- Not only literals are accepted as numbers, and not only names of registers as registers. -/
theorem signs_accepted :
    (¬∀ (symbols : Symbols) (text : List Char), beginsWithDigit (bare text) = true →
      ((∃ value, (Atom.ofText text).value symbols = .ok value) ↔
        ∃ n : Nat, Literal (strippedText text) n ∧ n < 2 ^ 63)) ∧
    ¬∀ (symbols : Symbols) (text : List Char) (number : UInt8),
      (Operand.ofText text .register).byte symbols = .ok number ↔ Register text number.toNat := by
  constructor
  · intro hExact
    obtain ⟨hDigit, hValue⟩ := value_signedText .builtin
    obtain ⟨n, hLiteral, -⟩ := (hExact .builtin signedText.toList hDigit).1 ⟨-5, hValue⟩
    have hBare : bare signedText.toList = signedText.toList := bare_of_plain (by decide)
    rw [strippedText, hBare] at hLiteral
    exact hLiteral.minus_not_mem (by decide)
  · intro hExact
    have hRegister := (hExact .builtin "R+5".toList 5).1 (by decide)
    exact hRegister.plus_not_mem (by decide)

end Assembly

end ControlUnit
