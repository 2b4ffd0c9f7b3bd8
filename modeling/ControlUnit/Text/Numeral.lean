/-!
# Numerals

Reading and writing natural numbers in bases two, ten and sixteen.

Reading is strict: at least one digit, digits of the base only, in either case,
nothing around them. A sign is read only where the caller asks for one. Writing
uses small letters and can pad with zeros on the left.

## Main results

* `natural?_toDigits` — a written number reads back.
* `natural?_leftpad` — zeros written in front of it do not matter.
-/

namespace ControlUnit.Text

/-! ## Reading -/

/-- The value of a character as a digit of a base up to sixteen. -/
def digitValue? (base : Nat) (c : Char) : Option Nat :=
  let value :=
    if '0' ≤ c ∧ c ≤ '9' then c.toNat - '0'.toNat
    else if 'a' ≤ c ∧ c ≤ 'f' then c.toNat - 'a'.toNat + 10
    else if 'A' ≤ c ∧ c ≤ 'F' then c.toNat - 'A'.toNat + 10
    else base
  if value < base then some value else none

/-- The number that a run of digits continues, read so far as `value`. -/
def continue? (base : Nat) (value : Nat) : List Char → Option Nat
  | [] => some value
  | c :: rest =>
    match digitValue? base c with
    | none => none
    | some digit => continue? base (base * value + digit) rest

/-- The number written by one or more digits of a base. -/
def natural? (base : Nat) (text : List Char) : Option Nat :=
  if text.isEmpty then none else continue? base 0 text

/-- A natural number that may carry a plus sign. -/
def unsigned? (base : Nat) : List Char → Option Nat
  | '+' :: digits => natural? base digits
  | digits => natural? base digits

/-- A number that may carry either sign. -/
def signed? (base : Nat) : List Char → Option Int
  | '+' :: digits => (natural? base digits).map fun n => (n : Int)
  | '-' :: digits => (natural? base digits).map fun n => -(n : Int)
  | digits => (natural? base digits).map fun n => (n : Int)

/-! ## Writing -/

/-- A number in a base, with zeros in front up to a width. -/
def padded (base width n : Nat) : String :=
  String.ofList ((Nat.toDigits base n).leftpad width '0')

def decimal (n : Nat) : String := padded 10 0 n

/-- An integer in base ten, with a minus sign if it is negative. -/
def integer (n : Int) : String := if n < 0 then "-" ++ decimal n.natAbs else decimal n.natAbs

/-- A byte as `0x` and two digits of base sixteen. -/
def hexByte (byte : UInt8) : String := "0x" ++ padded 16 2 byte.toNat

/-- A byte as eight digits of base two. -/
def binaryByte (byte : UInt8) : String := padded 2 8 byte.toNat

/-! ## Reading what was written -/

/-- A digit up to fifteen is read as its value in every base above it. -/
theorem digitValue?_digitChar {base n : Nat} (hBase : n < base) (hSixteen : n < 16) :
    digitValue? base n.digitChar = some n := by
  match n with
  | 0 | 1 | 2 | 3 | 4 | 5 | 6 | 7 | 8 | 9 | 10 | 11 | 12 | 13 | 14 | 15 =>
    simp [digitValue?, Nat.digitChar, hBase]
  | _ + 16 => omega

/-- Reading goes through a text piece by piece. -/
theorem continue?_append (base value : Nat) (first second : List Char) :
    continue? base value (first ++ second)
      = (continue? base value first).bind fun read => continue? base read second := by
  induction first generalizing value with
  | nil => simp [continue?]
  | cons c rest ih =>
      simp only [List.cons_append, continue?]
      cases digitValue? base c with
      | none => rfl
      | some digit => exact ih _

private theorem continue?_toDigits {base : Nat} (hTwo : 2 ≤ base) (hSixteen : base ≤ 16) (n : Nat) :
    continue? base 0 (Nat.toDigits base n) = some n := by
  induction n using Nat.strongRecOn with
  | ind n ih =>
      by_cases hn : n < base
      · rw [Nat.toDigits_of_lt_base hn]
        simp [continue?, digitValue?_digitChar hn (by omega)]
      · rw [Nat.toDigits_of_base_le (by omega) (by omega), continue?_append,
          ih (n / base) (Nat.div_lt_self (by omega) (by omega))]
        have hMod : n % base < base := Nat.mod_lt _ (by omega)
        simp [continue?, digitValue?_digitChar hMod (by omega), Nat.div_add_mod]

/-- A number written in a base from two to sixteen reads back. -/
theorem natural?_toDigits {base : Nat} (hTwo : 2 ≤ base) (hSixteen : base ≤ 16) (n : Nat) :
    natural? base (Nat.toDigits base n) = some n := by
  rw [natural?, continue?_toDigits hTwo hSixteen]
  simp

private theorem continue?_replicate_zero {base : Nat} (hOne : 1 ≤ base) (count : Nat)
    (text : List Char) :
    continue? base 0 (List.replicate count '0' ++ text) = continue? base 0 text := by
  induction count with
  | zero => rfl
  | succ k ih =>
      rw [List.replicate_succ, List.cons_append, continue?,
        show digitValue? base '0' = some 0 from digitValue?_digitChar hOne (by omega)]
      simpa using ih

/-- Zeros in front of a number do not change what is read. -/
theorem natural?_leftpad {base : Nat} (hTwo : 2 ≤ base) (hSixteen : base ≤ 16) (width n : Nat) :
    natural? base ((Nat.toDigits base n).leftpad width '0') = some n := by
  have hRead : continue? base 0 ((Nat.toDigits base n).leftpad width '0') = some n := by
    rw [List.leftpad, continue?_replicate_zero (by omega), continue?_toDigits hTwo hSixteen]
  have hNonempty : ((Nat.toDigits base n).leftpad width '0').isEmpty = false := by
    simp [List.leftpad]
  rw [natural?, hNonempty, hRead]
  rfl

/-- A number can be told from how it is written. -/
theorem padded_inj {base : Nat} (hTwo : 2 ≤ base) (hSixteen : base ≤ 16) {width first second : Nat} :
    padded base width first = padded base width second ↔ first = second := by
  constructor
  · intro hSame
    have hRead := natural?_leftpad hTwo hSixteen width first
    rw [String.ofList_injective hSame, natural?_leftpad hTwo hSixteen width second] at hRead
    exact (Option.some.inj hRead).symm
  · exact congrArg (padded base width)

end ControlUnit.Text
