import ControlUnit.Assembly
import ControlUnit.Listing

/-!
# Literals

What a listing writes for an operand is read back as the byte it was written for:
numbers in base ten and sixteen, the names of registers, and the names of I/O
registers, which are symbols.

All of these are plain texts (`Text.Plain`): they hold no blank and none of the marks
by which a line is taken apart.  A plain text passes every cut of the reader unharmed,
so reading one comes down to reading an atom (`Expression.ofText_of_plain`).

## Main results

* `Assembly.value_hex` — a number written in base sixteen has its value.
* `Assembly.plain_of_isName`, `Assembly.plain_of_number?` — names and accepted literals are plain.
* `Assembly.byte_registerName`, `Assembly.byte_hexByte`, `Assembly.byte_decimal`,
  `Assembly.byte_ioName` — a written operand is read back.
-/

namespace ControlUnit

namespace Text

/-! ## Plain texts -/

/-- The characters by which a line and its expressions are taken apart. -/
def marks : List Char := [';', ':', '=', ',', '(', ')', '|', '<']

/-- Whether a character only stands for itself. -/
def isPlain (c : Char) : Bool := !isBlank c && !marks.contains c

/-- A text without blanks and marks that is not empty. -/
structure Plain (text : List Char) : Prop where
  ne_nil : text ≠ []
  all : text.all isPlain = true

variable {text : List Char}

instance : Decidable (Plain text) :=
  decidable_of_iff (text ≠ [] ∧ text.all isPlain = true)
    ⟨fun h => { ne_nil := h.1, all := h.2 }, fun h => ⟨h.ne_nil, h.all⟩⟩

theorem Plain.isPlain (h : Plain text) : ∀ c ∈ text, isPlain c = true :=
  List.all_eq_true.1 h.all

theorem Plain.notBlank (h : Plain text) : ∀ c ∈ text, isBlank c = false := by
  intro c hMem
  have hPlain := h.isPlain c hMem
  simp only [Text.isPlain, Bool.and_eq_true, Bool.not_eq_true'] at hPlain
  exact hPlain.1

theorem Plain.not_mem (h : Plain text) {mark : Char} (hMark : mark ∈ marks) : mark ∉ text := by
  intro hMem
  have hPlain := h.isPlain mark hMem
  simp [Text.isPlain, hMark] at hPlain

theorem Plain.append {first second : List Char} (hFirst : Plain first) (hSecond : Plain second) :
    Plain (first ++ second) where
  ne_nil := by simp [hFirst.ne_nil]
  all := by rw [List.all_append, hFirst.all, hSecond.all]; rfl

private theorem dropWhile_isBlank_eq_self (h : ∀ c ∈ text.head?, isBlank c = false) :
    text.dropWhile isBlank = text := by
  cases text with
  | nil => rfl
  | cons c rest => simp [List.dropWhile, h c rfl]

theorem trim_eq_self (hHead : ∀ c ∈ text.head?, isBlank c = false)
    (hLast : ∀ c ∈ text.getLast?, isBlank c = false) : trim text = text := by
  have hReverse : ∀ c ∈ text.reverse.head?, isBlank c = false := by
    rw [List.head?_reverse]
    exact hLast
  rw [trim, dropWhile_isBlank_eq_self hHead, dropWhile_isBlank_eq_self hReverse,
    List.reverse_reverse]

theorem trim_cons_of_isBlank {c : Char} (h : isBlank c = true) : trim (c :: text) = trim text := by
  simp [trim, List.dropWhile, h]

theorem mem_of_mem_trim {c : Char} (h : c ∈ trim text) : c ∈ text := by
  rw [trim, List.mem_reverse] at h
  have hInner := (List.dropWhile_suffix isBlank).subset h
  rw [List.mem_reverse] at hInner
  exact (List.dropWhile_suffix isBlank).subset hInner

theorem trim_append_of_isBlank {c : Char} (h : isBlank c = true) :
    trim (text ++ [c]) = trim text := by
  rw [trim, trim, List.dropWhile_append]
  cases hText : text.dropWhile isBlank with
  | nil => simp [List.dropWhile, h]
  | cons first rest => simp [h]

theorem Plain.trim (h : Plain text) : trim text = text :=
  trim_eq_self (fun c hc => h.notBlank c (List.mem_of_mem_head? hc))
    (fun c hc => h.notBlank c (List.mem_of_mem_getLast? hc))

/-! ## Digits -/

/-- The digits of a number up to base sixteen are those of its remainders. -/
theorem exists_digitChar_of_mem_toDigits {base : Nat} (hBase : 1 < base) {n : Nat} {c : Char}
    (hMem : c ∈ Nat.toDigits base n) : ∃ digit < base, c = digit.digitChar := by
  induction n using Nat.strongRecOn with
  | ind n ih =>
      by_cases hSmall : n < base
      · rw [Nat.toDigits_of_lt_base hSmall, List.mem_singleton] at hMem
        exact ⟨n, hSmall, hMem⟩
      · have hLess : n / base < n := Nat.div_lt_self (by omega) hBase
        rw [Nat.toDigits_of_base_le hBase (by omega), List.mem_append, List.mem_singleton] at hMem
        rcases hMem with hMem | rfl
        · exact ih (n / base) hLess hMem
        · exact ⟨n % base, Nat.mod_lt _ (by omega), rfl⟩

theorem isPlain_digitChar {digit : Nat} (h : digit < 16) : isPlain digit.digitChar = true := by
  have hAll : ∀ digit : Fin 16, isPlain digit.val.digitChar = true := by decide
  exact hAll ⟨digit, h⟩

theorem plain_padded {base : Nat} (hBase : 1 < base) (hSixteen : base ≤ 16) (width n : Nat) :
    Plain (padded base width n).toList := by
  rw [padded, String.toList_ofList]
  refine { ne_nil := ?_, all := ?_ }
  · simp [List.leftpad]
  · rw [List.all_eq_true]
    intro c hMem
    rw [List.leftpad, List.mem_append] at hMem
    rcases hMem with hZero | hDigit
    · rw [List.eq_of_mem_replicate hZero]
      decide
    · obtain ⟨digit, hLess, rfl⟩ := exists_digitChar_of_mem_toDigits hBase hDigit
      exact isPlain_digitChar (by omega)

theorem plain_decimal (n : Nat) : Plain (decimal n).toList :=
  plain_padded (by decide) (by decide) 0 n

theorem plain_hex (width n : Nat) : Plain ('0' :: 'x' :: (padded 16 width n).toList) := by
  have hMark : Plain ['0', 'x'] := by decide
  exact hMark.append (plain_padded (by decide) (by decide) width n)

theorem toList_hexByte (byte : UInt8) :
    (hexByte byte).toList = '0' :: 'x' :: (padded 16 2 byte.toNat).toList := by
  rw [hexByte, String.toList_append]
  rfl

theorem plain_hexByte (byte : UInt8) : Plain (hexByte byte).toList := by
  rw [toList_hexByte]
  exact plain_hex 2 byte.toNat

theorem natural?_padded {base : Nat} (hBase : 2 ≤ base) (hSixteen : base ≤ 16) (width n : Nat) :
    natural? base (padded base width n).toList = some n := by
  rw [padded, String.toList_ofList]
  exact natural?_leftpad hBase hSixteen width n

theorem digitValue?_of_continue? {base value n : Nat} (h : continue? base value text = some n) :
    ∀ c ∈ text, digitValue? base c ≠ none := by
  induction text generalizing value with
  | nil => simp
  | cons first rest ih =>
      rw [continue?] at h
      cases hFirst : digitValue? base first with
      | none => simp [hFirst] at h
      | some digit =>
          simp only [hFirst] at h
          intro c hMem
          rcases List.mem_cons.1 hMem with rfl | hMem
          · simp [hFirst]
          · exact ih h c hMem

theorem digitValue?_of_natural? {base n : Nat} (h : natural? base text = some n) :
    ∀ c ∈ text, digitValue? base c ≠ none := by
  rw [natural?] at h
  split at h
  · cases h
  · exact digitValue?_of_continue? h

/-- No sign is a digit. -/
theorem not_mem_of_natural? {base n : Nat} (h : natural? base text = some n) {c : Char}
    (hDigit : digitValue? base c = none) : c ∉ text := by
  intro hMem
  exact digitValue?_of_natural? h c hMem hDigit

theorem digitValue?_eq_none {base : Nat} {c : Char}
    (hDecimal : ¬('0' ≤ c ∧ c ≤ '9')) (hSmall : ¬('a' ≤ c ∧ c ≤ 'f'))
    (hCapital : ¬('A' ≤ c ∧ c ≤ 'F')) : digitValue? base c = none := by
  simp [digitValue?, hDecimal, hSmall, hCapital]

/-- A natural number carries no sign, so it is also read where signs are allowed. -/
theorem signed?_of_natural? {base n : Nat} (h : natural? base text = some n) :
    signed? base text = some (n : Int) := by
  have hPlus : '+' ∉ text :=
    not_mem_of_natural? h (digitValue?_eq_none (by decide) (by decide) (by decide))
  have hMinus : '-' ∉ text :=
    not_mem_of_natural? h (digitValue?_eq_none (by decide) (by decide) (by decide))
  unfold signed?
  split
  · simp at hPlus
  · simp at hMinus
  · rw [h]
    rfl

theorem unsigned?_of_natural? {base n : Nat} (h : natural? base text = some n) :
    unsigned? base text = some n := by
  have hPlus : '+' ∉ text :=
    not_mem_of_natural? h (digitValue?_eq_none (by decide) (by decide) (by decide))
  unfold unsigned?
  split
  · simp at hPlus
  · exact h

end Text

namespace Assembly

open Text

variable {text : List Char}

/-! ## Plain expressions -/

theorem enclosed?_of_not_mem (h : '(' ∉ text) : enclosed? text = none := by
  unfold enclosed?
  split
  · simp at h
  · rfl

/-- Around a plain text there is nothing to take off. -/
theorem bare_of_plain (h : Plain text) : bare text = text := by
  have hParen : '(' ∉ text := h.not_mem (by decide)
  rw [bare]
  split
  · rename_i inner hInner
    rw [h.trim, enclosed?_of_not_mem hParen] at hInner
    cases hInner
  · exact h.trim

theorem splitBars_of_not_mem (h : '|' ∉ text) (depth : Int) : splitBars depth text = [text] := by
  induction text generalizing depth with
  | nil => rfl
  | cons c rest ih =>
      have hHead : c ≠ '|' := by
        rintro rfl
        simp at h
      have hRest : '|' ∉ rest := fun hMem => h (by simp [hMem])
      simp only [splitBars, hHead, false_and, if_false, ih hRest]

theorem cutShift?_of_not_mem (h : '<' ∉ text) : cutShift? text = none := by
  induction text with
  | nil => rfl
  | cons c rest ih =>
      have hRest : '<' ∉ rest := fun hMem => h (by simp [hMem])
      unfold cutShift?
      split
      · rfl
      · simp_all
      · simp_all

theorem Term.ofText_of_plain (h : Plain text) : Term.ofText text = .atom (.ofText text) := by
  have hShift : '<' ∉ text := h.not_mem (by decide)
  simp only [Term.ofText, bare_of_plain h, cutShift?_of_not_mem hShift]

/-- A plain text is an expression of one atom. -/
theorem Expression.ofText_of_plain (h : Plain text) :
    Expression.ofText text = [.atom (.ofText text)] := by
  have hBar : '|' ∉ text := h.not_mem (by decide)
  rw [Expression.ofText, bare_of_plain h, splitBars_of_not_mem hBar, List.map_singleton,
    Term.ofText_of_plain h]

/-- The value of an expression of one atom is that of the atom. -/
theorem Expression.value_atom (symbols : Symbols) (atom : Atom) :
    Expression.value symbols [.atom atom] = atom.value symbols := by
  simp only [Expression.value, Term.value]
  cases atom.value symbols with
  | error cause => rfl
  | ok value => simp

/-! ## Numbers -/

private theorem filter_underscore_of_natural? {base n : Nat} (h : natural? base text = some n) :
    text.filter (fun c => c != '_') = text := by
  have hUnderscore : '_' ∉ text :=
    not_mem_of_natural? h (digitValue?_eq_none (by decide) (by decide) (by decide))
  rw [List.filter_eq_self]
  intro c hMem
  have hNe : c ≠ '_' := by
    rintro rfl
    exact hUnderscore hMem
  simpa using hNe

private theorem number?_of_literal? {n : Nat}
    (h : literal? (text.filter fun c => c != '_') = some (n : Int)) (hn : n ≤ 0x7FFFFFFFFFFFFFFF) :
    number? text = some (.ofInt n) := by
  have hRange : Int64.minValue.toInt ≤ (n : Int) ∧ (n : Int) ≤ Int64.maxValue.toInt := by
    simp only [Int64.toInt_minValue, Int64.toInt_maxValue]
    omega
  rw [number?, h]
  simp only [hRange, and_self, if_true]

/-- Decimal digits are a literal, as far as the machine numbers reach. -/
theorem number?_of_natural? {n : Nat} (h : natural? 10 text = some n) (hn : n ≤ 0x7FFFFFFFFFFFFFFF) :
    number? text = some (.ofInt n) := by
  have hNone : ∀ c ∈ ['x', 'X', 'b', 'B'], c ∉ text := by
    intro c hc
    apply not_mem_of_natural? h
    simp only [List.mem_cons, List.not_mem_nil, or_false] at hc
    rcases hc with rfl | rfl | rfl | rfl <;> decide
  apply number?_of_literal? _ hn
  rw [filter_underscore_of_natural? h]
  unfold literal?
  split
  · exact absurd (by simp) (hNone 'x' (by simp))
  · exact absurd (by simp) (hNone 'X' (by simp))
  · exact absurd (by simp) (hNone 'b' (by simp))
  · exact absurd (by simp) (hNone 'B' (by simp))
  · exact signed?_of_natural? h

theorem number?_of_natural?_sixteen {n : Nat} (h : natural? 16 text = some n) (hn : n ≤ 0x7FFFFFFFFFFFFFFF) :
    number? ('0' :: 'x' :: text) = some (.ofInt n) := by
  apply number?_of_literal? _ hn
  have hFilter : ('0' :: 'x' :: text).filter (fun c => c != '_') = '0' :: 'x' :: text := by
    simp [filter_underscore_of_natural? h]
  rw [hFilter]
  exact signed?_of_natural? h

def beginsWithDigit : List Char → Bool
  | [] => false
  | c :: _ => c.isDigit

/-- A plain text that begins with a digit is read as a number. -/
theorem Atom.ofText_of_number? (h : Plain text) (hDigit : beginsWithDigit text = true)
    {value : Int64} (hNumber : number? text = some value) : Atom.ofText text = .number value := by
  cases text with
  | nil => exact absurd rfl h.ne_nil
  | cons c rest =>
      rw [beginsWithDigit] at hDigit
      simp only [Atom.ofText, bare_of_plain h, hDigit, if_true, hNumber]

theorem Atom.ofText_of_symbol (h : Plain text) (hDigit : beginsWithDigit text = false) :
    Atom.ofText text = .symbol (String.ofList text) := by
  cases text with
  | nil => exact absurd rfl h.ne_nil
  | cons c rest =>
      rw [beginsWithDigit] at hDigit
      simp [Atom.ofText, bare_of_plain h, hDigit]

theorem Expression.value_of_number? (symbols : Symbols) (h : Plain text)
    (hDigit : beginsWithDigit text = true) {value : Int64}
    (hNumber : number? text = some value) :
    (Expression.ofText text).value symbols = .ok value := by
  rw [Expression.ofText_of_plain h, Expression.value_atom, Atom.ofText_of_number? h hDigit hNumber,
    Atom.value]

/-! ## Names -/

theorem toNat_of_isNameRest {c : Char} (h : isNameRest c = true) : c.toNat ≤ 122 := by
  have hKind : (((65 ≤ c.toNat ∧ c.toNat ≤ 90) ∨ (97 ≤ c.toNat ∧ c.toNat ≤ 122)) ∨
      (48 ≤ c.toNat ∧ c.toNat ≤ 57)) ∨ c = '_' := by
    delta isNameRest Char.isAlphanum Char.isAlpha Char.isUpper Char.isLower Char.isDigit at h
    simp only [Bool.or_eq_true, Bool.and_eq_true, decide_eq_true_eq, beq_iff_eq, ge_iff_le,
      UInt32.le_iff_toNat_le] at h
    exact h
  rcases hKind with ((hUpper | hLower) | hDigit) | rfl
  · omega
  · omega
  · omega
  · decide

/-- What holds of the name characters up to the last small letter holds of all of them. -/
theorem of_isNameRest {p : Char → Prop}
    (hCodes : ∀ code : Fin 123, isNameRest (Char.ofNat code) = true → p (Char.ofNat code)) {c : Char}
    (h : isNameRest c = true) : p c := by
  have hCode := hCodes ⟨c.toNat, by have := toNat_of_isNameRest h; omega⟩
  rw [Char.ofNat_toNat] at hCode
  exact hCode h

theorem isPlain_of_isNameRest {c : Char} (h : isNameRest c = true) : isPlain c = true :=
  of_isNameRest (p := fun c => isPlain c = true) (by decide) h

theorem isNameRest_of_isNameStart {c : Char} (h : isNameStart c = true) : isNameRest c = true := by
  simp only [isNameStart, Bool.or_eq_true] at h
  simp only [isNameRest, Char.isAlphanum, Bool.or_eq_true]
  exact h.imp_left .inl

/-- Names are plain. -/
theorem plain_of_isName (h : isName text = true) : Plain text := by
  cases text with
  | nil => cases h
  | cons first rest =>
      simp only [isName, Bool.and_eq_true, List.all_eq_true] at h
      obtain ⟨⟨hFirst, hRest⟩, -⟩ := h
      refine { ne_nil := List.cons_ne_nil _ _, all := ?_ }
      rw [List.all_cons, isPlain_of_isNameRest (isNameRest_of_isNameStart hFirst), Bool.true_and,
        List.all_eq_true]
      exact fun c hMem => isPlain_of_isNameRest (hRest c hMem)

theorem beginsWithDigit_of_isName (h : isName text = true) : beginsWithDigit text = false := by
  cases text with
  | nil => rfl
  | cons first rest =>
      simp only [isName, Bool.and_eq_true] at h
      exact of_isNameRest (p := fun c => isNameStart c = true → c.isDigit = false) (by decide)
        (isNameRest_of_isNameStart h.1.1) h.1.1

theorem toList_registerName (operand : UInt8) :
    (registerName operand).toList = 'R' :: (decimal (registerIndex operand)).toList := by
  rw [registerName, String.toList_append]
  rfl

theorem plain_registerName (operand : UInt8) : Plain (registerName operand).toList := by
  have hLetter : Plain ['R'] := by decide
  rw [toList_registerName]
  exact hLetter.append (plain_decimal _)

private theorem plain_of_mem_ioRegisters {named : String × UInt8} (h : named ∈ ioRegisters) :
    Plain named.1.toList ∧ beginsWithDigit named.1.toList = false := by
  have hAll : ∀ named ∈ ioRegisters,
      Plain named.1.toList ∧ beginsWithDigit named.1.toList = false := by decide
  exact hAll named h

theorem plain_ioName (address : UInt8) : Plain (ioName address).toList := by
  rw [ioName]
  split
  · rename_i named hFind
    exact (plain_of_mem_ioRegisters (List.mem_of_find?_eq_some hFind)).1
  · exact plain_hexByte address

/-! ## Accepted literals -/

/-- Digits of every base can stand in names, so they are plain. -/
theorem isNameRest_of_digitValue? {base : Nat} {c : Char} (h : digitValue? base c ≠ none) :
    isNameRest c = true := by
  by_cases hDecimal : '0' ≤ c ∧ c ≤ '9'
  · have hDigit : c.isDigit = true :=
      Bool.and_eq_true_iff.2 ⟨decide_eq_true hDecimal.1, decide_eq_true hDecimal.2⟩
    simp [isNameRest, Char.isAlphanum, hDigit]
  · by_cases hSmall : 'a' ≤ c ∧ c ≤ 'f'
    · have hLower : c.isLower = true := Bool.and_eq_true_iff.2
        ⟨decide_eq_true hSmall.1, decide_eq_true (Char.le_trans hSmall.2 (by decide))⟩
      have hAlpha : c.isAlpha = true := Bool.or_eq_true_iff.2 (.inr hLower)
      simp [isNameRest, Char.isAlphanum, hAlpha]
    · by_cases hCapital : 'A' ≤ c ∧ c ≤ 'F'
      · have hUpper : c.isUpper = true :=
          decide_eq_true ⟨hCapital.1, Char.le_trans hCapital.2 (by decide)⟩
        have hAlpha : c.isAlpha = true := Bool.or_eq_true_iff.2 (.inl hUpper)
        simp [isNameRest, Char.isAlphanum, hAlpha]
      · exact absurd (digitValue?_eq_none hDecimal hSmall hCapital) h

theorem isPlain_of_natural? {base n : Nat} (h : natural? base text = some n) :
    ∀ c ∈ text, isPlain c = true := by
  intro c hMem
  exact isPlain_of_isNameRest (isNameRest_of_digitValue? (digitValue?_of_natural? h c hMem))

theorem isPlain_of_signed? {base : Nat} {n : Int} (h : signed? base text = some n) :
    ∀ c ∈ text, isPlain c = true := by
  have hDigits : ∀ digits, natural? base digits ≠ none → ∀ c ∈ digits, isPlain c = true := by
    intro digits hSome
    obtain ⟨n, hNatural⟩ := Option.ne_none_iff_exists'.1 hSome
    exact isPlain_of_natural? hNatural
  unfold signed? at h
  split at h
  · exact List.forall_mem_cons.2 ⟨by decide, hDigits _ fun hNone => by simp [hNone] at h⟩
  · exact List.forall_mem_cons.2 ⟨by decide, hDigits _ fun hNone => by simp [hNone] at h⟩
  · exact hDigits _ fun hNone => by simp [hNone] at h

theorem isPlain_of_literal? {n : Int} (h : literal? text = some n) :
    ∀ c ∈ text, isPlain c = true := by
  have hMarked : ∀ {first second : Char} {digits : List Char} {base : Nat},
      isPlain first = true → isPlain second = true → signed? base digits = some n →
        ∀ c ∈ first :: second :: digits, isPlain c = true := by
    intro first second digits base hFirst hSecond hDigits
    rw [List.forall_mem_cons, List.forall_mem_cons]
    exact ⟨hFirst, hSecond, isPlain_of_signed? hDigits⟩
  unfold literal? at h
  split at h
  · exact hMarked (by decide) (by decide) h
  · exact hMarked (by decide) (by decide) h
  · exact hMarked (by decide) (by decide) h
  · exact hMarked (by decide) (by decide) h
  · exact isPlain_of_signed? h

/-- Valid literals are plain. -/
theorem plain_of_number? {value : Int64} (hDigit : beginsWithDigit text = true)
    (h : number? text = some value) : Plain text := by
  have hNonempty : text ≠ [] := by
    rintro rfl
    cases hDigit
  rw [number?] at h
  cases hLiteral : literal? (text.filter fun c => c != '_') with
  | none => simp [hLiteral] at h
  | some n =>
      refine { ne_nil := hNonempty, all := List.all_eq_true.2 fun c hMem => ?_ }
      by_cases hUnderscore : c = '_'
      · subst hUnderscore
        decide
      · exact isPlain_of_literal? hLiteral c (List.mem_filter.2 ⟨hMem, by simpa using hUnderscore⟩)

/-! ## Operands -/

theorem toInt_ofInt_natCast {n : Nat} (hn : n ≤ 0x7FFFFFFFFFFFFFFF) :
    (Int64.ofInt n).toInt = n :=
  Int64.toInt_ofInt_of_le (by omega) (by omega)

/-- A natural number lies between the bounds of a field as the machine number that it is. -/
theorem ofInt_between {n : Nat} (limit : Nat) (hn : n ≤ limit) (hLimit : limit ≤ 0x7FFFFFFFFFFFFFFF) :
    0 ≤ Int64.ofInt n ∧ Int64.ofInt n ≤ Int64.ofInt limit := by
  rw [Int64.le_iff_toInt_le, Int64.le_iff_toInt_le, toInt_ofInt_natCast (by omega),
    toInt_ofInt_natCast hLimit, Int64.toInt_zero]
  omega

/-- A byte is put into its field. -/
theorem Operand.byte_of_value {symbols : Symbols} {expression : Expression} {byte : UInt8}
    (h : expression.value symbols = .ok (.ofInt byte.toNat)) :
    (Operand.value expression).byte symbols = .ok byte := by
  have hLess := byte.toNat_lt
  have hInt : (Int64.ofInt byte.toNat).toInt = byte.toNat := toInt_ofInt_natCast (by omega)
  have hRange : 0 ≤ Int64.ofInt byte.toNat ∧ Int64.ofInt byte.toNat ≤ 255 :=
    ofInt_between 255 (by omega) (by decide)
  rw [Operand.byte, h]
  simp only [hRange, and_self, if_true, hInt]
  simp

theorem isDigit_of_mem_padded {width n : Nat} :
    ∀ c ∈ (padded 10 width n).toList, c.isDigit = true := by
  intro c hMem
  rw [padded, String.toList_ofList, List.leftpad, List.mem_append] at hMem
  rcases hMem with hZero | hDigit
  · rw [List.eq_of_mem_replicate hZero]
    decide
  · exact Nat.isDigit_of_mem_toDigits (by decide) (by decide) hDigit

theorem beginsWithDigit_padded (width n : Nat) :
    beginsWithDigit (padded 10 width n).toList = true := by
  have hPlain : Plain (padded 10 width n).toList := plain_padded (by decide) (by decide) width n
  cases hText : (padded 10 width n).toList with
  | nil => exact absurd hText hPlain.ne_nil
  | cons c rest => exact isDigit_of_mem_padded c (by rw [hText]; exact List.mem_cons_self)

/-- A byte written in base ten is read back. -/
theorem byte_decimal (symbols : Symbols) (byte : UInt8) :
    (Operand.ofText (decimal byte.toNat).toList .value).byte symbols = .ok byte := by
  have hLess := byte.toNat_lt
  have hNatural : natural? 10 (decimal byte.toNat).toList = some byte.toNat :=
    natural?_padded (by decide) (by decide) 0 byte.toNat
  apply Operand.byte_of_value
  exact Expression.value_of_number? symbols (plain_decimal byte.toNat)
    (beginsWithDigit_padded 0 byte.toNat) (number?_of_natural? hNatural (by omega))

/-- A number written in base sixteen behind the mark of that base has its value. -/
theorem value_hex (symbols : Symbols) (width : Nat) {n : Nat} (hn : n ≤ 0x7FFFFFFFFFFFFFFF) :
    (Expression.ofText ('0' :: 'x' :: (padded 16 width n).toList)).value symbols
      = .ok (.ofInt n) := by
  have hNatural : natural? 16 (padded 16 width n).toList = some n :=
    natural?_padded (by decide) (by decide) width n
  exact Expression.value_of_number? symbols (plain_hex width n) rfl
    (number?_of_natural?_sixteen hNatural hn)

theorem byte_hexByte (symbols : Symbols) (byte : UInt8) :
    (Operand.ofText (hexByte byte).toList .value).byte symbols = .ok byte := by
  have hLess := byte.toNat_lt
  apply Operand.byte_of_value
  rw [toList_hexByte]
  exact value_hex symbols 2 (by omega)

theorem byte_registerName (symbols : Symbols) {operand : UInt8}
    (h : operand.toNat < registerCount) :
    (Operand.ofText (registerName operand).toList .register).byte symbols = .ok operand := by
  have hIndex : (registerIndex operand).val = operand.toNat := Nat.mod_eq_of_lt h
  have hNatural : natural? 10 (decimal operand.toNat).toList = some operand.toNat :=
    natural?_padded (by decide) (by decide) 0 operand.toNat
  have hRegister : register? (registerName operand).toList = some operand := by
    rw [toList_registerName, hIndex, register?]
    simp [unsigned?_of_natural? hNatural, h]
  simp only [Operand.ofText, hRegister, Operand.byte]

/-- The table gives the names of the I/O registers their addresses. -/
def Symbols.NameIo (symbols : Symbols) : Prop :=
  ∀ named ∈ ioRegisters, symbols.value? named.1 = some (.ofInt named.2.toNat)

theorem Symbols.nameIo_builtin : builtin.NameIo := by
  unfold NameIo
  decide

/-- An I/O address is read back from its name. -/
theorem byte_ioName {symbols : Symbols} (hSymbols : symbols.NameIo) (address : UInt8) :
    (Operand.ofText (ioName address).toList .value).byte symbols = .ok address := by
  cases hFind : ioRegisters.find? fun named => named.2 == address with
  | none =>
      rw [ioName, hFind]
      exact byte_hexByte symbols address
  | some named =>
      have hMem : named ∈ ioRegisters := List.mem_of_find?_eq_some hFind
      have hAddress : named.2 = address := by simpa using List.find?_some hFind
      obtain ⟨hPlain, hDigit⟩ := plain_of_mem_ioRegisters hMem
      rw [ioName, hFind]
      apply Operand.byte_of_value
      rw [Expression.ofText_of_plain hPlain, Expression.value_atom,
        Atom.ofText_of_symbol hPlain hDigit, String.ofList_toList, Atom.value, hSymbols named hMem,
        ← hAddress]

end Assembly

end ControlUnit
