import ControlUnit.Assembly.Symbol
import ControlUnit.Text.Line

/-!
# Expressions

The values that source texts write: the bitwise or of terms, a term being an atom or
an atom shifted left by another, an atom being a number or a symbol. Parentheses may
stand around an atom, a term or the whole, and blanks around everything.

Reading never fails. A place where no atom can be read becomes an atom that has no
value, so the first fault is found in the order of evaluation, from left to right.

Values are 64-bit machine numbers. A shift by 0 to 31 places drops the bits that
leave the number.
-/

namespace ControlUnit.Assembly

/-! ## The expressions -/

/-- A number, a symbol, or what stands in the place of one. -/
inductive Atom where
  | missing
  | number (value : Int64)
  /-- A text that begins with a digit and is no number. -/
  | malformed (text : String)
  | symbol (name : String)
  deriving DecidableEq, Repr

/-- An atom, or an atom shifted left. -/
inductive Term where
  | atom (part : Atom)
  | shifted (left right : Atom)
  deriving DecidableEq, Repr

/-- The terms whose bitwise or is taken. -/
abbrev Expression := List Term

def Atom.value (symbols : Symbols) : Atom → Except LineError Int64
  | missing => .error .missingOperand
  | number value => .ok value
  | malformed text => .error (.invalidNumber text)
  | symbol name =>
    match symbols.value? name with
    | some value => .ok value
    | none => .error (.undefinedSymbol name)

/-- The number of places by which a value can be shifted is less than this. -/
def shiftLimit : Int64 := 32

def Term.value (symbols : Symbols) : Term → Except LineError Int64
  | .atom part => part.value symbols
  | .shifted left right =>
    match left.value symbols with
    | .error cause => .error cause
    | .ok value =>
      match right.value symbols with
      | .error cause => .error cause
      | .ok amount =>
        if 0 ≤ amount ∧ amount < shiftLimit then .ok (value <<< amount)
        else .error (.valueOutOfRange amount)

def Expression.value (symbols : Symbols) : Expression → Except LineError Int64
  | [] => .ok 0
  | term :: rest =>
    match term.value symbols with
    | .error cause => .error cause
    | .ok value =>
      match Expression.value symbols rest with
      | .error cause => .error cause
      | .ok more => .ok (value ||| more)

/-! ## Reading -/

/-- The number that a text without underscores writes: digits of base ten, or `0x` and
digits of base sixteen, or `0b` and digits of base two. A sign may follow the mark of
the base. -/
def literal? : List Char → Option Int
  | '0' :: 'x' :: digits => Text.signed? 16 digits
  | '0' :: 'X' :: digits => Text.signed? 16 digits
  | '0' :: 'b' :: digits => Text.signed? 2 digits
  | '0' :: 'B' :: digits => Text.signed? 2 digits
  | digits => Text.signed? 10 digits

/-- The 64-bit number that a text writes. Underscores are ignored. -/
def number? (text : List Char) : Option Int64 :=
  match literal? (text.filter fun c => c != '_') with
  | some value => if Int64.minValue.toInt ≤ value ∧ value ≤ Int64.maxValue.toInt then some (.ofInt value) else none
  | none => none

/-- The text up to the parenthesis that closes `depth + 1` open ones, if that
parenthesis ends the text. -/
def closedBy? (depth : Nat) : List Char → Option (List Char)
  | [] => none
  | ')' :: rest =>
    match depth with
    | 0 => if rest.isEmpty then some [] else none
    | outer + 1 => (closedBy? outer rest).map (')' :: ·)
  | '(' :: rest => (closedBy? (depth + 1) rest).map ('(' :: ·)
  | c :: rest => (closedBy? depth rest).map (c :: ·)

/-- The text between two parentheses that belong together and enclose everything. -/
def enclosed? : List Char → Option (List Char)
  | '(' :: rest => closedBy? 0 rest
  | _ => none

/-- What is enclosed is shorter than the rest of the text. -/
theorem length_closedBy? {depth : Nat} {text inner : List Char}
    (h : closedBy? depth text = some inner) : inner.length < text.length := by
  induction text generalizing depth inner with
  | nil => simp [closedBy?] at h
  | cons c rest ih =>
      have hMap : ∀ {d : Nat} {c : Char}, (closedBy? d rest).map (c :: ·) = some inner →
          inner.length < rest.length + 1 := by
        intro d c hMapped
        obtain ⟨tail, hTail, rfl⟩ := Option.map_eq_some_iff.1 hMapped
        simpa using ih hTail
      rw [List.length_cons]
      unfold closedBy? at h
      split at h
      · simp_all
      · split at h
        · split at h
          · cases h
            simp
          · cases h
        · simp_all only [List.cons.injEq]
          exact hMap h
      · simp_all only [List.cons.injEq]
        exact hMap h
      · simp_all only [List.cons.injEq]
        exact hMap h

theorem length_enclosed? {text inner : List Char} (h : enclosed? text = some inner) :
    inner.length < text.length := by
  unfold enclosed? at h
  split at h
  · have := length_closedBy? h
    simp only [List.length_cons]
    omega
  · cases h

/-- A text without the blanks and parentheses around it. -/
def bare (text : List Char) : List Char :=
  match _h : enclosed? (Text.trim text) with
  | some inner => bare inner
  | none => Text.trim text
termination_by text.length
decreasing_by
  have := length_enclosed? _h
  have := Text.length_trim_le text
  omega

def Atom.ofText (text : List Char) : Atom :=
  match bare text with
  | [] => missing
  | c :: rest =>
    if c.isDigit then
      match number? (c :: rest) with
      | some value => number value
      | none => malformed (String.ofList (c :: rest))
    else symbol (String.ofList (c :: rest))

/-- The texts before and after the first shift sign. -/
def cutShift? : List Char → Option (List Char × List Char)
  | [] => none
  | '<' :: '<' :: rest => some ([], rest)
  | c :: rest => (cutShift? rest).map fun parts => (c :: parts.1, parts.2)

def Term.ofText (text : List Char) : Term :=
  let text := bare text
  match cutShift? text with
  | some (left, right) => .shifted (.ofText left) (.ofText right)
  | none => .atom (.ofText text)

/-- The pieces between the bars that stand in no parentheses. The depth says how many
parentheses are open. This is an integer, where the assembler counts in a signed number of
32 bits: texts of 2^31 parentheses, in which that number would overflow, are outside the
model. -/
def splitBars (depth : Int) : List Char → List (List Char)
  | [] => [[]]
  | c :: rest =>
    if c = '|' ∧ depth = 0 then [] :: splitBars depth rest
    else
      let depth := if c = '(' then depth + 1 else if c = ')' then depth - 1 else depth
      match splitBars depth rest with
      | [] => [[c]]
      | piece :: more => (c :: piece) :: more

def Expression.ofText (text : List Char) : Expression :=
  (splitBars 0 (bare text)).map Term.ofText

end ControlUnit.Assembly
