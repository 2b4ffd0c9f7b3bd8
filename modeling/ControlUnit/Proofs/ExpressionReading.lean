import ControlUnit.Proofs.IntegerValue
import ControlUnit.Proofs.Parentheses

/-!
# Reading expressions

Which texts write an expression, that reading gives it back, and what its value is.  An
expression is the bitwise or of terms, a term is an atom or an atom shifted by another, and an
atom is a number or a name.  Blanks and parentheses that belong together may stand around each
of the three (`Around`).

## Main results

* `Around.exists_bare_eq` — what stands around a text is taken off.
* `Expression.ofText_of_written` — a written expression is read back.
* `value_of_written` — the value of a written expression.
-/

namespace ControlUnit.Assembly

open Text

variable {text : List Char}

/-! ## Written expressions -/

/-- Texts that `core` texts become by blanks and parentheses around them. -/
inductive Around (core : List Char → Prop) : List Char → Prop
  | core {text : List Char} (hCore : core text) : Around core text
  | blankBefore {c : Char} {text : List Char} (hBlank : isBlank c = true)
      (hText : Around core text) : Around core (c :: text)
  | blankBehind {c : Char} {text : List Char} (hBlank : isBlank c = true)
      (hText : Around core text) : Around core (text ++ [c])
  | parentheses {text : List Char} (hText : Around core text) :
      Around core ('(' :: (text ++ [')']))

/-- A text that writes an atom: a valid literal or a name. -/
inductive Atom.WrittenAs : Atom → List Char → Prop
  | number {text : List Char} {value : Int64} (hDigit : beginsWithDigit text = true)
      (hNumber : number? text = some value) : WrittenAs (.number value) text
  | symbol {name : String} (hName : isName name.toList = true) :
      WrittenAs (.symbol name) name.toList

/-- A text that writes a term: an atom, or two atoms with a shift sign between them. -/
inductive Term.WrittenAs : Term → List Char → Prop
  | atom {part : Atom} {text : List Char} (hPart : Around part.WrittenAs text) :
      WrittenAs (.atom part) text
  | shifted {left right : Atom} {first second : List Char} (hLeft : Around left.WrittenAs first)
      (hRight : Around right.WrittenAs second) :
      WrittenAs (.shifted left right) (first ++ '<' :: '<' :: second)

/-- A text that writes an expression: one or more terms with bars between them. -/
inductive Expression.WrittenAs : Expression → List Char → Prop
  | term {term : Term} {text : List Char} (hTerm : Around term.WrittenAs text) :
      WrittenAs [term] text
  | or {term : Term} {rest : Expression} {first second : List Char}
      (hTerm : Around term.WrittenAs first) (hRest : rest.WrittenAs second) :
      WrittenAs (term :: rest) (first ++ '|' :: second)

namespace Around

variable {core : List Char → Prop}

theorem balanced (hCore : ∀ text, core text → Balanced text) (h : Around core text) :
    Balanced text := by
  induction h with
  | core hText => exact hCore _ hText
  | blankBefore hBlank hText ih => exact (balanced_of_isBlank hBlank).append ih
  | blankBehind hBlank hText ih => exact ih.append (balanced_of_isBlank hBlank)
  | parentheses hText ih => exact ih.parentheses

/-- What stands around a text holds none of the marks that cut it. -/
theorem not_mem {mark : Char} (hBlank : isBlank mark = false) (hOpen : mark ≠ '(')
    (hClose : mark ≠ ')') (hCore : ∀ text, core text → mark ∉ text) (h : Around core text) :
    mark ∉ text := by
  induction h with
  | core hText => exact hCore _ hText
  | blankBefore hFirst hText ih =>
      rw [List.mem_cons, not_or]
      exact ⟨(ne_of_isBlank hFirst hBlank).symm, ih⟩
  | blankBehind hLast hText ih =>
      rw [List.mem_append, List.mem_singleton, not_or]
      exact ⟨ih, (ne_of_isBlank hLast hBlank).symm⟩
  | parentheses hText ih => simp [hOpen, hClose, ih]

/-- Blanks and parentheses around a text are taken off. -/
theorem exists_bare_eq (hCore : ∀ text, core text → Balanced text) (h : Around core text) :
    ∃ inner, core inner ∧ bare text = bare inner := by
  induction h with
  | core hText => exact ⟨_, hText, rfl⟩
  | blankBefore hBlank hText ih =>
      rw [bare_cons_of_isBlank hBlank]
      exact ih
  | blankBehind hBlank hText ih =>
      rw [bare_append_of_isBlank hBlank]
      exact ih
  | parentheses hText ih =>
      rw [bare_parentheses (hText.balanced hCore)]
      exact ih

end Around

/-! ### Atoms -/

theorem Atom.WrittenAs.plain {atom : Atom} (h : atom.WrittenAs text) : Plain text := by
  cases h with
  | number hDigit hNumber => exact plain_of_number? hDigit hNumber
  | symbol hName => exact plain_of_isName hName

theorem Atom.WrittenAs.balanced {atom : Atom} (h : atom.WrittenAs text) : Balanced text :=
  .of_not_mem (h.plain.not_mem (by decide)) (h.plain.not_mem (by decide))

theorem Atom.ofText_of_written {atom : Atom} (h : Around atom.WrittenAs text) :
    Atom.ofText text = atom := by
  obtain ⟨inner, hInner, hBare⟩ := h.exists_bare_eq fun _ hCore => hCore.balanced
  rw [Atom.ofText_congr hBare]
  have hPlain := hInner.plain
  cases hInner with
  | number hDigit hNumber => exact Atom.ofText_of_number? hPlain hDigit hNumber
  | @symbol name hName =>
      rw [Atom.ofText_of_symbol hPlain (beginsWithDigit_of_isName hName), String.ofList_toList]

/-! ### Terms -/

section AtomTexts

variable {atom : Atom}

theorem balanced_of_atom (h : Around atom.WrittenAs text) : Balanced text :=
  h.balanced fun _ hCore => hCore.balanced

theorem shift_not_mem_of_atom (h : Around atom.WrittenAs text) : '<' ∉ text :=
  h.not_mem (by decide) (by decide) (by decide) fun _ hCore => hCore.plain.not_mem (by decide)

theorem bar_not_mem_of_atom (h : Around atom.WrittenAs text) : '|' ∉ text :=
  h.not_mem (by decide) (by decide) (by decide) fun _ hCore => hCore.plain.not_mem (by decide)

end AtomTexts

namespace Term

variable {term : Term}

theorem WrittenAs.balanced (h : term.WrittenAs text) : Balanced text := by
  cases h with
  | atom hPart => exact balanced_of_atom hPart
  | shifted hLeft hRight =>
      have hSign : Balanced ['<', '<'] := rfl
      have hBehind := hSign.append (balanced_of_atom hRight)
      exact (balanced_of_atom hLeft).append hBehind

theorem WrittenAs.bar_not_mem (h : term.WrittenAs text) : '|' ∉ text := by
  cases h with
  | atom hPart => exact bar_not_mem_of_atom hPart
  | shifted hLeft hRight => simp [bar_not_mem_of_atom hLeft, bar_not_mem_of_atom hRight]

/-- A written term is read back, also as an expression of its own. -/
theorem WrittenAs.ofText_eq (h : term.WrittenAs text) :
    Term.ofText text = term ∧ Expression.ofText text = [term] := by
  cases h with
  | @atom part text hPart =>
      obtain ⟨inner, hInner, hBare⟩ :=
        hPart.exists_bare_eq fun _ hCore => hCore.balanced
      have hAtom : Atom.ofText inner = part := Atom.ofText_of_written (.core hInner)
      rw [Term.ofText_congr hBare, Expression.ofText_congr hBare,
        Term.ofText_of_plain hInner.plain, Expression.ofText_of_plain hInner.plain, hAtom]
      exact ⟨rfl, rfl⟩
  | @shifted left right first second hLeft hRight =>
      have hBare := bare_append_cons (balanced_of_atom hLeft) '<' (by decide) (by decide)
        ('<' :: second)
      have hTerm : Term.ofBare (first ++ '<' :: '<' :: second) = .shifted left right := by
        rw [Term.ofBare, cutShift?_append (shift_not_mem_of_atom hLeft)]
        simp only [Atom.ofText_of_written hLeft, Atom.ofText_of_written hRight]
      have hText : Term.ofText (first ++ '<' :: '<' :: second) = .shifted left right := by
        show Term.ofBare (bare _) = _
        rw [hBare, Term.ofBare_trim, hTerm]
      have hBar := WrittenAs.bar_not_mem (.shifted hLeft hRight)
      refine ⟨hText, ?_⟩
      show Expression.ofBare (bare _) = _
      rw [hBare, Expression.ofBare_trim, Expression.ofBare, splitBars_of_not_mem hBar,
        List.map_singleton, hText]

theorem ofText_of_written (h : Around term.WrittenAs text) :
    Term.ofText text = term ∧ Expression.ofText text = [term] := by
  obtain ⟨inner, hInner, hBare⟩ := h.exists_bare_eq fun _ hCore => hCore.balanced
  rw [Term.ofText_congr hBare, Expression.ofText_congr hBare]
  exact hInner.ofText_eq

theorem balanced_of_written (h : Around term.WrittenAs text) : Balanced text :=
  h.balanced fun _ hCore => hCore.balanced

theorem bar_not_mem_of_written (h : Around term.WrittenAs text) : '|' ∉ text :=
  h.not_mem (by decide) (by decide) (by decide) fun _ hCore => hCore.bar_not_mem

end Term

/-! ### Expressions -/

namespace Expression

variable {expression : Expression}

theorem WrittenAs.balanced (h : expression.WrittenAs text) : Balanced text := by
  induction h with
  | term hTerm => exact Term.balanced_of_written hTerm
  | or hTerm hRest ih =>
      have hBar : Balanced ['|'] := rfl
      exact (Term.balanced_of_written hTerm).append (hBar.append ih)

/-- Each term of a written expression is found between two bars. -/
theorem WrittenAs.ofBare_eq (h : expression.WrittenAs text) :
    Expression.ofBare text = expression := by
  induction h with
  | term hTerm =>
      rw [ofBare, splitBars_of_not_mem (Term.bar_not_mem_of_written hTerm), List.map_singleton,
        (Term.ofText_of_written hTerm).1]
  | @or term rest first second hTerm hRest ih =>
      have hPieces := splitBars_append (Term.balanced_of_written hTerm)
        (Term.bar_not_mem_of_written hTerm) ('|' :: second)
      have hBar : splitBars 0 ('|' :: second) = [] :: splitBars 0 second := rfl
      rw [ofBare, ← Int.natCast_zero, hPieces, Int.natCast_zero, hBar, List.modifyHead_cons,
        List.append_nil, List.map_cons, (Term.ofText_of_written hTerm).1]
      exact congrArg (term :: ·) ih

theorem WrittenAs.ofText_eq (h : expression.WrittenAs text) :
    Expression.ofText text = expression := by
  cases h with
  | term hTerm => exact (Term.ofText_of_written hTerm).2
  | @or term rest first second hTerm hRest =>
      have hBare := bare_append_cons (Term.balanced_of_written hTerm) '|' (by decide)
        (by decide) second
      show Expression.ofBare (bare _) = _
      rw [hBare, ofBare_trim]
      exact WrittenAs.ofBare_eq (.or hTerm hRest)

/-- **A written expression is read back**, with whatever blanks and parentheses it is written. -/
theorem ofText_of_written (h : Around expression.WrittenAs text) :
    Expression.ofText text = expression := by
  obtain ⟨inner, hInner, hBare⟩ := h.exists_bare_eq fun _ hCore => hCore.balanced
  rw [ofText_congr hBare, hInner.ofText_eq]

end Expression

/-! ## Values of written expressions -/

def Term.atoms : Term → List Atom
  | atom part => [part]
  | shifted left right => [left, right]

/-- The number of places by which a term is shifted. -/
def Term.amount? (symbols : Symbols) : Term → Option Int
  | atom _ => none
  | shifted _ right => right.integer? symbols

/-- A term that is shifted is shifted by 0 to 31 places. -/
def Term.ShiftInRange (symbols : Symbols) (term : Term) : Prop :=
  ∀ amount, term.amount? symbols = some amount → 0 ≤ amount ∧ amount < 32

/-- The expression is refused for the first of its terms that is not shifted by 0 to 31
places. -/
structure RefusedShift (symbols : Symbols) (expression before after : Expression) (term : Term)
    (amount : Int64) : Prop where
  split : expression = before ++ term :: after
  first : ∀ earlier ∈ before, earlier.ShiftInRange symbols
  shift : term.amount? symbols = some amount.toInt
  outside : ¬(0 ≤ amount.toInt ∧ amount.toInt < 32)
  refused : expression.value symbols = .error (.valueOutOfRange amount)

variable {symbols : Symbols}

theorem Atom.exists_value {atom : Atom} (h : Around atom.WrittenAs text)
    (hDefined : ∀ name ∈ atom.names, name ∈ symbols.names) :
    ∃ value, atom.value symbols = .ok value := by
  obtain ⟨inner, hInner, -⟩ := h.exists_bare_eq fun _ hCore => hCore.balanced
  cases hInner with
  | number hDigit hNumber => exact ⟨_, rfl⟩
  | @symbol name hName =>
      obtain ⟨value, hValue⟩ := Symbols.mem_names_iff.1 (hDefined name List.mem_cons_self)
      exact ⟨value, by rw [Atom.value, hValue]⟩

theorem Term.exists_value_of_written {term : Term} (h : Around term.WrittenAs text)
    (hDefined : ∀ name ∈ term.names, name ∈ symbols.names) :
    ∀ atom ∈ term.atoms, ∃ value, atom.value symbols = .ok value := by
  obtain ⟨inner, hInner, -⟩ := h.exists_bare_eq fun _ hCore => hCore.balanced
  cases hInner with
  | atom hPart => simpa [atoms] using Atom.exists_value hPart hDefined
  | shifted hLeft hRight =>
      rw [atoms, List.forall_mem_cons, List.forall_mem_singleton]
      exact ⟨Atom.exists_value hLeft fun name hName => hDefined name (List.mem_append_left _ hName),
        Atom.exists_value hRight fun name hName => hDefined name (List.mem_append_right _ hName)⟩

/-- A term whose atoms have values has a value, or is refused for its shift. -/
theorem Term.value_cases {term : Term}
    (h : ∀ atom ∈ term.atoms, ∃ value, atom.value symbols = .ok value) :
    (term.ShiftInRange symbols ∧ ∃ value, term.value symbols = .ok value) ∨
      ∃ amount : Int64, term.amount? symbols = some amount.toInt ∧
        ¬(0 ≤ amount.toInt ∧ amount.toInt < 32) ∧
        term.value symbols = .error (.valueOutOfRange amount) := by
  cases term with
  | atom part =>
      refine .inl ⟨fun amount hAmount => ?_, h part List.mem_cons_self⟩
      cases hAmount
  | shifted left right =>
      obtain ⟨value, hLeft⟩ := h left List.mem_cons_self
      obtain ⟨amount, hRight⟩ := h right (List.mem_cons_of_mem _ List.mem_cons_self)
      have hAmount : (shifted left right).amount? symbols = some amount.toInt :=
        Atom.integer_of_value hRight
      have hBounds : (0 ≤ amount ∧ amount < shiftLimit) ↔ 0 ≤ amount.toInt ∧ amount.toInt < 32 := by
        rw [Int64.le_iff_toInt_le, Int64.lt_iff_toInt_lt]
        rfl
      simp only [Term.value, hLeft, hRight]
      by_cases hRange : 0 ≤ amount ∧ amount < shiftLimit
      · refine .inl ⟨fun found hFound => ?_, _, if_pos hRange⟩
        rw [hAmount, Option.some.injEq] at hFound
        exact hFound ▸ hBounds.1 hRange
      · exact .inr ⟨amount, hAmount, fun hBetween => hRange (hBounds.2 hBetween), if_neg hRange⟩

namespace Expression

variable {expression : Expression}

theorem exists_value_of_written (h : expression.WrittenAs text)
    (hDefined : ∀ name ∈ Expression.names expression, name ∈ symbols.names) :
    ∀ term ∈ expression, ∀ atom ∈ term.atoms, ∃ value, atom.value symbols = .ok value := by
  induction h with
  | term hTerm =>
      intro term hMem
      rw [List.mem_singleton.1 hMem]
      exact Term.exists_value_of_written hTerm fun name hName => hDefined name (by simpa [names])
  | @or term rest first second hTerm hRest ih =>
      have hFirst := Term.exists_value_of_written hTerm fun name hName =>
        hDefined name (List.mem_append_left _ hName)
      exact List.forall_mem_cons.2
        ⟨hFirst, ih fun name hName => hDefined name (List.mem_append_right _ hName)⟩

/-- An expression whose atoms have values has a value, or is refused for its first shift that
cannot be done. -/
theorem value_cases
    (h : ∀ term ∈ expression, ∀ atom ∈ term.atoms, ∃ value, atom.value symbols = .ok value) :
    ((∀ term ∈ expression, term.ShiftInRange symbols) ∧
        ∃ value, expression.value symbols = .ok value) ∨
      ∃ before after term amount, RefusedShift symbols expression before after term amount := by
  induction expression with
  | nil => exact .inl ⟨by simp, 0, rfl⟩
  | cons term rest ih =>
      rw [List.forall_mem_cons] at h
      rcases Term.value_cases h.1 with ⟨hShift, value, hValue⟩ | ⟨amount, hAmount, hOutside, hError⟩
      · rcases ih h.2 with ⟨hShifts, more, hMore⟩ | ⟨before, after, last, amount, hRefused⟩
        · refine .inl ⟨List.forall_mem_cons.2 ⟨hShift, hShifts⟩, value ||| more, ?_⟩
          exact value_cons_eq_ok_iff.2 ⟨value, more, hValue, hMore, rfl⟩
        · refine .inr ⟨term :: before, after, last, amount, ?_⟩
          exact
            { split := by rw [hRefused.split, List.cons_append]
              first := List.forall_mem_cons.2 ⟨hShift, hRefused.first⟩
              shift := hRefused.shift
              outside := hRefused.outside
              refused := by simp only [Expression.value, hValue, hRefused.refused] }
      · refine .inr ⟨[], rest, term, amount, ?_⟩
        exact
          { split := rfl
            first := by simp
            shift := hAmount
            outside := hOutside
            refused := by simp only [Expression.value, hError] }

theorem isMachineNumber_of_terms {n : Int} (h : expression.integer? symbols = some n)
    (hTerms : ∀ term ∈ expression, ∀ n, term.integer? symbols = some n → IsMachineNumber n) :
    IsMachineNumber n := by
  induction expression generalizing n with
  | nil =>
      cases h
      exact ⟨by decide, by decide⟩
  | cons term rest ih =>
      rw [List.forall_mem_cons] at hTerms
      rw [integer?] at h
      cases hTerm : term.integer? symbols with
      | none => simp [hTerm] at h
      | some first =>
          cases hRest : Expression.integer? symbols rest with
          | none => simp [hTerm, hRest] at h
          | some second =>
              simp only [hTerm, hRest, Option.some.injEq] at h
              subst h
              exact (hTerms.1 first hTerm).lor (ih hRest hTerms.2)

end Expression

/-- **The value of a written expression is the bitwise or of the integers that its terms stand
for**, if no shift leaves the machine numbers; and an expression with a shift that cannot be
done is refused for the first of them. -/
theorem value_of_written {expression : Expression} (hText : Around expression.WrittenAs text)
    (hDefined : ∀ name ∈ Expression.names expression, name ∈ symbols.names) :
    ((∀ term ∈ expression, term.ShiftInRange symbols) →
      (∀ term ∈ expression, ∀ n, term.integer? symbols = some n → IsMachineNumber n) →
        ∃ value, (Expression.ofText text).value symbols = .ok value ∧
          expression.integer? symbols = some value.toInt) ∧
    ((∃ term ∈ expression, ¬term.ShiftInRange symbols) →
      ∃ before after term amount,
        RefusedShift symbols (Expression.ofText text) before after term amount) := by
  obtain ⟨inner, hInner, -⟩ := hText.exists_bare_eq fun _ hCore => hCore.balanced
  have hAtoms := Expression.exists_value_of_written hInner hDefined
  rw [Expression.ofText_of_written hText]
  rcases Expression.value_cases hAtoms with ⟨hShifts, value, hValue⟩ | hRefused
  · refine ⟨fun _ hTerms => ⟨value, hValue, ?_⟩, fun ⟨term, hMem, hNot⟩ => ?_⟩
    · obtain ⟨n, hInteger, rfl⟩ := Expression.integer_of_value hValue
      rw [toInt_ofInt_eq_iff.2 (Expression.isMachineNumber_of_terms hInteger hTerms), hInteger]
    · exact absurd (hShifts term hMem) hNot
  · refine ⟨fun hShifts _ => ?_, fun _ => hRefused⟩
    obtain ⟨before, after, term, amount, hRefused⟩ := hRefused
    have hMem : term ∈ expression := by simp [hRefused.split]
    exact absurd (hShifts term hMem amount.toInt hRefused.shift) hRefused.outside

/-! ### Samples -/

/-- A text with parentheses around an atom, a term and the whole. -/
def maskText : String := "(((DDRB) << 2) | ( 0x_0F ))"

def maskExpression : Expression := [.shifted (.symbol "DDRB") (.number 2), .atom (.number 15)]

theorem written_maskText : Around maskExpression.WrittenAs maskText.toList := by
  have hName : Around (Atom.symbol "DDRB").WrittenAs "DDRB".toList := .core (.symbol (by decide))
  have hLeft : Around (Atom.symbol "DDRB").WrittenAs ("(DDRB)".toList ++ [' ']) :=
    .blankBehind (by decide) (.parentheses hName)
  have hRight : Around (Atom.number 2).WrittenAs (' ' :: "2".toList) :=
    .blankBefore (by decide) (.core (.number (by decide) (by decide)))
  have hShift : (Term.shifted (.symbol "DDRB") (.number 2)).WrittenAs "(DDRB) << 2".toList :=
    .shifted hLeft hRight
  have hTerm : Around (Term.shifted (.symbol "DDRB") (.number 2)).WrittenAs
      ("((DDRB) << 2)".toList ++ [' ']) :=
    .blankBehind (by decide) (.parentheses (.core hShift))
  have hNumber : Around (Atom.number 15).WrittenAs ("0x_0F".toList ++ [' ']) :=
    .blankBehind (by decide) (.core (.number (by decide) (by decide)))
  have hBlanks : Around (Atom.number 15).WrittenAs " 0x_0F ".toList :=
    .blankBefore (by decide) hNumber
  have hMask : Around (Atom.number 15).WrittenAs (' ' :: "( 0x_0F )".toList) :=
    .blankBefore (by decide) (.parentheses hBlanks)
  have hInner : maskExpression.WrittenAs "((DDRB) << 2) | ( 0x_0F )".toList :=
    .or hTerm (.term (.core (.atom hMask)))
  exact .parentheses (.core hInner)

def shiftText : String := "1 << 32"

theorem written_shiftText :
    Around (Expression.WrittenAs [.shifted (.number 1) (.number 32)]) shiftText.toList := by
  have hLeft : Around (Atom.number 1).WrittenAs ("1".toList ++ [' ']) :=
    .blankBehind (by decide) (.core (.number (by decide) (by decide)))
  have hRight : Around (Atom.number 32).WrittenAs (' ' :: "32".toList) :=
    .blankBefore (by decide) (.core (.number (by decide) (by decide)))
  exact .core (.term (.core (.shifted hLeft hRight)))

theorem value_maskText :
    (∃ value, (Expression.ofText maskText.toList).value .builtin = .ok value ∧
      maskExpression.integer? .builtin = some value.toInt) ∧
    ∃ before after term amount,
      RefusedShift .builtin (Expression.ofText shiftText.toList) before after term amount := by
  constructor
  · refine (value_of_written written_maskText (by decide)).1 ?_ ?_
    · refine List.forall_mem_cons.2 ⟨?_, List.forall_mem_singleton.2 ?_⟩
      · rintro amount ⟨⟩
        decide
      · rintro amount ⟨⟩
    · refine List.forall_mem_cons.2 ⟨?_, List.forall_mem_singleton.2 ?_⟩
      · rintro amount ⟨⟩
        exact ⟨by decide, by decide⟩
      · rintro amount ⟨⟩
        exact ⟨by decide, by decide⟩
  · refine (value_of_written written_shiftText (by decide)).2 ⟨_, List.mem_singleton_self _, ?_⟩
    intro hShift
    exact absurd (hShift 32 rfl) (by decide)

end ControlUnit.Assembly
