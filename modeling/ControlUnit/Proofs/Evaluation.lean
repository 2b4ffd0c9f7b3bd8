import ControlUnit.Assembly.Expression

/-!
# Evaluation under growing tables

The table of symbols only grows while a source text is laid out: a definition adds a name
and changes no value.  An expression reads the table at the names that occur in it and
nowhere else, and it has a value only if all of them are in the table.  So an expression
that has a value under one table keeps it under every table that extends it.

## Main results

* `Expression.value_congr` — the value of an expression depends on its own names only.
* `Expression.mem_names_of_value` — an expression with a value uses names of the table.
* `Expression.value_of_extends` — a value found early is also the final one.
-/

namespace ControlUnit.Assembly

/-! ## Tables -/

namespace Symbols

/-- The names of the symbols of a table. -/
def names (symbols : Symbols) : List String := symbols.entries.map Prod.fst

/-- Every symbol of `symbols` has its value under `extended` too. -/
def Extends (extended symbols : Symbols) : Prop :=
  ∀ name value, symbols.value? name = some value → extended.value? name = some value

variable {symbols extended : Symbols} {name : String} {value : Int64}

theorem value?_eq_none_iff : symbols.value? name = none ↔ name ∉ symbols.names := by
  rw [value?, names, List.lookup_eq_none_iff, List.mem_map]
  constructor
  · rintro hNone ⟨entry, hEntry, rfl⟩
    exact absurd (hNone entry hEntry) (by simp)
  · intro hNotMem entry hEntry
    rw [bne_iff_ne]
    rintro rfl
    exact hNotMem ⟨entry, hEntry, rfl⟩

/-- The names of a table are those that have a value under it. -/
theorem mem_names_iff : name ∈ symbols.names ↔ ∃ value, symbols.value? name = some value := by
  rw [← Option.ne_none_iff_exists', Ne, value?_eq_none_iff, Decidable.not_not]

theorem Extends.refl (symbols : Symbols) : symbols.Extends symbols := fun _ _ h => h

theorem Extends.trans {later : Symbols} (hLater : later.Extends extended)
    (hEarlier : extended.Extends symbols) : later.Extends symbols := by
  intro name value h
  exact hLater name value (hEarlier name value h)

/-- A definition puts a new name in front of the table. -/
theorem names_define (h : symbols.define name value = .ok extended) :
    name ∉ symbols.names ∧ extended.names = name :: symbols.names := by
  rw [define] at h
  split at h
  · cases h
  · rename_i hNone
    cases h
    exact ⟨value?_eq_none_iff.1 hNone, rfl⟩

theorem value?_define_self (h : symbols.define name value = .ok extended) :
    extended.value? name = some value := by
  rw [value?_define h, if_pos rfl]

theorem extends_define (h : symbols.define name value = .ok extended) :
    extended.Extends symbols := by
  intro other found hFound
  have hNew : other ≠ name := by
    rintro rfl
    exact (names_define h).1 (mem_names_iff.2 ⟨found, hFound⟩)
  rw [value?_define h, if_neg hNew, hFound]

end Symbols

/-! ## The names of an expression -/

def Atom.names : Atom → List String
  | missing => []
  | number _ => []
  | malformed _ => []
  | symbol name => [name]

def Term.names : Term → List String
  | atom part => part.names
  | shifted left right => left.names ++ right.names

/-- The symbols that an expression uses, in order. -/
def Expression.names (expression : Expression) : List String := expression.flatMap Term.names

variable {symbols first second : Symbols} {value : Int64}

theorem Atom.value_congr {atom : Atom}
    (h : ∀ name ∈ atom.names, first.value? name = second.value? name) :
    atom.value first = atom.value second := by
  cases atom with
  | missing => rfl
  | number value => rfl
  | malformed text => rfl
  | symbol name => rw [Atom.value, Atom.value, h name (by simp [Atom.names])]

theorem Term.value_congr {term : Term}
    (h : ∀ name ∈ term.names, first.value? name = second.value? name) :
    term.value first = term.value second := by
  cases term with
  | atom part => exact Atom.value_congr h
  | shifted left right =>
      have hLeft : left.value first = left.value second :=
        Atom.value_congr fun name hName => h name (List.mem_append_left _ hName)
      have hRight : right.value first = right.value second :=
        Atom.value_congr fun name hName => h name (List.mem_append_right _ hName)
      rw [Term.value, Term.value, hLeft, hRight]

/-- The value of an expression depends on its own names only. -/
theorem Expression.value_congr {expression : Expression}
    (h : ∀ name ∈ Expression.names expression, first.value? name = second.value? name) :
    expression.value first = expression.value second := by
  induction expression with
  | nil => rfl
  | cons term rest ih =>
      have hTerm : term.value first = term.value second :=
        Term.value_congr fun name hName => h name (List.mem_append_left _ hName)
      have hRest : Expression.value first rest = Expression.value second rest :=
        ih fun name hName => h name (List.mem_append_right _ hName)
      rw [Expression.value, Expression.value, hTerm, hRest]

/-! ## Expressions with a value -/

theorem Atom.mem_names_of_value {atom : Atom} (h : atom.value symbols = .ok value) :
    ∀ name ∈ atom.names, name ∈ symbols.names := by
  cases atom with
  | missing => simp [names]
  | number value => simp [names]
  | malformed text => simp [names]
  | symbol found =>
      rw [Atom.value] at h
      cases hFound : symbols.value? found with
      | none => simp [hFound] at h
      | some value => simpa [names] using Symbols.mem_names_iff.2 ⟨value, hFound⟩

/-- A shifted atom has a value if both atoms do and the amount is one of the places by
which a value can be shifted. -/
theorem Term.value_shifted_eq_ok_iff {left right : Atom} :
    (Term.shifted left right).value symbols = .ok value ↔
      ∃ shifted amount, left.value symbols = .ok shifted ∧ right.value symbols = .ok amount ∧
        0 ≤ amount ∧ amount < shiftLimit ∧ value = shifted <<< amount := by
  rw [Term.value]
  cases left.value symbols with
  | error cause => simp
  | ok shifted =>
      cases right.value symbols with
      | error cause => simp
      | ok amount =>
          by_cases hAmount : 0 ≤ amount ∧ amount < shiftLimit
          · simp [hAmount, eq_comm]
          · simp only [hAmount, if_false, reduceCtorEq, false_iff]
            rintro ⟨_, _, hShifted, hRight, hLow, hHigh, -⟩
            cases hRight
            exact hAmount ⟨hLow, hHigh⟩

/-- An expression has a value if its first term and the rest of it have one. -/
theorem Expression.value_cons_eq_ok_iff {term : Term} {rest : Expression} :
    Expression.value symbols (term :: rest) = .ok value ↔
      ∃ head tail, term.value symbols = .ok head ∧ Expression.value symbols rest = .ok tail ∧
        value = head ||| tail := by
  rw [Expression.value]
  cases term.value symbols with
  | error cause => simp
  | ok head =>
      cases Expression.value symbols rest with
      | error cause => simp
      | ok tail => simp [eq_comm]

theorem Term.mem_names_of_value {term : Term} (h : term.value symbols = .ok value) :
    ∀ name ∈ term.names, name ∈ symbols.names := by
  cases term with
  | atom part => exact Atom.mem_names_of_value h
  | shifted left right =>
      obtain ⟨_, _, hLeft, hRight, -⟩ := Term.value_shifted_eq_ok_iff.1 h
      intro name hName
      rcases List.mem_append.1 hName with hName | hName
      · exact Atom.mem_names_of_value hLeft name hName
      · exact Atom.mem_names_of_value hRight name hName

/-- An expression with a value uses names of the table. -/
theorem Expression.mem_names_of_value {expression : Expression}
    (h : expression.value symbols = .ok value) :
    ∀ name ∈ Expression.names expression, name ∈ symbols.names := by
  induction expression generalizing value with
  | nil => simp [Expression.names]
  | cons term rest ih =>
      obtain ⟨_, _, hTerm, hRest, -⟩ := Expression.value_cons_eq_ok_iff.1 h
      intro name hName
      rcases List.mem_append.1 hName with hName | hName
      · exact Term.mem_names_of_value hTerm name hName
      · exact ih hRest name hName

/-- A value found early is also the final one. -/
theorem Expression.value_of_extends {extended : Symbols} (hExtends : extended.Extends symbols)
    {expression : Expression} (h : expression.value symbols = .ok value) :
    expression.value extended = .ok value := by
  have hAgree : ∀ name ∈ Expression.names expression,
      extended.value? name = symbols.value? name := by
    intro name hName
    obtain ⟨found, hFound⟩ := Symbols.mem_names_iff.1 (mem_names_of_value h name hName)
    rw [hFound, hExtends name found hFound]
  rw [Expression.value_congr hAgree, h]

end ControlUnit.Assembly
