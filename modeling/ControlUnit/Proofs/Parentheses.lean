import ControlUnit.Proofs.Trimming

/-!
# Cutting expressions

The reader of expressions knows no grammar.  It takes off the parentheses that enclose a whole
text (`bare`), cuts at the bars outside parentheses (`splitBars`), and cuts at the first shift
sign (`cutShift?`).  A text whose parentheses belong together (`Balanced`) is passed over as a
whole by the first two, so parentheses at both ends of a text are not mistaken for a pair that
encloses it.  And none of the three minds blanks at the ends of a text.

## Main results

* `bare_parentheses`, `bare_append_cons` — which parentheses are taken off.
* `cutShift?_append`, `splitBars_append` — where a text is cut.
* `Term.ofBare_trim`, `Expression.ofBare_trim` — blanks at the ends do not
  matter to the parts.
-/

namespace ControlUnit.Assembly

open Text

variable {text : List Char}

/-! ## Parentheses -/

/-- How many parentheses are open behind a text if `depth` of them are open before it, and each
one that it closes was open. -/
def openBehind? (depth : Nat) : List Char → Option Nat
  | [] => some depth
  | '(' :: rest => openBehind? (depth + 1) rest
  | ')' :: rest =>
    match depth with
    | 0 => none
    | outer + 1 => openBehind? outer rest
  | _ :: rest => openBehind? depth rest

/-- The parentheses of the text belong together. -/
def Balanced (text : List Char) : Prop := openBehind? 0 text = some 0

theorem openBehind?_cons {c : Char} (hOpen : c ≠ '(') (hClose : c ≠ ')') (depth : Nat)
    (rest : List Char) : openBehind? depth (c :: rest) = openBehind? depth rest := by
  rw [openBehind?]
  · exact hOpen
  · exact hClose

theorem openBehind?_append (depth : Nat) (first second : List Char) :
    openBehind? depth (first ++ second)
      = (openBehind? depth first).bind fun depth => openBehind? depth second := by
  fun_induction openBehind? depth first with
  | case1 depth => rfl
  | case2 depth rest ih => exact ih
  | case3 rest => rfl
  | case4 rest outer ih => exact ih
  | case5 depth c rest hOpen hClose ih =>
      rw [List.cons_append, openBehind?_cons hOpen hClose, ih]

/-- More open parentheses before a text are more open ones behind it. -/
theorem openBehind?_add {depth behind : Nat} (h : openBehind? depth text = some behind)
    (more : Nat) : openBehind? (depth + more) text = some (behind + more) := by
  fun_induction openBehind? depth text with
  | case1 depth =>
      cases h
      rfl
  | case2 depth rest ih =>
      rw [openBehind?, Nat.add_right_comm, ih h]
  | case3 rest => cases h
  | case4 rest outer ih =>
      rw [Nat.succ_add, openBehind?, ih h]
  | case5 depth c rest hOpen hClose ih => rw [openBehind?_cons hOpen hClose, ih h]

theorem openBehind?_of_not_mem (hOpen : '(' ∉ text) (hClose : ')' ∉ text) (depth : Nat) :
    openBehind? depth text = some depth := by
  induction text with
  | nil => rfl
  | cons c rest ih =>
      rw [List.mem_cons, not_or] at hOpen hClose
      rw [openBehind?_cons (Ne.symm hOpen.1) (Ne.symm hClose.1), ih hOpen.2 hClose.2]

theorem Balanced.append {first second : List Char} (hFirst : Balanced first)
    (hSecond : Balanced second) : Balanced (first ++ second) := by
  rw [Balanced, openBehind?_append, hFirst, Option.bind_some, hSecond]

theorem Balanced.parentheses (h : Balanced text) : Balanced ('(' :: (text ++ [')'])) := by
  rw [Balanced, openBehind?, openBehind?_append, openBehind?_add h 1]
  rfl

theorem Balanced.of_not_mem (hOpen : '(' ∉ text) (hClose : ')' ∉ text) : Balanced text :=
  openBehind?_of_not_mem hOpen hClose 0

theorem balanced_of_isBlank {c : Char} (h : isBlank c = true) : Balanced [c] :=
  openBehind?_cons (ne_of_isBlank h (by decide)) (ne_of_isBlank h (by decide)) 0 []

/-- Blanks before a text are no part of its parentheses. -/
theorem Balanced.dropWhile (h : Balanced text) : Balanced (text.dropWhile isBlank) := by
  refine (eq_of_dropWhile (fun c rest hBlank => ?_) text).trans h
  exact openBehind?_cons (ne_of_isBlank hBlank (by decide)) (ne_of_isBlank hBlank (by decide)) 0
    rest

theorem closedBy?_cons {c : Char} (hOpen : c ≠ '(') (hClose : c ≠ ')') (depth : Nat)
    (rest : List Char) : closedBy? depth (c :: rest) = (closedBy? depth rest).map (c :: ·) := by
  rw [closedBy?]
  · exact hClose
  · exact hOpen

/-- The search for a closing parenthesis passes over a text that does not close it. -/
theorem closedBy?_append {depth behind : Nat} (h : openBehind? depth text = some behind)
    (rest : List Char) :
    closedBy? depth (text ++ rest) = (closedBy? behind rest).map (text ++ ·) := by
  fun_induction openBehind? depth text with
  | case1 depth =>
      cases h
      simp
  | case2 depth text ih =>
      rw [List.cons_append, closedBy?, ih h, Option.map_map]
      rfl
  | case3 text => cases h
  | case4 text outer ih =>
      rw [List.cons_append, closedBy?, ih h, Option.map_map]
      rfl
  | case5 depth c text hOpen hClose ih =>
      rw [List.cons_append, closedBy?_cons hOpen hClose, ih h, Option.map_map]
      rfl

/-- The search fails where the parenthesis is closed before the end of the text. -/
theorem closedBy?_eq_none {depth : Nat} (h : openBehind? (depth + 1) text = some 0) (mark : Char)
    (rest : List Char) : closedBy? depth (text ++ mark :: rest) = none := by
  induction text generalizing depth with
  | nil => cases h
  | cons c text ih =>
      by_cases hOpen : c = '('
      · subst hOpen
        rw [openBehind?] at h
        rw [List.cons_append, closedBy?, ih h]
        rfl
      · by_cases hClose : c = ')'
        · subst hClose
          cases depth with
          | zero => simp [closedBy?]
          | succ outer =>
              rw [List.cons_append, closedBy?, ih h]
              rfl
        · rw [openBehind?_cons hOpen hClose] at h
          rw [List.cons_append, closedBy?_cons hOpen hClose, ih h]
          rfl

theorem enclosed?_parentheses (h : Balanced text) :
    enclosed? ('(' :: (text ++ [')'])) = some text := by
  rw [enclosed?, closedBy?_append h]
  simp [closedBy?]

/-- Parentheses at both ends of a text do not enclose it if they do not belong together. -/
theorem enclosed?_append (h : Balanced text) {mark : Char} (hOpen : mark ≠ '(')
    (rest : List Char) : enclosed? (text ++ mark :: rest) = none := by
  cases text with
  | nil => 
      rw [List.nil_append, enclosed?]
      rintro inner hInner
      exact hOpen (List.cons.inj hInner).1
  | cons c more =>
      by_cases hFirst : c = '('
      · subst hFirst
        exact closedBy?_eq_none h mark rest
      · rw [List.cons_append, enclosed?]
        rintro inner hInner
        exact hFirst (List.cons.inj hInner).1

/-! ## Texts within parentheses -/

theorem bare_eq (text : List Char) :
    bare text = match enclosed? (trim text) with
      | some inner => bare inner
      | none => trim text := by
  rw [bare]
  split <;> simp_all

theorem bare_congr {first second : List Char} (h : trim first = trim second) :
    bare first = bare second := by
  rw [bare_eq first, bare_eq second, h]

theorem bare_cons_of_isBlank {c : Char} (h : isBlank c = true) : bare (c :: text) = bare text :=
  bare_congr (trim_cons_of_isBlank h)

theorem bare_append_of_isBlank {c : Char} (h : isBlank c = true) :
    bare (text ++ [c]) = bare text :=
  bare_congr (trim_append_of_isBlank h)

/-- Parentheses that enclose a whole text are taken off. -/
theorem bare_parentheses (h : Balanced text) : bare ('(' :: (text ++ [')'])) = bare text := by
  have hTrim : trim ('(' :: (text ++ [')'])) = '(' :: (text ++ [')']) := by
    apply trim_eq_self
    · rintro c ⟨⟩
      decide
    · rw [← List.cons_append, List.getLast?_concat]
      rintro c ⟨⟩
      decide
  rw [bare_eq, hTrim, enclosed?_parentheses h]

/-- A text with a mark between balanced pieces keeps its parentheses. -/
theorem bare_append_cons {first : List Char} (h : Balanced first) (mark : Char)
    (hBlank : isBlank mark = false) (hOpen : mark ≠ '(') (second : List Char) :
    bare (first ++ mark :: second) = trim (first ++ mark :: second) := by
  rw [bare_eq, trim_append_cons hBlank, enclosed?_append h.dropWhile hOpen]

/-! ## Cutting -/

/-- What is made of the parts of a text between its bars. -/
def Expression.ofBare (text : List Char) : Expression := (splitBars 0 text).map Term.ofText

/-- What is made of the two sides of a shift sign, or of a text without one. -/
def Term.ofBare (text : List Char) : Term :=
  match cutShift? text with
  | some (left, right) => .shifted (.ofText left) (.ofText right)
  | none => .atom (.ofText text)

theorem Atom.ofText_congr {first second : List Char} (h : bare first = bare second) :
    Atom.ofText first = Atom.ofText second := by
  rw [Atom.ofText, Atom.ofText, h]

theorem Term.ofText_congr {first second : List Char} (h : bare first = bare second) :
    Term.ofText first = Term.ofText second := by
  rw [Term.ofText, Term.ofText, h]

theorem Expression.ofText_congr {first second : List Char} (h : bare first = bare second) :
    Expression.ofText first = Expression.ofText second := by
  rw [Expression.ofText, Expression.ofText, h]

/-! ### Shift signs -/

theorem cutShift?_cons {c : Char} (h : c ≠ '<') (text : List Char) :
    cutShift? (c :: text) = (cutShift? text).map fun parts => (c :: parts.1, parts.2) := by
  rw [cutShift?]
  exact fun _ hFirst => absurd hFirst h

theorem cutShift?_concat {c : Char} (h : c ≠ '<') (text : List Char) :
    cutShift? (text ++ [c]) = (cutShift? text).map fun parts => (parts.1, parts.2 ++ [c]) := by
  fun_induction cutShift? text with
  | case1 => exact cutShift?_cons h []
  | case2 rest => rfl
  | case3 first rest hShift ih =>
      have hNoShift : ∀ more, first = '<' → rest ++ [c] = '<' :: more → False := by
        intro more hFirst hMore
        cases rest with
        | nil => exact h (List.cons.inj hMore).1
        | cons second last => exact hShift last hFirst (by rw [(List.cons.inj hMore).1])
      rw [List.cons_append, cutShift?, ih, Option.map_map, Option.map_map]
      · rfl
      · exact hNoShift

/-- The first shift sign is found. -/
theorem cutShift?_append {first : List Char} (h : '<' ∉ first) (second : List Char) :
    cutShift? (first ++ '<' :: '<' :: second) = some (first, second) := by
  induction first with
  | nil => rfl
  | cons c rest ih =>
      rw [List.mem_cons, not_or] at h
      rw [List.cons_append, cutShift?_cons (Ne.symm h.1), ih h.2]
      rfl

/-- Blanks at the ends of a text do not matter to its shift sign. -/
theorem Term.ofBare_trim (text : List Char) : Term.ofBare (trim text) = Term.ofBare text := by
  refine eq_of_trim (fun c text hBlank => ?_) (fun c text hBlank => ?_) text
  · rw [ofBare, ofBare, cutShift?_cons (ne_of_isBlank hBlank (by decide))]
    cases cutShift? text with
    | none => exact congrArg Term.atom (Atom.ofText_congr (bare_cons_of_isBlank hBlank))
    | some parts =>
        have hLeft : Atom.ofText (c :: parts.1) = Atom.ofText parts.1 :=
          Atom.ofText_congr (bare_cons_of_isBlank hBlank)
        simp only [Option.map_some, hLeft]
  · rw [ofBare, ofBare, cutShift?_concat (ne_of_isBlank hBlank (by decide))]
    cases cutShift? text with
    | none => exact congrArg Term.atom (Atom.ofText_congr (bare_append_of_isBlank hBlank))
    | some parts =>
        have hRight : Atom.ofText (parts.2 ++ [c]) = Atom.ofText parts.2 :=
          Atom.ofText_congr (bare_append_of_isBlank hBlank)
        simp only [Option.map_some, hRight]

/-! ### Bars -/

theorem splitBars_ne_nil (depth : Int) (text : List Char) : splitBars depth text ≠ [] := by
  cases text with
  | nil => simp [splitBars]
  | cons c rest =>
      rw [splitBars]
      split
      · simp
      · dsimp only
        split <;> simp

/-- How many parentheses are open behind a character. -/
def nextDepth (depth : Int) (c : Char) : Int :=
  if c = '(' then depth + 1 else if c = ')' then depth - 1 else depth

/-- A character at which nothing is cut goes to the front of the first piece. -/
theorem splitBars_cons {c : Char} {depth : Int} (h : ¬(c = '|' ∧ depth = 0)) (text : List Char) :
    splitBars depth (c :: text) = (splitBars (nextDepth depth c) text).modifyHead (c :: ·) := by
  rw [splitBars, if_neg h, nextDepth]
  dsimp only
  split
  · rename_i hNil
    exact absurd hNil (splitBars_ne_nil _ _)
  · rename_i hCons
    rw [hCons, List.modifyHead_cons]

/-- A text without bars stays in one piece, with what follows it. -/
theorem splitBars_append {depth behind : Nat} (h : openBehind? depth text = some behind)
    (hBar : '|' ∉ text) (rest : List Char) :
    splitBars depth (text ++ rest) = (splitBars behind rest).modifyHead (text ++ ·) := by
  have hNoBar : ∀ {c : Char} {depth : Int} {text : List Char}, '|' ∉ c :: text →
      ¬(c = '|' ∧ depth = 0) := by
    rintro c depth text hNot ⟨rfl, -⟩
    exact hNot List.mem_cons_self
  fun_induction openBehind? depth text with
  | case1 depth =>
      cases h
      show splitBars behind rest = (splitBars behind rest).modifyHead id
      rw [List.modifyHead_id, id_eq]
  | case2 depth text ih =>
      have hDepth : nextDepth depth '(' = (depth + 1 : Nat) := rfl
      rw [List.cons_append, splitBars_cons (hNoBar hBar), hDepth,
        ih h (List.not_mem_of_not_mem_cons hBar), List.modifyHead_modifyHead]
      rfl
  | case3 text => cases h
  | case4 text outer ih =>
      have hDepth : nextDepth (outer + 1 : Nat) ')' = outer := by
        show ((outer + 1 : Nat) : Int) - 1 = outer
        omega
      rw [List.cons_append, splitBars_cons (hNoBar hBar), hDepth,
        ih h (List.not_mem_of_not_mem_cons hBar), List.modifyHead_modifyHead]
      rfl
  | case5 depth c text hOpen hClose ih =>
      have hDepth : nextDepth depth c = depth := by
        rw [nextDepth, if_neg hOpen, if_neg hClose]
      rw [List.cons_append, splitBars_cons (hNoBar hBar), hDepth,
        ih h (List.not_mem_of_not_mem_cons hBar), List.modifyHead_modifyHead]
      rfl

/-- A blank behind a text goes to the end of the last piece. -/
theorem exists_splitBars_concat {c : Char} (h : isBlank c = true) (depth : Int)
    (text : List Char) :
    ∃ pieces last, splitBars depth text = pieces ++ [last] ∧
      splitBars depth (text ++ [c]) = pieces ++ [last ++ [c]] := by
  induction text generalizing depth with
  | nil =>
      have hNe : c ≠ '|' := ne_of_isBlank h (by decide)
      refine ⟨[], [], rfl, ?_⟩
      rw [List.nil_append, splitBars_cons fun hBar => hNe hBar.1]
      rfl
  | cons first rest ih =>
      by_cases hBar : first = '|' ∧ depth = 0
      · obtain ⟨pieces, last, hText, hConcat⟩ := ih depth
        refine ⟨[] :: pieces, last, ?_, ?_⟩
        · rw [splitBars, if_pos hBar, hText, List.cons_append]
        · rw [List.cons_append, splitBars, if_pos hBar, hConcat, List.cons_append]
      · obtain ⟨pieces, last, hText, hConcat⟩ := ih (nextDepth depth first)
        rw [List.cons_append, splitBars_cons hBar, splitBars_cons hBar, hText, hConcat]
        cases pieces with
        | nil => exact ⟨[], first :: last, rfl, rfl⟩
        | cons piece more => exact ⟨(first :: piece) :: more, last, rfl, rfl⟩

/-- Blanks at the ends of a text do not matter to its pieces. -/
theorem Expression.ofBare_trim (text : List Char) :
    Expression.ofBare (trim text) = Expression.ofBare text := by
  refine eq_of_trim (fun c text hBlank => ?_) (fun c text hBlank => ?_) text
  · have hNe : c ≠ '|' := ne_of_isBlank hBlank (by decide)
    have hDepth : nextDepth 0 c = 0 := by
      rw [nextDepth, if_neg (ne_of_isBlank hBlank (by decide)),
        if_neg (ne_of_isBlank hBlank (by decide))]
    rw [ofBare, ofBare, splitBars_cons fun hBar => hNe hBar.1, hDepth]
    cases hPieces : splitBars 0 text with
    | nil => exact absurd hPieces (splitBars_ne_nil 0 text)
    | cons piece more =>
        have hFirst : Term.ofText (c :: piece) = Term.ofText piece :=
          Term.ofText_congr (bare_cons_of_isBlank hBlank)
        rw [List.modifyHead_cons, List.map_cons, List.map_cons, hFirst]
  · obtain ⟨pieces, last, hText, hConcat⟩ := exists_splitBars_concat hBlank 0 text
    have hLast : Term.ofText (last ++ [c]) = Term.ofText last :=
      Term.ofText_congr (bare_append_of_isBlank hBlank)
    rw [ofBare, ofBare, hText, hConcat, List.map_append, List.map_append, List.map_singleton,
      List.map_singleton, hLast]

end ControlUnit.Assembly
