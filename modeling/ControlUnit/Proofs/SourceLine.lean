import ControlUnit.Assembly.Statement

/-!
# Source lines

What a line of source text says once it has been read: a label, a statement, both or nothing
(`Line`).  Reading guarantees what no later step checks again: the names of labels and
constants are names, and the operands of an instruction are as many, and of such kinds, as
its operation takes.

## Main results

* `Line.wellFormed_of_ofText` — what reading guarantees of a line.
-/

namespace ControlUnit.Assembly

/-! ## Lines -/

/-- What a line of source text says. -/
structure Line where
  label? : Option Label
  statement? : Option Statement
  deriving DecidableEq, Repr

def readLabel? : Option (List Char) → Except LineError (Option Label)
  | none => .ok none
  | some text => (Label.ofText text).map some

def readStatement? (text : List Char) : Except LineError (Option Statement) :=
  if text.isEmpty then .ok none else (Statement.ofText text).map some

/-- What a line of source text says, if its label and its statement can be read. -/
def Line.ofText (text : List Char) : Except LineError Line :=
  match readLabel? (SourceLine.ofText text).label? with
  | .error cause => .error cause
  | .ok label? =>
    match readStatement? (SourceLine.ofText text).statement with
    | .error cause => .error cause
    | .ok statement? => .ok ⟨label?, statement?⟩

/-- The name of the constant that a statement defines. -/
def Statement.constantName? : Statement → Option String
  | constant name _ => some name
  | _ => none

namespace Line

def labelNames (line : Line) : List String := (line.label?.map Label.name).toList

/-- The names that a line defines: its label, then its constant. -/
def names (line : Line) : List String :=
  line.labelNames ++ (line.statement?.bind Statement.constantName?).toList

end Line

/-! ## What reading guarantees -/

theorem exists_of_map_eq_ok {ε α β : Type} {f : α → β} {result : Except ε α} {value : β}
    (h : result.map f = .ok value) : ∃ found, result = .ok found ∧ f found = value := by
  cases result with
  | error cause => cases h
  | ok found =>
      cases h
      exact ⟨found, rfl, rfl⟩

theorem eq_ok_of_toOption {ε α : Type} {result : Except ε α} {value : α}
    (h : result.toOption = some value) : result = .ok value := by
  cases result with
  | error error => cases h
  | ok found => exact congrArg Except.ok (Option.some.inj h)

/-- Every result of reading a whole list is that of one of its elements. -/
theorem exists_of_map_eq_map_ok {ε α β : Type} {f : α → Except ε β} {elements : List α}
    {results : List β} (h : elements.map f = results.map .ok) {result : β}
    (hMem : result ∈ results) : ∃ element ∈ elements, f element = .ok result := by
  have hOk : (.ok result : Except ε β) ∈ elements.map f := by
    rw [h]
    exact List.mem_map_of_mem hMem
  exact List.mem_map.1 hOk

theorem readName_eq_ok_iff {text : List Char} {name : String} :
    readName text = .ok name ↔ text = name.toList ∧ isName name.toList = true := by
  rw [readName]
  constructor
  · intro h
    split at h
    · rename_i hName
      cases h
      exact ⟨String.toList_ofList.symm, by rwa [String.toList_ofList]⟩
    · cases h
  · rintro ⟨rfl, hName⟩
    rw [if_pos hName, String.ofList_toList]

def Operand.kind : Operand → OperandKind
  | register _ => .register
  | unknownRegister _ => .register
  | value _ => .value

/-- An operand that names a register by its number names one that exists. -/
def Operand.Exists : Operand → Prop
  | register number => number.toNat < registerCount
  | _ => True

theorem Operand.kind_ofText (text : List Char) (kind : OperandKind) :
    (Operand.ofText text kind).kind = kind := by
  cases kind with
  | value => rfl
  | register =>
      rw [Operand.ofText]
      cases register? text <;> rfl

theorem toNat_lt_of_register? {text : List Char} {number : UInt8}
    (h : register? text = some number) : number.toNat < registerCount := by
  unfold register? at h
  split at h
  · cases h
  · split at h
    · split at h
      · split at h
        · rename_i hLess
          cases h
          rwa [UInt8.toNat_ofNat_of_lt' (Nat.lt_trans hLess (by decide))]
        · cases h
      · cases h
    · cases h

theorem Operand.exists_ofText (text : List Char) (kind : OperandKind) :
    (Operand.ofText text kind).Exists := by
  cases kind with
  | value => trivial
  | register =>
      rw [Operand.ofText]
      cases hRegister : register? text with
      | none => trivial
      | some number => exact toNat_lt_of_register? hRegister

/-- A constant has a name, and an instruction has the operands that its operation takes. -/
def Statement.WellFormed : Statement → Prop
  | constant name _ => isName name.toList = true
  | instruction opcode operands =>
    operands.map Operand.kind = operandKinds opcode ∧ ∀ operand ∈ operands, operand.Exists
  | _ => True

theorem map_kind_zipWith_ofText {texts : List (List Char)} {kinds : List OperandKind}
    (h : texts.length = kinds.length) :
    (List.zipWith Operand.ofText texts kinds).map Operand.kind = kinds := by
  induction texts generalizing kinds with
  | nil => exact (List.length_eq_zero_iff.1 h.symm).symm
  | cons text rest ih =>
      cases kinds with
      | nil => cases h
      | cons kind more =>
          rw [List.zipWith_cons_cons, List.map_cons, Operand.kind_ofText, ih (Nat.succ.inj h)]

theorem Statement.wellFormed_of_ofMnemonic {mnemonic : String} {texts : List (List Char)}
    {statement : Statement} (h : Statement.ofMnemonic mnemonic texts = .ok statement) :
    statement.WellFormed := by
  simp only [Statement.ofMnemonic] at h
  split at h
  · obtain ⟨_, -, rfl⟩ := exists_of_map_eq_ok h
    trivial
  · split at h
    · obtain ⟨_, -, rfl⟩ := exists_of_map_eq_ok h
      trivial
    · split at h
      · cases h
      · split at h
        · rename_i hCount
          cases h
          refine ⟨map_kind_zipWith_ofText hCount, fun operand hMem => ?_⟩
          obtain ⟨index, hIndex, rfl⟩ := List.getElem_of_mem hMem
          rw [List.getElem_zipWith]
          exact Operand.exists_ofText _ _
        · cases h

theorem Statement.wellFormed_of_ofText {text : List Char} {statement : Statement}
    (h : Statement.ofText text = .ok statement) : statement.WellFormed := by
  rw [Statement.ofText] at h
  split at h
  · obtain ⟨name, hName, rfl⟩ := exists_of_map_eq_ok h
    exact (readName_eq_ok_iff.1 hName).2
  · exact wellFormed_of_ofMnemonic h

theorem Label.isName_of_ofText {text : List Char} {label : Label}
    (h : Label.ofText text = .ok label) : isName label.name.toList = true := by
  unfold Label.ofText at h
  split at h
  · obtain ⟨name, hName, rfl⟩ := exists_of_map_eq_ok h
    exact (readName_eq_ok_iff.1 hName).2
  · obtain ⟨name, hName, rfl⟩ := exists_of_map_eq_ok h
    exact (readName_eq_ok_iff.1 hName).2

/-- The label of a line has a name, and its statement is well formed. -/
structure Line.WellFormed (line : Line) : Prop where
  label : ∀ label, line.label? = some label → isName label.name.toList = true
  statement : ∀ statement, line.statement? = some statement → statement.WellFormed

/-- Every name that a line defines is one. -/
theorem Line.WellFormed.isName_of_mem_names {line : Line} (h : line.WellFormed) {name : String}
    (hMem : name ∈ line.names) : isName name.toList = true := by
  rw [Line.names, Line.labelNames, List.mem_append, Option.mem_toList, Option.mem_toList] at hMem
  rcases hMem with hLabel | hConstant
  · obtain ⟨label, hSome, rfl⟩ := Option.map_eq_some_iff.1 hLabel
    exact h.label label hSome
  · obtain ⟨statement, hStatement, hName⟩ := Option.bind_eq_some_iff.1 hConstant
    have hWellFormed := h.statement statement hStatement
    cases statement with
    | constant defined expression =>
        cases hName
        exact hWellFormed
    | origin expression => cases hName
    | word expression => cases hName
    | instruction opcode operands => cases hName

/-- What reading guarantees of a line. -/
theorem Line.wellFormed_of_ofText {text : List Char} {line : Line}
    (h : Line.ofText text = .ok line) : line.WellFormed := by
  rw [Line.ofText] at h
  cases hLabel : readLabel? (SourceLine.ofText text).label? with
  | error cause => simp [hLabel] at h
  | ok label? =>
      cases hStatement : readStatement? (SourceLine.ofText text).statement with
      | error cause => simp [hLabel, hStatement] at h
      | ok statement? =>
          simp only [hLabel, hStatement, Except.ok.injEq] at h
          subst h
          refine { label := ?_, statement := ?_ }
          · rintro label rfl
            unfold readLabel? at hLabel
            split at hLabel
            · cases hLabel
            · obtain ⟨found, hFound, hEq⟩ := exists_of_map_eq_ok hLabel
              cases hEq
              exact Label.isName_of_ofText hFound
          · rintro statement rfl
            rw [readStatement?] at hStatement
            split at hStatement
            · cases hStatement
            · obtain ⟨found, hFound, hEq⟩ := exists_of_map_eq_ok hStatement
              cases hEq
              exact Statement.wellFormed_of_ofText hFound

end ControlUnit.Assembly
