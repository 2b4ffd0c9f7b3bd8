import ControlUnit.Path
import Mathlib.Data.List.Basic
import Mathlib.Data.List.TakeWhile

/-!
# The path of an image

Which file a path leads to is told from its names: its pieces without the empty ones and the
single dots, begun at the root or in the working directory.  The components of a path are its
names and, besides, how it begins, so paths with the same components lead to the same file; but a
path that begins with a single dot has one component more than the same path without the dot.

An image is refused where its path and that of the source have the same components.  What is not
refused leads elsewhere, unless one of the paths begins with a single dot and the other does not,
or one begins at the root and the other in a directory.  The path made for an image begins as that
of its source, so only one that the caller names can lead to the source.

## Main results

* `Path.components_eq_iff` — what paths with the same components have in common.
* `Path.beginning_withExtension` — a new extension does not change how a path begins.
* `Path.image_onto_source_iff` — when an image is written onto its source.
-/

namespace ControlUnit.Path

/-! ## Files -/

/-- How a path begins: at the root, with a single dot, or with neither. -/
def beginning (path : List Char) : List Component :=
  if path.head? = some '/' then [.root]
  else if (pieces path).head? = some ['.'] then [.here]
  else []

/-- Whether a piece is a name.  Two dots are one. -/
def isName (piece : List Char) : Bool := !(piece == [] || piece == ['.'])

/-- The names that a path leads along. -/
def names (path : List Char) : List (List Char) := (pieces path).filter isName

/-- The file of a path, as the names from the root to it, in a working directory given by those to
the directory. -/
def file (directory : List (List Char)) (path : List Char) : List (List Char) :=
  if path.head? = some '/' then names path else directory ++ names path

/-- The component of a name. -/
def nameComponent (name : List Char) : Component :=
  if name = ['.', '.'] then .up else .name name

/-- Whether a component is how a path begins. -/
def Component.isBeginning : Component → Bool
  | .root => true
  | .here => true
  | .up => false
  | .name _ => false

variable {path other : List Char}

theorem isName_eq_false_iff {piece : List Char} :
    isName piece = false ↔ piece = [] ∨ piece = ['.'] := by
  rw [isName, Bool.not_eq_false', Bool.or_eq_true, beq_iff_eq, beq_iff_eq]

theorem isName_iff {piece : List Char} :
    isName piece = true ↔ ¬(piece = [] ∨ piece = ['.']) := by
  rw [← isName_eq_false_iff, Bool.not_eq_false]

theorem ne_nil_of_isName {piece : List Char} (h : isName piece = true) : piece ≠ [] :=
  fun hEmpty => isName_iff.1 h (.inl hEmpty)

theorem nameComponent_injective : Function.Injective nameComponent := by
  intro first second h
  rw [nameComponent, nameComponent] at h
  split at h <;> split at h <;> simp_all

theorem isBeginning_nameComponent (name : List Char) :
    (nameComponent name).isBeginning = false := by
  rw [nameComponent]
  split <;> rfl

theorem component?_eq (piece : List Char) :
    component? piece = if isName piece then some (nameComponent piece) else none := by
  rw [component?]
  cases hName : isName piece with
  | true =>
      rw [if_neg (isName_iff.1 hName), if_pos rfl, nameComponent]
      split <;> rfl
  | false => rw [if_pos (isName_eq_false_iff.1 hName), if_neg Bool.false_ne_true]

/-- The components of a path are how it begins and its names. -/
theorem components_eq (path : List Char) :
    components path = beginning path ++ (names path).map nameComponent := by
  have hNames : (pieces path).filterMap component? = (names path).map nameComponent := by
    rw [names]
    generalize pieces path = list
    induction list with
    | nil => rfl
    | cons piece rest ih =>
        rw [List.filterMap_cons, component?_eq, List.filter_cons]
        cases isName piece with
        | true => simp [ih]
        | false => simpa using ih
  unfold components
  rw [← hNames, beginning]
  split
  · rfl
  · rename_i hRoot
    have hHead : path.head? ≠ some '/' := by
      intro hHead
      obtain ⟨rest, hPath⟩ := List.head?_eq_some_iff.1 hHead
      exact hRoot rest hPath
    rw [if_neg hHead]

/-- How a path begins, in terms of the path. -/
theorem beginning_cases (path : List Char) :
    (beginning path = [.root] ∧ path.head? = some '/') ∨
    (beginning path = [.here] ∧ path.head? ≠ some '/') ∨
    (beginning path = [] ∧ path.head? ≠ some '/') := by
  rw [beginning]
  by_cases hRoot : path.head? = some '/'
  · rw [if_pos hRoot]
    exact .inl ⟨rfl, hRoot⟩
  · rw [if_neg hRoot]
    split
    · exact .inr (.inl ⟨rfl, hRoot⟩)
    · exact .inr (.inr ⟨rfl, hRoot⟩)

theorem beginning_eq_root_iff : beginning path = [.root] ↔ path.head? = some '/' := by
  rcases beginning_cases path with ⟨hBeginning, hHead⟩ | ⟨hBeginning, hHead⟩ | ⟨hBeginning, hHead⟩
  · simp [hBeginning, hHead]
  · simp [hBeginning, hHead]
  · simp [hBeginning, hHead]

/-- Paths have the same components exactly if they begin alike and lead along the same names. -/
theorem components_eq_iff :
    components path = components other ↔
      beginning path = beginning other ∧ names path = names other := by
  have hBeginning : ∀ path, (components path).filter Component.isBeginning = beginning path := by
    intro path
    have hNone : ((names path).map nameComponent).filter Component.isBeginning = [] := by
      simp [isBeginning_nameComponent]
    rw [components_eq, List.filter_append, hNone, List.append_nil, List.filter_eq_self]
    rcases beginning_cases path with ⟨h, -⟩ | ⟨h, -⟩ | ⟨h, -⟩ <;> simp [h, Component.isBeginning]
  constructor
  · intro h
    have hSame : beginning path = beginning other := by
      rw [← hBeginning path, ← hBeginning other, h]
    rw [components_eq, components_eq, hSame, List.append_cancel_left_eq] at h
    exact ⟨hSame, List.map_injective_iff.2 nameComponent_injective h⟩
  · rintro ⟨hSame, hNames⟩
    rw [components_eq, components_eq, hSame, hNames]

/-! ## How paths begin -/

/-- The first piece of a path ends before its first separator. -/
theorem head?_pieces (path : List Char) :
    (pieces path).head? = some (path.takeWhile fun c => c != '/') := by
  rw [pieces]
  induction path with
  | nil => rfl
  | cons c rest ih =>
      rw [List.splitOn_cons_eq_if_modifyHead, List.takeWhile_cons]
      by_cases hSeparator : c = '/'
      · simp [hSeparator]
      · simp [hSeparator, List.head?_modifyHead, ih]

/-- Two characters decide how a path begins. -/
theorem beginning_cons_cons (first second : Char) (rest : List Char) :
    beginning (first :: second :: rest)
      = if first = '/' then [.root] else if first = '.' ∧ second = '/' then [.here] else [] := by
  simp only [beginning, head?_pieces, List.head?_cons, Option.some_inj]
  by_cases hRoot : first = '/'
  · rw [if_pos hRoot, if_pos hRoot]
  · rw [if_neg hRoot, if_neg hRoot]
    by_cases hSecond : second = '/'
    · simp [hRoot, hSecond]
    · simp [hRoot, hSecond]

theorem beginning_take {count : Nat} (h : 2 ≤ count) (path : List Char) :
    beginning (path.take count) = beginning path := by
  obtain ⟨more, rfl⟩ := Nat.exists_eq_add_of_le' h
  match path with
  | [] => rfl
  | [_] => rfl
  | first :: second :: rest =>
      rw [List.take_succ_cons, List.take_succ_cons, beginning_cons_cons, beginning_cons_cons]

/-- How a path begins is settled at its first separator. -/
theorem beginning_append_slash (piece first second : List Char) :
    beginning (piece ++ '/' :: first) = beginning (piece ++ '/' :: second) := by
  match piece with
  | [] => rfl
  | [c] =>
      rw [List.cons_append, List.cons_append, List.nil_append, List.nil_append, beginning_cons_cons,
        beginning_cons_cons]
  | c :: d :: rest =>
      simp only [List.cons_append, beginning_cons_cons]

/-- A path that begins with a name begins neither at the root nor with a single dot. -/
theorem beginning_of_isName {piece : List Char} (hPiece : (pieces path).head? = some piece)
    (hName : isName piece = true) : beginning path = [] := by
  have hNot := isName_iff.1 hName
  have hHead : path.head? ≠ some '/' := by
    intro hHead
    obtain ⟨rest, rfl⟩ := List.head?_eq_some_iff.1 hHead
    rw [head?_pieces, Option.some_inj] at hPiece
    exact hNot (.inl hPiece.symm)
  have hDot : (pieces path).head? ≠ some ['.'] := by
    rw [hPiece]
    exact fun hDot => hNot (.inr (Option.some_inj.1 hDot))
  rw [beginning, if_neg hHead, if_neg hDot]

/-! ## Extensions -/

theorem intercalate_prefix_concat (separator : List Char) (list : List (List Char))
    (last : List Char) : separator.intercalate list <+: separator.intercalate (list ++ [last]) := by
  induction list with
  | nil => exact List.nil_prefix
  | cons first rest ih =>
      have hLong : separator.intercalate (first :: rest ++ [last])
          = first ++ separator ++ separator.intercalate (rest ++ [last]) :=
        List.intercalate_cons_of_ne_nil (List.append_ne_nil_of_right_ne_nil rest (by simp))
      rw [hLong]
      by_cases hRest : rest = []
      · rw [hRest, List.intercalate_singleton, List.append_assoc]
        exact List.prefix_append ..
      · rw [List.intercalate_cons_of_ne_nil hRest, List.prefix_append_right_inj]
        exact ih

theorem length_le_intercalate {separator piece : List Char} {list : List (List Char)}
    (h : piece ∈ list) : piece.length ≤ (separator.intercalate list).length := by
  induction list with
  | nil => cases h
  | cons first rest ih =>
      by_cases hRest : rest = []
      · rw [hRest, List.mem_singleton] at h
        rw [h, hRest, List.intercalate_singleton]
      · rw [List.intercalate_cons_of_ne_nil hRest, List.length_append, List.length_append]
        rcases List.mem_cons.1 h with rfl | hLater
        · omega
        · have := ih hLater
          omega

variable {name new : List Char}

theorem isPrefix_stem (name : List Char) : stem name <+: name := by
  simp only [stem]
  split
  · exact List.prefix_rfl
  · have hPrefix := intercalate_prefix_concat ['.'] (name.splitOn '.').dropLast
      ((name.splitOn '.').getLast (List.splitOn_ne_nil '.' name))
    rwa [List.dropLast_concat_getLast, List.intercalate_splitOn] at hPrefix

theorem stem_ne_nil (h : name ≠ []) : stem name ≠ [] := by
  simp only [stem]
  split
  · exact h
  · rename_i hParts
    exact fun hEmpty => hParts (.inr hEmpty)

/-- Before an extension there are the dot and at least one other character. -/
theorem length_extension (h : name ≠ []) :
    extension name = [] ∨ (extension name).length + 2 ≤ name.length := by
  have hStem := List.length_pos_iff.2 (stem_ne_nil h)
  by_cases hShort : name.length ≤ (stem name).length + 1
  · exact .inl (List.drop_eq_nil_of_le hShort)
  · rw [extension, List.length_drop]
    exact .inr (by omega)

/-- The file name of a path is a name, behind which there are no others. -/
theorem pieces_of_fileName? (h : fileName? path = some name) :
    isName name = true ∧ ∃ rest, pieces path = (trimmedPieces path).dropLast ++ name :: rest := by
  rw [fileName?, Option.filter_eq_some_iff] at h
  have hLast : (trimmedPieces path).dropLast ++ [name] = trimmedPieces path :=
    List.dropLast_append_getLast? name h.1
  constructor
  · have hHead := List.head?_dropWhile_not (fun piece => piece == [] || piece == ['.'])
      (pieces path).reverse
    rw [trimmedPieces, List.getLast?_reverse] at h
    rw [h.1] at hHead
    rw [isName, hHead]
    rfl
  · refine
      ⟨((pieces path).reverse.takeWhile fun piece => piece == [] || piece == ['.']).reverse, ?_⟩
    rw [← List.singleton_append, ← List.append_assoc, hLast, trimmedPieces, ← List.reverse_append,
      List.takeWhile_append_dropWhile, List.reverse_reverse]

theorem beginning_withoutExtension (path : List Char) :
    beginning (withoutExtension path) = beginning path := by
  rw [withoutExtension]
  cases hName : fileName? path with
  | none => rfl
  | some name =>
      obtain ⟨hIsName, rest, hPieces⟩ := pieces_of_fileName? hName
      rcases length_extension (ne_nil_of_isName hIsName) with hNone | hShort
      · simp [hNone]
      · have hLength : name.length ≤ (['/'].intercalate (pieces path)).length :=
          length_le_intercalate (by simp [hPieces])
        rw [pieces, List.intercalate_splitOn] at hLength
        exact beginning_take (by omega) path

/-- A first name with a new extension is a first name. -/
theorem beginning_stem (hFirst : (pieces path).head? = some name) (hName : isName name = true) :
    beginning (stem name ++ '.' :: new) = [] := by
  rw [head?_pieces, Option.some_inj] at hFirst
  have hStem : ∀ c ∈ stem name, (c != '/') = true := by
    intro c hMem
    have hPath := (isPrefix_stem name).mem hMem
    rw [← hFirst] at hPath
    exact List.mem_takeWhile_imp (p := fun c => c != '/') hPath
  have hPiece : (pieces (stem name ++ '.' :: new)).head?
      = some (stem name ++ '.' :: new.takeWhile fun c => c != '/') := by
    rw [head?_pieces, List.takeWhile_append_of_pos hStem, List.takeWhile_cons_of_pos (by decide)]
  refine beginning_of_isName hPiece ?_
  obtain ⟨c, rest, hCons⟩ := List.exists_cons_of_ne_nil (stem_ne_nil (ne_nil_of_isName hName))
  simp [isName, hCons]

/-- A new extension does not change how a path begins. -/
theorem beginning_withExtension (new path : List Char) :
    beginning (withExtension new path) = beginning path := by
  rw [← beginning_withoutExtension path]
  simp only [withExtension]
  generalize withoutExtension path = bare
  cases hName : fileName? bare with
  | none => rfl
  | some name =>
      obtain ⟨hIsName, rest, hPieces⟩ := pieces_of_fileName? hName
      simp only
      cases hBefore : (trimmedPieces bare).dropLast with
      | nil =>
          rw [hBefore, List.nil_append] at hPieces
          have hFirst : (pieces bare).head? = some name := by rw [hPieces, List.head?_cons]
          rw [beginning_of_isName hFirst hIsName, List.nil_append, List.intercalate_singleton]
          exact beginning_stem hFirst hIsName
      | cons first more =>
          have hBare : bare = first ++ ['/'] ++ ['/'].intercalate (more ++ name :: rest) := by
            rw [← List.intercalate_cons_of_ne_nil (by simp), ← List.cons_append, ← hBefore,
              ← hPieces]
            exact (List.intercalate_splitOn '/').symm
          rw [hBare, List.cons_append, List.intercalate_cons_of_ne_nil (by simp), List.append_assoc,
            List.append_assoc]
          exact beginning_append_slash ..

/-! ## The same file -/

/-- A path leads to the file of another one that is spelt without what this path begins with. -/
inductive Respelt (directory : List (List Char)) (path other : List Char) : Prop where
  /-- The path begins with a single dot. -/
  | dot (here : beginning path = [.here]) (bare : beginning other = [])
      (same : names path = names other)
  /-- The path begins at the root and leads through the directory. -/
  | root (rooted : beginning path = [.root]) (relative : beginning other ≠ [.root])
      (through : names path = directory ++ names other)

theorem file_eq (directory : List (List Char)) (path : List Char) :
    file directory path
      = if beginning path = [.root] then names path else directory ++ names path := by
  simp only [file, beginning_eq_root_iff]

theorem Respelt.file_eq {directory : List (List Char)} (h : Respelt directory path other) :
    file directory path = file directory other := by
  rw [Path.file_eq, Path.file_eq]
  cases h with
  | dot here bare same => simp [here, bare, same]
  | root rooted relative through => rw [if_pos rooted, if_neg relative, through]

theorem Respelt.beginning_ne {directory : List (List Char)} (h : Respelt directory path other) :
    beginning path ≠ beginning other := by
  cases h with
  | dot here bare same => simp [here, bare]
  | root rooted relative through => exact fun hSame => relative (hSame ▸ rooted)

/-- Paths lead to the same file exactly if they have the same components or one of them is the
other spelt anew. -/
theorem file_eq_iff (directory : List (List Char)) (path other : List Char) :
    file directory path = file directory other ↔
      components path = components other ∨ Respelt directory path other ∨
        Respelt directory other path := by
  constructor
  · intro hSame
    rw [file_eq, file_eq] at hSame
    rw [components_eq_iff]
    rcases beginning_cases path with ⟨hPath, -⟩ | ⟨hPath, -⟩ | ⟨hPath, -⟩ <;>
      rcases beginning_cases other with ⟨hOther, -⟩ | ⟨hOther, -⟩ | ⟨hOther, -⟩ <;>
      simp only [hPath, hOther, if_true, reduceCtorEq, if_false, List.cons.injEq, and_true,
        List.append_cancel_left_eq] at hSame
    · exact .inl ⟨hPath.trans hOther.symm, hSame⟩
    · exact .inr (.inl (.root hPath (by simp [hOther]) hSame))
    · exact .inr (.inl (.root hPath (by simp [hOther]) hSame))
    · exact .inr (.inr (.root hOther (by simp [hPath]) hSame.symm))
    · exact .inl ⟨hPath.trans hOther.symm, hSame⟩
    · exact .inr (.inl (.dot hPath hOther hSame))
    · exact .inr (.inr (.root hOther (by simp [hPath]) hSame.symm))
    · exact .inr (.inr (.dot hOther hPath hSame.symm))
    · exact .inl ⟨hPath.trans hOther.symm, hSame⟩
  · rintro (hSame | hSpelt | hSpelt)
    · obtain ⟨hBeginning, hNames⟩ := components_eq_iff.1 hSame
      rw [file_eq, file_eq, hBeginning, hNames]
    · exact hSpelt.file_eq
    · exact hSpelt.file_eq.symm

/-- The path that the image of a source is to have: the one that the caller names, or else that of
the source with another extension. -/
def targetFor (source : String) (output? : Option String) : String :=
  output?.getD (String.ofList (withExtension "hex".toList source.toList))

theorem forImage_eq (source : String) (output? : Option String) :
    forImage source output?
      = if components (targetFor source output?).toList = components source.toList then
          .error ⟨targetFor source output?⟩
        else .ok (targetFor source output?) := by
  cases output? <;> rfl

/-- **The image and its source.**  The image of a source is refused if its path has the components
of the source, and then the two lead to the same file.  What is not refused leads to the file of the
source exactly where the caller has named it and one of the two paths is the other spelt anew. -/
theorem image_onto_source_iff (source : String) (output? : Option String) :
    (forImage source output? = .error ⟨targetFor source output?⟩ ∧
      ∀ directory, file directory (targetFor source output?).toList
        = file directory source.toList) ∨
    (forImage source output? = .ok (targetFor source output?) ∧
      ∀ directory, file directory (targetFor source output?).toList = file directory source.toList ↔
        output?.isSome = true ∧
          (Respelt directory (targetFor source output?).toList source.toList ∨
            Respelt directory source.toList (targetFor source output?).toList)) := by
  rw [forImage_eq]
  by_cases hSame : components (targetFor source output?).toList = components source.toList
  · rw [if_pos hSame]
    exact .inl ⟨rfl, fun directory => (file_eq_iff directory _ _).2 (.inl hSame)⟩
  · rw [if_neg hSame]
    refine .inr ⟨rfl, fun directory => ?_⟩
    rw [file_eq_iff, or_iff_right hSame]
    cases output? with
    | none =>
        -- The two begin alike, so neither is the other spelt anew.
        have hBeginning : beginning (targetFor source none).toList = beginning source.toList := by
          show beginning (String.ofList _).toList = _
          rw [String.toList_ofList, beginning_withExtension]
        have hFirst : ¬Respelt directory (targetFor source none).toList source.toList :=
          fun hSpelt => hSpelt.beginning_ne hBeginning
        have hSecond : ¬Respelt directory source.toList (targetFor source none).toList :=
          fun hSpelt => hSpelt.beginning_ne hBeginning.symm
        simp [hFirst, hSecond]
    | some output => simp

/-- Not every image is written elsewhere: a single dot before the path of the source hides that the
two are the same. -/
theorem image_onto_source :
    ¬∀ (source : String) (output? : Option String) (target : String),
      forImage source output? = .ok target →
        ∀ directory, file directory target.toList ≠ file directory source.toList := by
  intro hAll
  exact hAll "prog.s" (some "./prog.s") "./prog.s" (by decide) [] (by decide)

end ControlUnit.Path
