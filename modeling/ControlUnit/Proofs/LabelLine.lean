import ControlUnit.Proofs.Sentence
import ControlUnit.Proofs.SourceLine

/-!
# Lines with a label

How a line that begins with a label is written: blanks may stand around the label, a dot before
its name marks it as local, and behind its colon the line goes on as if it had no label.  These
are all the lines whose label can be read.

## Main results

* `Label.ofText_eq_ok_iff` — the texts that are read as a label.
* `sourceLine_labelLine`, `exists_labelLine` — the lines that begin with it.
-/

namespace ControlUnit.Assembly

open Text

/-! ## Labels -/

/-- How a label is written: its name, with a dot before it if it is local. -/
def Label.written (label : Label) : List Char :=
  match label.isLocal with
  | true => '.' :: label.name.toList
  | false => label.name.toList

theorem Label.plain_written {label : Label} (hName : isName label.name.toList = true) :
    Plain label.written := by
  have hPlain := plain_of_isName hName
  rw [written]
  split
  · have hDot : Plain ['.'] := by decide
    exact hDot.append hPlain
  · exact hPlain

theorem map_eq_ok {ε α β : Type} {result : Except ε α} {value : α} (h : result = .ok value)
    (f : α → β) : result.map f = .ok (f value) := by
  rw [h]
  rfl

/-- A text is read as a label exactly if it is that label between blanks. -/
theorem Label.ofText_eq_ok_iff {text : List Char} {label : Label} :
    Label.ofText text = .ok label ↔
      trim text = label.written ∧ isName label.name.toList = true := by
  constructor
  · intro h
    refine ⟨?_, isName_of_ofText h⟩
    rw [ofText.eq_def] at h
    split at h
    · rename_i name hText
      obtain ⟨found, hFound, rfl⟩ := exists_of_map_eq_ok h
      rw [hText, (readName_eq_ok_iff.1 hFound).1]
      rfl
    · obtain ⟨found, hFound, rfl⟩ := exists_of_map_eq_ok h
      exact (readName_eq_ok_iff.1 hFound).1
  · rintro ⟨hText, hName⟩
    obtain ⟨name, isLocal⟩ := label
    have hRead : readName name.toList = .ok name := readName_eq_ok_iff.2 ⟨rfl, hName⟩
    rw [ofText, hText, written]
    cases isLocal with
    | true => exact map_eq_ok hRead _
    | false =>
        split
        · -- No name begins with a dot.
          rename_i more hDot
          change name.toList = '.' :: more at hDot
          have hNot : isName ('.' :: more) = false := by simp [isName, isNameStart]
          rw [hDot, hNot] at hName
          cases hName
        · exact map_eq_ok hRead _

/-! ## Lines -/

/-- A line that begins with a label, with the blanks around the label and what is behind its
colon. -/
def labelLine (indent : List Char) (label : Label) (gap rest : List Char) : List Char :=
  indent ++ (label.written ++ gap) ++ ':' :: rest

/-- What stands before the first colon of a line is its label. -/
theorem SourceLine.ofText_append_colon {before : List Char} (hComment : commentMark ∉ before)
    (hColon : ':' ∉ before) (rest : List Char) :
    SourceLine.ofText (before ++ ':' :: rest)
      = ⟨some (before.dropWhile isBlank), content rest⟩ := by
  have hContent : content (before ++ ':' :: rest)
      = before.dropWhile isBlank ++ ':' :: trimEnd (rest.takeWhile fun c => c != commentMark) := by
    rw [content, takeWhile_append_of_not_mem hComment, List.takeWhile_cons_of_pos (by decide),
      trim_append_cons (by decide)]
  have hLabel : ':' ∉ before.dropWhile isBlank := fun hMem =>
    hColon ((List.dropWhile_suffix isBlank).subset hMem)
  have hRest : trim (trimEnd (rest.takeWhile fun c => c != commentMark)) = content rest :=
    trim_trimEnd _
  rw [SourceLine.ofText, hContent]
  simp only [cut?_append hLabel, hRest]

section LabelLine

variable {indent gap : List Char} {label : Label} (hIndent : allBlank indent = true)
  (hGap : allBlank gap = true) (hName : isName label.name.toList = true)

include hIndent hGap hName

theorem sourceLine_labelLine (rest : List Char) :
    ∃ text, SourceLine.ofText (labelLine indent label gap rest) = ⟨some text, content rest⟩ ∧
      Label.ofText text = .ok label := by
  have hPlain := Label.plain_written hName
  have hNot : ∀ {mark : Char}, isBlank mark = false → mark ∈ marks →
      mark ∉ indent ++ (label.written ++ gap) := by
    intro mark hBlank hMark
    simp [not_mem_of_allBlank hIndent hBlank, hPlain.not_mem hMark,
      not_mem_of_allBlank hGap hBlank]
  refine ⟨_, SourceLine.ofText_append_colon (hNot (by decide) (by decide))
    (hNot (by decide) (by decide)) rest, Label.ofText_eq_ok_iff.2 ⟨?_, hName⟩⟩
  rw [trim_dropWhile, trim_between hIndent hGap, hPlain.trim]

end LabelLine

/-- Every line whose label can be read begins with it. -/
theorem exists_labelLine {line text : List Char} {label : Label}
    (hText : (SourceLine.ofText line).label? = some text) (hLabel : Label.ofText text = .ok label) :
    ∃ indent gap rest, allBlank indent = true ∧ allBlank gap = true ∧
      isName label.name.toList = true ∧ line = labelLine indent label gap rest := by
  rw [SourceLine.ofText] at hText
  split at hText
  · rename_i before behind hCut
    rw [Option.some.inj hText] at hCut
    have hColon : ':' ∈ line.takeWhile fun c => c != commentMark := by
      have hMem : ':' ∈ content line := by
        rw [(eq_of_cut? hCut).1]
        exact List.mem_append_right _ List.mem_cons_self
      exact mem_of_mem_trim hMem
    obtain ⟨first, second, hSplit, hNot⟩ := List.eq_append_cons_of_mem hColon
    have hNotDropped : ':' ∉ first.dropWhile isBlank := fun hMem =>
      hNot ((List.dropWhile_suffix isBlank).subset hMem)
    have hBefore : text = first.dropWhile isBlank := by
      rw [content, hSplit, trim_append_cons (by decide), cut?_append hNotDropped] at hCut
      cases hCut
      rfl
    obtain ⟨hWritten, hName⟩ := Label.ofText_eq_ok_iff.1 hLabel
    obtain ⟨indent, gap, hIndent, hGap, hFirst⟩ := exists_trim first
    rw [hBefore, trim_dropWhile] at hWritten
    refine ⟨indent, gap, second ++ line.dropWhile fun c => c != commentMark, hIndent, hGap, hName,
      ?_⟩
    rw [labelLine, ← hWritten, ← hFirst, List.append_cons, ← List.append_assoc, ← List.append_cons,
      ← hSplit, List.takeWhile_append_dropWhile]
  · cases hText

end ControlUnit.Assembly
