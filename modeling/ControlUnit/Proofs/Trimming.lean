import ControlUnit.Proofs.Literal

/-!
# Blanks at the ends of texts

Every reader of the assembler trims the texts that it looks at.  What ignores one blank at an end
of a text ignores all of them, so a reader need only be shown not to mind a single one.

## Main results

* `eq_of_trim`, `eq_of_trimEnd` — what ignores one blank ignores all of them.
* `trim_append_cons` — trimming takes nothing from within a text.
* `trim_word_append`, `takeWhile_word_append` — the word at the front of a text.
-/

namespace ControlUnit.Text

/-- A text without the blank characters at its end. -/
def trimEnd (text : List Char) : List Char := (text.reverse.dropWhile isBlank).reverse

theorem ne_of_isBlank {c mark : Char} (hBlank : isBlank c = true) (hMark : isBlank mark = false) :
    c ≠ mark := by
  rintro rfl
  rw [hBlank] at hMark
  cases hMark

theorem not_mem_of_allBlank {text : List Char} (hBlank : allBlank text = true) {mark : Char}
    (hMark : isBlank mark = false) : mark ∉ text := fun hMem =>
  ne_of_isBlank (List.all_eq_true.1 hBlank mark hMem) hMark rfl

/-! ## What ignores blanks -/

section Ignoring

variable {β : Type} {f : List Char → β}

theorem eq_of_dropWhile (h : ∀ c text, isBlank c = true → f (c :: text) = f text)
    (text : List Char) : f (text.dropWhile isBlank) = f text := by
  induction text with
  | nil => rfl
  | cons c rest ih =>
      by_cases hBlank : isBlank c = true
      · rw [List.dropWhile_cons_of_pos hBlank, ih, h c rest hBlank]
      · rw [List.dropWhile_cons_of_neg hBlank]

theorem eq_of_trimEnd (h : ∀ c text, isBlank c = true → f (text ++ [c]) = f text)
    (text : List Char) : f (trimEnd text) = f text := by
  have hReverse : ∀ c text, isBlank c = true → (f ∘ List.reverse) (c :: text)
      = (f ∘ List.reverse) text := by
    intro c text hBlank
    simpa using h c text.reverse hBlank
  have hLast := eq_of_dropWhile hReverse text.reverse
  rwa [Function.comp_apply, Function.comp_apply, List.reverse_reverse] at hLast

/-- What ignores one blank at either end of a text ignores all of them. -/
theorem eq_of_trim (hBefore : ∀ c text, isBlank c = true → f (c :: text) = f text)
    (hBehind : ∀ c text, isBlank c = true → f (text ++ [c]) = f text) (text : List Char) :
    f (trim text) = f text :=
  (eq_of_trimEnd hBehind (text.dropWhile isBlank)).trans (eq_of_dropWhile hBefore text)

theorem eq_of_allBlank_append (h : ∀ c text, isBlank c = true → f (c :: text) = f text)
    {blanks : List Char} (hBlank : allBlank blanks = true) (text : List Char) :
    f (blanks ++ text) = f text := by
  induction blanks with
  | nil => rfl
  | cons c rest ih =>
      rw [allBlank, List.all_cons, Bool.and_eq_true] at hBlank
      rw [List.cons_append, h c _ hBlank.1, ih hBlank.2]

theorem eq_of_append_allBlank (h : ∀ c text, isBlank c = true → f (text ++ [c]) = f text)
    {blanks : List Char} (hBlank : allBlank blanks = true) (text : List Char) :
    f (text ++ blanks) = f text := by
  induction blanks generalizing text with
  | nil => rw [List.append_nil]
  | cons c rest ih =>
      rw [allBlank, List.all_cons, Bool.and_eq_true] at hBlank
      rw [List.append_cons, ih hBlank.2, h c text hBlank.1]

end Ignoring

/-! ## Trimmed texts -/

theorem trim_dropWhile (text : List Char) : trim (text.dropWhile isBlank) = trim text :=
  eq_of_dropWhile (fun _ _ h => trim_cons_of_isBlank h) text

theorem trim_trimEnd (text : List Char) : trim (trimEnd text) = trim text :=
  eq_of_trimEnd (fun _ _ h => trim_append_of_isBlank h) text

theorem trim_trim (text : List Char) : trim (trim text) = trim text :=
  (trim_trimEnd (text.dropWhile isBlank)).trans (trim_dropWhile text)

/-- Blanks around a text are trimmed with those that it has itself. -/
theorem trim_between {indent gap : List Char} (hIndent : allBlank indent = true)
    (hGap : allBlank gap = true) (text : List Char) : trim (indent ++ (text ++ gap)) = trim text := by
  rw [eq_of_allBlank_append (fun _ _ h => trim_cons_of_isBlank h) hIndent,
    eq_of_append_allBlank (fun _ _ h => trim_append_of_isBlank h) hGap]

theorem exists_trimEnd (text : List Char) :
    ∃ gap, allBlank gap = true ∧ text = trimEnd text ++ gap := by
  refine ⟨(text.reverse.takeWhile isBlank).reverse, ?_, ?_⟩
  · rw [allBlank, List.all_reverse]
    exact List.all_takeWhile
  · rw [trimEnd, ← List.reverse_append, List.takeWhile_append_dropWhile, List.reverse_reverse]

theorem trimEnd_prefix (text : List Char) : trimEnd text <+: text := by
  obtain ⟨gap, -, hText⟩ := exists_trimEnd text
  exact ⟨gap, hText.symm⟩

/-- Trimming takes nothing but blanks from the two ends of a text. -/
theorem exists_trim (text : List Char) : ∃ indent gap, allBlank indent = true ∧
    allBlank gap = true ∧ text = indent ++ (trim text ++ gap) := by
  obtain ⟨gap, hGap, hRest⟩ := exists_trimEnd (text.dropWhile isBlank)
  refine ⟨text.takeWhile isBlank, gap, List.all_takeWhile, hGap, ?_⟩
  calc text = text.takeWhile isBlank ++ text.dropWhile isBlank :=
        List.takeWhile_append_dropWhile.symm
    _ = text.takeWhile isBlank ++ (trim text ++ gap) := congrArg _ hRest

/-- A trimmed text does not begin with a blank. -/
theorem not_isBlank_of_trim_eq_cons {c : Char} {text rest : List Char}
    (h : trim text = c :: rest) : isBlank c = false := by
  have hPrefix : trim text <+: text.dropWhile isBlank := trimEnd_prefix _
  rw [h] at hPrefix
  obtain ⟨more, hMore⟩ := hPrefix
  have hFirst := List.head?_dropWhile_not isBlank text
  rw [← hMore] at hFirst
  simpa using hFirst

theorem isEmpty_trim (text : List Char) : (trim text).isEmpty = allBlank text := by
  have hSame : allBlank (trim text) = allBlank text := by
    refine eq_of_trim (fun c text hBlank => ?_) (fun c text hBlank => ?_) text
    · simp [allBlank, hBlank]
    · simp [allBlank, hBlank]
  rw [← hSame]
  cases hTrim : trim text with
  | nil => rfl
  | cons c rest => simp [allBlank, not_isBlank_of_trim_eq_cons hTrim]

theorem trim_of_allBlank {text : List Char} (h : allBlank text = true) : trim text = [] := by
  rw [← List.isEmpty_iff, isEmpty_trim, h]

theorem dropWhile_append_cons {p : Char → Bool} {mark : Char} (h : p mark = false)
    (before behind : List Char) :
    (before ++ mark :: behind).dropWhile p = before.dropWhile p ++ mark :: behind := by
  induction before with
  | nil => simp [h]
  | cons c rest ih => by_cases hFirst : p c = true <;> simp [hFirst, ih]

/-- Trimming takes nothing from between two pieces of a text. -/
theorem trimEnd_append_cons {mark : Char} (h : isBlank mark = false) (before behind : List Char) :
    trimEnd (before ++ mark :: behind) = before ++ mark :: trimEnd behind := by
  rw [trimEnd, List.reverse_append, List.reverse_cons, List.append_assoc, List.singleton_append,
    dropWhile_append_cons h]
  simp [trimEnd]

theorem trim_append_cons {mark : Char} (h : isBlank mark = false) (before behind : List Char) :
    trim (before ++ mark :: behind) = before.dropWhile isBlank ++ mark :: trimEnd behind := by
  rw [trim, dropWhile_append_cons h]
  exact trimEnd_append_cons h (before.dropWhile isBlank) behind

/-! ## The first word of a text -/

section FirstWord

variable {word rest : List Char} (hWord : ∀ c ∈ word, isBlank c = false)
  (hRest : ∀ c ∈ rest.head?, isBlank c = true)

include hWord

theorem trimEnd_word_append (rest : List Char) : trimEnd (word ++ rest) = word ++ trimEnd rest := by
  induction word with
  | nil => rfl
  | cons c more ih =>
      have hFirst : trimEnd (c :: (more ++ rest)) = c :: trimEnd (more ++ rest) :=
        trimEnd_append_cons (hWord c List.mem_cons_self) [] (more ++ rest)
      rw [List.cons_append, hFirst, ih fun d hMem => hWord d (List.mem_cons_of_mem c hMem)]
      rfl

theorem trim_word_append (hNonempty : word ≠ []) (rest : List Char) :
    trim (word ++ rest) = word ++ trimEnd rest := by
  cases word with
  | nil => exact absurd rfl hNonempty
  | cons c more =>
      have hFirst : ¬isBlank c = true := by simp [hWord c List.mem_cons_self]
      rw [trim, List.cons_append, List.dropWhile_cons_of_neg hFirst]
      exact trimEnd_word_append hWord rest

include hRest

theorem takeWhile_word_append : (word ++ rest).takeWhile (fun c => !isBlank c) = word := by
  rw [List.takeWhile_append_of_pos fun c hMem => by rw [hWord c hMem]; rfl]
  cases rest with
  | nil => simp
  | cons c more => simp [hRest c rfl]

theorem dropWhile_word_append : (word ++ rest).dropWhile (fun c => !isBlank c) = rest := by
  rw [List.dropWhile_append_of_pos fun c hMem => by rw [hWord c hMem]; rfl]
  cases rest with
  | nil => rfl
  | cons c more => simp [hRest c rfl]

end FirstWord

end ControlUnit.Text
