import ControlUnit.Image
import ControlUnit.Proofs.Reassembly
import ControlUnit.Proofs.SubroutineTable

/-!
# Reading written images

Which programs survive being written as an image and read again (`Image.Storable`): those
that can be loaded, whose words have at most 24 bits, and whose subroutines have names that
stand for themselves between two blanks.  No other program comes out of reading, because an
image has no way to spell it, and none other comes out of assembling.

## Main results

* `Image.read_render` — a storable program is read back.
* `Image.storable_of_read`, `Image.storable_of_assemble` — what is read or assembled is
  storable.
* `Image.roundTrip` — the three together.
-/

namespace ControlUnit

namespace Text

/-! ## Parts of texts -/

variable {text : List Char}

theorem of_mem_splitOnP {p : Char → Bool} {piece : List Char} (h : piece ∈ text.splitOnP p) :
    ∀ c ∈ piece, p c = false ∧ c ∈ text := by
  induction text generalizing piece with
  | nil =>
      rw [List.splitOnP_nil, List.mem_singleton] at h
      subst h
      simp
  | cons first rest ih =>
      have hLater : piece ∈ rest.splitOnP p → ∀ c ∈ piece, p c = false ∧ c ∈ first :: rest :=
        fun hRest c hMem => ⟨(ih hRest c hMem).1, List.mem_cons_of_mem _ (ih hRest c hMem).2⟩
      rw [List.splitOnP_cons_eq_if_modifyHead] at h
      by_cases hFirst : p first = true
      · rw [if_pos hFirst, List.mem_cons] at h
        rcases h with rfl | hRest
        · simp
        · exact hLater hRest
      · rw [if_neg hFirst] at h
        cases hPieces : rest.splitOnP p with
        | nil => exact absurd hPieces (List.splitOnP_ne_nil p rest)
        | cons head tail =>
            rw [hPieces, List.modifyHead_cons, List.mem_cons] at h
            rcases h with rfl | hRest
            · intro c hMem
              rcases List.mem_cons.1 hMem with rfl | hMem
              · exact ⟨Bool.eq_false_iff.2 hFirst, by simp⟩
              · have hHead := ih (hPieces ▸ List.mem_cons_self) c hMem
                exact ⟨hHead.1, List.mem_cons_of_mem _ hHead.2⟩
            · exact hLater (hPieces ▸ List.mem_cons_of_mem _ hRest)

/-- A word is a part of its text that is not empty and holds no blank. -/
theorem of_mem_words {word : List Char} (h : word ∈ words text) :
    word ≠ [] ∧ ∀ c ∈ word, isBlank c = false ∧ c ∈ text := by
  obtain ⟨hMem, hNonempty⟩ := List.mem_filter.1 h
  exact ⟨by simpa using hNonempty, of_mem_splitOnP hMem⟩

theorem words_singleton (hNonempty : text ≠ []) (h : ∀ c ∈ text, isBlank c = false) :
    words text = [text] := by
  rw [words, List.splitOnP_eq_singleton h]
  simp [hNonempty]

theorem words_append {c : Char} (hNonempty : text ≠ []) (h : ∀ c ∈ text, isBlank c = false)
    (hBlank : isBlank c = true) (rest : List Char) :
    words (text ++ c :: rest) = text :: words rest := by
  rw [words, List.splitOnP_append_cons_of_forall_mem h c hBlank,
    List.filter_cons_of_pos (by simp [hNonempty]), words]

/-! ## Numbers of few digits -/

theorem lt_of_digitValue? {base digit : Nat} {c : Char} (h : digitValue? base c = some digit) :
    digit < base := by
  simp only [digitValue?, Option.ite_none_right_eq_some, Option.some.injEq] at h
  obtain ⟨hLess, rfl⟩ := h
  exact hLess

theorem lt_of_continue? {base value n : Nat} (h : continue? base value text = some n) :
    n < (value + 1) * Nat.pow base text.length := by
  induction text generalizing value with
  | nil =>
      cases h
      exact Nat.lt_of_lt_of_eq (Nat.lt_succ_self n) (Nat.mul_one _).symm
  | cons c rest ih =>
      rw [continue?] at h
      cases hDigit : digitValue? base c with
      | none => simp [hDigit] at h
      | some digit =>
          simp only [hDigit] at h
          have hLess := lt_of_digitValue? hDigit
          have hStep : base * value + digit + 1 ≤ (value + 1) * base := by
            rw [Nat.add_mul, Nat.one_mul, Nat.mul_comm]
            omega
          calc n < (base * value + digit + 1) * Nat.pow base rest.length := ih h
            _ ≤ (value + 1) * base * Nat.pow base rest.length := Nat.mul_le_mul_right _ hStep
            _ = (value + 1) * Nat.pow base (c :: rest).length := by
                rw [Nat.mul_assoc, Nat.mul_comm base]
                rfl

theorem lt_of_natural? {base n : Nat} (h : natural? base text = some n) :
    n < Nat.pow base text.length := by
  rw [natural?] at h
  split at h
  · cases h
  · have hLess := lt_of_continue? h
    rwa [Nat.zero_add, Nat.one_mul] at hLess

/-- A number that is read has as many digits as there are characters, at most. -/
theorem lt_of_unsigned? {base n : Nat} (hBase : 0 < base) (h : unsigned? base text = some n) :
    n < Nat.pow base text.length := by
  unfold unsigned? at h
  split at h
  · exact Nat.lt_of_lt_of_le (lt_of_natural? h) (Nat.pow_le_pow_right hBase (Nat.le_succ _))
  · exact lt_of_natural? h

theorem length_padded {base width n : Nat} (hBase : 1 < base) (hWidth : 0 < width)
    (h : n < Nat.pow base width) : (padded base width n).toList.length = width := by
  rw [padded, String.toList_ofList, List.leftpad, List.length_append, List.length_replicate]
  have hDigits := (Nat.length_toDigits_le_iff hBase hWidth).2 h
  omega

end Text

namespace Image

open Text

/-! ## What an image can spell -/

/-- A text that stands for itself between two blanks: it is not empty, and holds neither a
blank nor the mark of a comment. -/
structure Token (text : List Char) : Prop where
  ne_nil : text ≠ []
  notBlank : ∀ c ∈ text, isBlank c = false
  notComment : commentMark ∉ text

/-- A program that can be loaded, with words of 24 bits and names that stand for themselves. -/
structure Storable (program : Program) : Prop where
  check : program.check = .ok ()
  words : ∀ word ∈ program.words, word.toNat < 16777216
  names : ∀ subroutine ∈ program.subroutines, Token subroutine.name.toList

/-- A word of 24 bits, or a range whose name stands for itself. -/
def Entry.Storable : Entry → Prop
  | blank => True
  | word bits => bits.toNat < 16777216
  | subroutine range => Token range.name.toList

/-! ## Reading -/

theorem lt_of_word? {text : List Char} {bits : UInt32} (h : word? text = some bits) :
    bits.toNat < 16777216 := by
  rw [word?] at h
  split at h
  · rename_i hLength
    obtain ⟨n, hNumber, rfl⟩ := Option.map_eq_some_iff.1 h
    have hDigits : n < Nat.pow 16 text.length := lt_of_unsigned? (by decide) hNumber
    have hPower : Nat.pow 16 text.length ≤ Nat.pow 16 wordWidth :=
      Nat.pow_le_pow_right (by decide) hLength
    have hLess : n < 16777216 := Nat.lt_of_lt_of_le hDigits hPower
    rwa [UInt32.toNat_ofNat_of_lt' (Nat.lt_trans hLess (by decide))]
  · cases h

/-- A range has a word of its declaration as its name. -/
theorem mem_words_of_range {declaration : List Char} {found : Subroutine}
    (h : range declaration = .ok found) : found.name.toList ∈ Text.words declaration := by
  rw [range] at h
  split at h
  · rename_i name start stop hWords
    split at h
    · cases h
      rw [hWords, String.toList_ofList]
      exact List.mem_cons_self
    · cases h
    · cases h
  · cases h

/-- Every line says something that an image can spell. -/
theorem storable_of_entry {line : List Char} {found : Entry} (h : entry line = .ok found) :
    found.Storable := by
  have hComment : commentMark ∉ content line := not_mem_content
  unfold entry at h
  split at h
  · cases h
    trivial
  · rename_i declaration hContent
    obtain ⟨declared, hRange, rfl⟩ := Assembly.exists_of_map_eq_ok h
    obtain ⟨hNonempty, hEach⟩ := of_mem_words (mem_words_of_range hRange)
    rw [hContent] at hComment
    exact
      { ne_nil := hNonempty
        notBlank := fun c hMem => (hEach c hMem).1
        notComment := fun hMem => hComment (List.mem_cons_of_mem _ (hEach _ hMem).2) }
  · split at h
    · rename_i bits hWord
      cases h
      exact lt_of_word? hWord
    · cases h

theorem mem_words_ofEntries {found : List Entry} {word : UInt32} :
    word ∈ (ofEntries found).words ↔ .word word ∈ found := by
  rw [ofEntries, List.mem_filterMap]
  refine ⟨?_, fun h => ⟨_, h, rfl⟩⟩
  rintro ⟨said, hMem, hSaid⟩
  cases said with
  | blank => cases hSaid
  | word bits =>
      cases hSaid
      exact hMem
  | subroutine range => cases hSaid

theorem mem_subroutines_ofEntries {found : List Entry} {range : Subroutine} :
    range ∈ (ofEntries found).subroutines ↔ .subroutine range ∈ found := by
  rw [ofEntries, List.mem_filterMap]
  refine ⟨?_, fun h => ⟨_, h, rfl⟩⟩
  rintro ⟨said, hMem, hSaid⟩
  cases said with
  | blank => cases hSaid
  | word bits => cases hSaid
  | subroutine declared =>
      cases hSaid
      exact hMem

/-- Every program that is read is storable. -/
theorem storable_of_read {text : String} {program : Program} (h : read text = .ok program) :
    Storable program := by
  obtain ⟨found, hLines, rfl, hCheck⟩ := read_eq_ok_iff.1 h
  have hFound : ∀ said ∈ found, said.Storable := by
    intro said hMem
    obtain ⟨line, -, hEntry⟩ := Assembly.exists_of_map_eq_map_ok hLines hMem
    exact storable_of_entry hEntry
  exact
    { check := hCheck
      words := fun word hMem => hFound (.word word) (mem_words_ofEntries.1 hMem)
      names := fun range hMem => hFound (.subroutine range) (mem_subroutines_ofEntries.1 hMem) }

/-! ## Reading what was written -/

theorem entry_comment (comment : List Char) : entry (commentMark :: comment) = .ok .blank := by
  rw [entry, ← List.nil_append (commentMark :: comment), content_append_comment List.not_mem_nil]
  rfl

theorem address?_decimal (address : UInt16) :
    address? (decimal address.toNat).toList = some address := by
  have hRead : unsigned? 10 (decimal address.toNat).toList = some address.toNat :=
    unsigned?_of_natural? (natural?_padded (by decide) (by decide) 0 address.toNat)
  rw [address?, hRead]
  simp only [if_pos address.toNat_lt_size, UInt16.ofNat_toNat]

theorem toList_rangeText (range : Subroutine) :
    (rangeText range).toList = '@' :: (range.name.toList ++ ' ' ::
      ((decimal range.start.toNat).toList ++ ' ' :: (decimal range.stop.toNat).toList)) := by
  simp [rangeText, String.toList_append]

theorem toList_wordLine (address : Nat) (word : UInt32) :
    (wordLine address word).toList = (Listing.wordDigits (significant word)).toList ++ [' ']
      ++ commentMark :: ' ' :: (padded 10 3 address).toList := by
  simp [wordLine, String.toList_append, commentMark]

theorem range_declaration {range : Subroutine} (h : Token range.name.toList) :
    Image.range (range.name.toList ++ ' ' ::
      ((decimal range.start.toNat).toList ++ ' ' :: (decimal range.stop.toNat).toList))
        = .ok range := by
  have hStart := plain_decimal range.start.toNat
  have hStop := plain_decimal range.stop.toNat
  have hSpace : isBlank ' ' = true := by decide
  rw [Image.range, words_append h.ne_nil h.notBlank hSpace,
    words_append hStart.ne_nil hStart.notBlank hSpace, words_singleton hStop.ne_nil hStop.notBlank]
  simp only [address?_decimal, String.ofList_toList]

theorem entry_rangeText {range : Subroutine} (h : Token range.name.toList) :
    entry (rangeText range).toList = .ok (.subroutine range) := by
  have hStart := plain_decimal range.start.toNat
  have hStop := plain_decimal range.stop.toNat
  have hComment : commentMark ∉ (rangeText range).toList := by
    have hMarks : commentMark ≠ '@' ∧ commentMark ≠ ' ' := by decide
    have hFirst : commentMark ∉ (decimal range.start.toNat).toList := hStart.not_mem (by decide)
    have hSecond : commentMark ∉ (decimal range.stop.toNat).toList := hStop.not_mem (by decide)
    rw [toList_rangeText]
    simp [h.notComment, hFirst, hSecond, hMarks]
  have hTrim : trim (rangeText range).toList = (rangeText range).toList := by
    have hEnd : (rangeText range).toList = ('@' :: (range.name.toList ++ ' ' ::
        ((decimal range.start.toNat).toList ++ [' ']))) ++ (decimal range.stop.toNat).toList := by
      simp [toList_rangeText]
    rw [hEnd]
    apply trim_eq_self
    · rintro c ⟨⟩
      decide
    · intro c hLast
      rw [List.getLast?_append, Option.or_of_isSome (by simp [hStop.ne_nil])] at hLast
      exact hStop.notBlank c (List.mem_of_mem_getLast? hLast)
  rw [entry, content_of_not_mem hComment, hTrim, toList_rangeText]
  simp only [range_declaration h]
  rfl

theorem entry_of_word? {line text : List Char} {bits : UInt32} (hContent : content line = text)
    (hNonempty : text ≠ []) (hMark : '@' ∉ text) (hWord : word? text = some bits) :
    entry line = .ok (.word bits) := by
  unfold entry
  split
  · rename_i hNil
    exact absurd (hContent.symm.trans hNil) hNonempty
  · rename_i declaration hDeclaration
    rw [← hContent, hDeclaration] at hMark
    exact absurd List.mem_cons_self hMark
  · rw [hContent, hWord]

theorem word?_wordDigits {word : UInt32} (h : word.toNat < 16777216) :
    word? (Listing.wordDigits word).toList = some word := by
  have hLength : (Listing.wordDigits word).toList.length = wordWidth :=
    length_padded (by decide) (by decide) h
  have hRead : unsigned? 16 (Listing.wordDigits word).toList = some word.toNat :=
    unsigned?_of_natural? (natural?_padded (by decide) (by decide) 6 word.toNat)
  rw [word?, if_pos (Nat.le_of_eq hLength), hRead, Option.map_some, UInt32.ofNat_toNat]

theorem entry_wordLine (address : Nat) {word : UInt32} (h : word.toNat < 16777216) :
    entry (wordLine address word).toList = .ok (.word word) := by
  have hDigits := Listing.plain_wordDigits word
  have hComment : commentMark ∉ (Listing.wordDigits word).toList ++ [' '] := by
    have hMark : commentMark ≠ ' ' := by decide
    have hNotMem : commentMark ∉ (Listing.wordDigits word).toList := hDigits.not_mem (by decide)
    simp [hNotMem, hMark]
  have hContent : content (wordLine address word).toList = (Listing.wordDigits word).toList := by
    rw [toList_wordLine, significant_eq_self h, content_append_comment hComment,
      trim_append_of_isBlank (by decide), hDigits.trim]
  have hMark : '@' ∉ (Listing.wordDigits word).toList :=
    not_mem_of_natural? (natural?_padded (by decide) (by decide) 6 word.toNat) (by decide)
  exact entry_of_word? hContent hDigits.ne_nil hMark (word?_wordDigits h)

/-- No line of an image breaks in two. -/
theorem lineFeed_not_mem_imageLines {program : Program} (h : Storable program) :
    ∀ line ∈ imageLines program, '\n' ∉ line.toList := by
  have hDecimal (n : Nat) : '\n' ∉ (decimal n).toList :=
    lineFeed_not_mem (plain_decimal n).notBlank
  intro line hMem
  simp only [imageLines, List.mem_append, List.mem_cons, List.not_mem_nil, or_false,
    List.mem_map] at hMem
  rcases hMem with (((rfl | rfl) | ⟨subroutine, hSubroutine, rfl⟩) | rfl) | ⟨cell, -, rfl⟩
  · decide
  · simp [String.toList_append, hDecimal]
  · have hName := lineFeed_not_mem (h.names subroutine hSubroutine).notBlank
    simp [toList_rangeText, hName, hDecimal]
  · decide
  · have hDigits := Listing.plain_wordDigits (significant cell.1)
    have hAddress : Plain (padded 10 3 cell.2).toList := plain_padded (by decide) (by decide) 3 _
    simp [toList_wordLine, commentMark, lineFeed_not_mem hDigits.notBlank,
      lineFeed_not_mem hAddress.notBlank]

/-- What the lines of an image say. -/
def spelled (program : Program) : List Entry :=
  [.blank, .blank] ++ program.subroutines.map .subroutine ++ [.blank] ++ program.words.map .word

theorem ofEntries_spelled (program : Program) : ofEntries (spelled program) = program := by
  have hBlank : Entry.word? .blank = none := rfl
  have hBlank? : Entry.subroutine? .blank = none := rfl
  have hWords : program.words.filterMap (Entry.word? ∘ Entry.word) = program.words :=
    List.filterMap_some
  have hRanges : program.subroutines.filterMap (Entry.subroutine? ∘ Entry.subroutine)
      = program.subroutines := List.filterMap_some
  have hNoWords : program.subroutines.filterMap (Entry.word? ∘ Entry.subroutine) = [] :=
    List.filterMap_eq_nil_iff.2 fun _ _ => rfl
  have hNoRanges : program.words.filterMap (Entry.subroutine? ∘ Entry.word) = [] :=
    List.filterMap_eq_nil_iff.2 fun _ _ => rfl
  simp only [ofEntries, spelled, List.filterMap_append, List.filterMap_map, hWords, hRanges,
    hNoWords, hNoRanges, List.filterMap_cons_none hBlank, List.filterMap_cons_none hBlank?,
    List.filterMap_nil, List.nil_append, List.append_nil]

/-- Every line of the image of a storable program says what it was written for. -/
theorem entry_imageLines {program : Program} (h : Storable program) :
    (imageLines program).map (fun line => entry line.toList) = (spelled program).map .ok := by
  have hTitle : entry ("; cu8 program image" : String).toList = .ok .blank :=
    entry_comment (" cu8 program image" : String).toList
  have hSize : entry ("; " ++ decimal program.size ++ " words").toList = .ok .blank := by
    have hMark : ("; " : String).toList = [commentMark, ' '] := rfl
    rw [String.toList_append, String.toList_append, hMark, List.cons_append, List.cons_append]
    exact entry_comment _
  have hEmpty : entry ("" : String).toList = .ok .blank := rfl
  have hRanges : program.subroutines.map (fun range => entry (rangeText range).toList)
      = program.subroutines.map fun range => .ok (.subroutine range) :=
    List.map_congr_left fun range hMem => entry_rangeText (h.names range hMem)
  have hWords : program.words.zipIdx.map (fun cell => entry (wordLine cell.2 cell.1).toList)
      = program.words.map fun word => .ok (.word word) := by
    have hCells : program.words.zipIdx.map (fun cell => entry (wordLine cell.2 cell.1).toList)
        = program.words.zipIdx.map fun cell => .ok (.word cell.1) :=
      List.map_congr_left fun cell hMem =>
        entry_wordLine cell.2 (h.words cell.1 (List.fst_mem_of_mem_zipIdx hMem))
    rw [hCells]
    conv => rhs; rw [← List.zipIdx_map_fst 0 program.words, List.map_map]
    rfl
  simp only [imageLines, spelled, List.map_append, List.map_map, List.map_cons, List.map_nil,
    Function.comp_def, hTitle, hSize, hEmpty, hRanges, hWords]

/-- A storable program is read back. -/
theorem read_render {program : Program} (h : Storable program) :
    read (render program) = .ok program := by
  refine read_eq_ok_iff.2 ⟨spelled program, ?_, (ofEntries_spelled program).symm, h.check⟩
  rw [render, lines_ofLines (lineFeed_not_mem_imageLines h), List.map_map, ← entry_imageLines h]
  rfl

/-! ## What is assembled -/

open Assembly

/-- A name stands for itself. -/
theorem token_of_isName {text : List Char} (h : isName text = true) : Token text where
  ne_nil := (plain_of_isName h).ne_nil
  notBlank := (plain_of_isName h).notBlank
  notComment := (plain_of_isName h).not_mem (by decide)

/-- Every line emits words of 24 bits. -/
theorem lt_of_emits {symbols : Symbols} {address : Nat} {statement? : Option Statement}
    {emitted : List UInt32} (h : Emits symbols address statement? emitted) :
    ∀ word ∈ emitted, word.toNat < 16777216 := by
  cases h with
  | nothing => simp
  | constant hValue hName => simp
  | origin hValue hOrigin =>
      intro word hMem
      rw [List.eq_of_mem_replicate hMem]
      decide
  | word hValue hWord hRange =>
      intro word hMem
      rw [List.mem_singleton.1 hMem]
      exact Nat.lt_of_le_of_lt hRange (by decide)
  | @instruction opcode operands first second hCount hFirst hSecond =>
      intro word hMem
      rw [List.mem_singleton.1 hMem]
      exact Fields.toNat_join_lt ⟨opcode.code, first, second⟩

/-- Every program that is assembled is storable. -/
theorem storable_of_assemble {source : String} {program : Program}
    (h : assemble source = .ok program) : Storable program := by
  obtain ⟨emissions, layout, hLines, hLaid, hEncode, hTable, hCheck⟩ :=
    exists_laid_of_assemble h
  have hResolves := hLaid.resolves hLines hEncode (Program.check_eq_ok_iff.1 hCheck).1
  refine { check := hCheck, words := ?_, names := ?_ }
  · intro word hWord
    rw [hResolves.words] at hWord
    obtain ⟨emission, hMem, hEmitted⟩ := List.mem_flatMap.1 hWord
    obtain ⟨before, after, hSplit⟩ := List.append_of_mem hMem
    exact lt_of_emits (hResolves.resolution.resolved _ _ _ hSplit).words word hEmitted
  · intro subroutine hSubroutine
    rw [hTable] at hSubroutine
    have hRead := wellFormed_of_map_ofText hLines
    exact token_of_isName (hLaid.isName_of_mem_subroutines hRead subroutine hSubroutine)

/-! ## Round trips -/

/-- **Images spell exactly the storable programs**: a program is read back from its image if
and only if it is storable, and every program that is assembled or read from some text is. -/
theorem roundTrip :
    (∀ program, read (render program) = .ok program ↔ Storable program) ∧
    (∀ source program, assemble source = .ok program →
      Storable program ∧ read (render program) = .ok program) ∧
    ∀ text program, read text = .ok program →
      Storable program ∧ read (render program) = .ok program := by
  refine ⟨fun program => ⟨storable_of_read, read_render⟩, ?_, ?_⟩
  · intro source program h
    exact ⟨storable_of_assemble h, read_render (storable_of_assemble h)⟩
  · intro text program h
    exact ⟨storable_of_read h, read_render (storable_of_read h)⟩

/-- The mark of a comment in a name would hide the ends of its range. -/
example : ¬Storable { words := [0], subroutines := [⟨"a;b", 0, 1⟩] } := fun h =>
  (h.names _ List.mem_cons_self).notComment (by decide)

/-- An image with a comment, a sign and a short word. -/
def handwrittenImage : String := "@main 0 2 ; all of it\n +10F07\n\n7\n"

def handwrittenProgram : Program where
  words := [0x010F07, 7]
  subroutines := [⟨"main", 0, 2⟩]

theorem roundTrip_samples :
    assemble forwardSource = .ok forwardProgram ∧
    read (render forwardProgram) = .ok forwardProgram ∧
    read handwrittenImage = .ok handwrittenProgram ∧
    read (render handwrittenProgram) = .ok handwrittenProgram := by
  have hRead : read handwrittenImage = .ok handwrittenProgram := rfl
  exact ⟨assemble_forwardSource, (roundTrip.2.1 _ _ assemble_forwardSource).2, hRead,
    (roundTrip.2.2 _ _ hRead).2⟩

end Image

end ControlUnit
