import ControlUnit.Proofs.ImageRoundTrip
import ControlUnit.Proofs.LabelLine
import ControlUnit.Proofs.SourceText
import Mathlib.Data.List.Basic

/-!
# Reassembling listings

What becomes of the listing of a program that is assembled again, once the addresses in front
of its words are taken away.

The rows of a listing are laid out one by one.  A remark and a blank line do nothing, the line
of a word places an item that stands for the word, whatever the labels are called, and a label
opens its range again (`Rebuilt`).  As every subroutine of an assembled program begins behind
the one before it, the label rows are those of the table, in order and at the same addresses,
and the ranges between them are the table again.

## Main results

* `Assembly.Rebuilt.row`, `Assembly.Rebuilt.rows` — what the rows of a listing do to a layout.
* `Listing.rowOpenings_rows` — where the labels of a listing stand.
* `Assembly.Layout.ranges_openings` — the ranges of a table that covers its program.
* `assemble_bareListing` — assembling a listing without its addresses.
-/

namespace ControlUnit

open Assembly Text

/-! ## Listings without addresses -/

namespace Listing

/-- A line of a listing without the address in front of it: three digits, a colon, a space. -/
def withoutAddress : List Char → List Char
  | first :: second :: third :: ':' :: ' ' :: rest =>
    if first.isDigit && second.isDigit && third.isDigit then rest
    else first :: second :: third :: ':' :: ' ' :: rest
  | line => line

theorem withoutAddress_of_not_digit {line : List Char} (h : beginsWithDigit line = false) :
    withoutAddress line = line := by
  unfold withoutAddress
  split
  · rename_i first second third rest
    rw [beginsWithDigit] at h
    rw [h]
    rfl
  · rfl

theorem mem_of_mem_withoutAddress {line : List Char} {c : Char} (h : c ∈ withoutAddress line) :
    c ∈ line := by
  unfold withoutAddress at h
  split at h
  · split at h
    · simp [h]
    · exact h
  · exact h

/-- The address of a word is taken away. -/
theorem withoutAddress_padded {address : Nat} (h : address < 1000) (rest : List Char) :
    withoutAddress ((padded 10 3 address).toList ++ ':' :: ' ' :: rest) = rest := by
  have hLength : (padded 10 3 address).toList.length = 3 :=
    length_padded (by decide) (by decide) h
  obtain ⟨first, second, third, hDigits⟩ := List.length_eq_three.1 hLength
  have hEach : ∀ c ∈ (padded 10 3 address).toList, c.isDigit = true := isDigit_of_mem_padded
  rw [hDigits] at hEach ⊢
  have hAll : (first.isDigit && second.isDigit && third.isDigit) = true := by
    rw [hEach first (by simp), hEach second (by simp), hEach third (by simp)]
    rfl
  exact if_pos hAll

/-- The lines of a row without its address. -/
def Row.bareLines : Row → List (List Char)
  | remark text => [("; " ++ text).toList]
  | label name => [[], (name ++ ":").toList]
  | word _ bits => [(flushLeft 20 (wordText bits) ++ " ; " ++ wordDigits bits).toList]

/-- A row of the listing of a program whose words have known opcodes. -/
def Row.Sound : Row → Prop
  | remark text => '\n' ∉ text.toList
  | label name => isName name.toList = true
  | word address bits =>
    address < 1000 ∧ (Fields.split bits).opcode ≤ 0x0B ∧ bits.toNat < 16777216

/-- The words of a row. -/
def Row.words : Row → List UInt32
  | remark _ => []
  | label _ => []
  | word _ bits => [bits]

/-- What a row opens at an address. -/
def Row.openings (address : Nat) : Row → List (String × Nat)
  | remark _ => []
  | label name => [(name, address)]
  | word _ _ => []

/-- What rows open, the first of them at an address. -/
def rowOpenings (address : Nat) : List Row → List (String × Nat)
  | [] => []
  | row :: rest => row.openings address ++ rowOpenings (address + row.words.length) rest

theorem toList_flushLeft (width : Nat) (text : String) :
    (flushLeft width text).toList
      = text.toList ++ List.replicate (width - text.toList.length) ' ' := by
  rw [flushLeft, String.toList_ofList, List.rightpad]

theorem toList_bareWord (bits : UInt32) :
    (flushLeft 20 (wordText bits) ++ " ; " ++ wordDigits bits).toList
      = (wordText bits).toList ++ List.replicate (20 - (wordText bits).toList.length) ' ' ++ [' ']
        ++ commentMark :: ' ' :: (wordDigits bits).toList := by
  simp [toList_flushLeft, commentMark]

/-- Taking the addresses away leaves the rest of a row. -/
theorem Row.Sound.map_withoutAddress {row : Row} (h : row.Sound) :
    row.lines.map (fun line => withoutAddress line.toList) = row.bareLines := by
  cases row with
  | remark text =>
      have hMark : beginsWithDigit ("; " ++ text).toList = false := by
        rw [String.toList_append]
        rfl
      rw [lines, List.map_singleton, withoutAddress_of_not_digit hMark, bareLines]
  | label name =>
      have hName : beginsWithDigit (name ++ ":").toList = false := by
        have hPlain := plain_of_isName h
        have hDigit := beginsWithDigit_of_isName h
        rw [String.toList_append]
        cases hText : name.toList with
        | nil => exact absurd hText hPlain.ne_nil
        | cons c rest => rwa [hText] at hDigit
      rw [lines, List.map_cons, List.map_singleton, withoutAddress_of_not_digit hName, bareLines]
      rfl
  | word address bits =>
      have hLine : (padded 10 3 address ++ ": " ++ flushLeft 20 (wordText bits) ++ " ; "
          ++ wordDigits bits).toList = (padded 10 3 address).toList ++ ':' :: ' '
            :: (flushLeft 20 (wordText bits) ++ " ; " ++ wordDigits bits).toList := by
        simp
      rw [lines, List.map_singleton, hLine, withoutAddress_padded h.1, bareLines]

theorem Row.Sound.lineFeed_not_mem {row : Row} (h : row.Sound) :
    ∀ line ∈ row.lines, '\n' ∉ line.toList := by
  cases row with
  | remark text =>
      have hText : '\n' ∉ text.toList := h
      simp [lines, hText]
  | label name =>
      have hName := Text.lineFeed_not_mem (plain_of_isName h).notBlank
      simp [lines, hName]
  | word address bits =>
      have hAddress : Plain (padded 10 3 address).toList :=
        plain_padded (by decide) (by decide) 3 address
      simp [lines, toList_flushLeft, Text.lineFeed_not_mem hAddress.notBlank,
        lineFeed_not_mem_wordText, Text.lineFeed_not_mem (plain_wordDigits bits).notBlank]

/-- A text without the addresses in front of its lines; everything else stays. -/
def withoutAddresses (text : String) : String :=
  ofLines ((lines text.toList).map fun line => String.ofList (withoutAddress line))

/-- Taking the addresses away leaves the rest of all rows. -/
theorem lines_withoutAddresses {rows : List Row} (h : ∀ row ∈ rows, row.Sound) :
    lines (withoutAddresses (ofLines (rows.flatMap Row.lines))).toList
      = rows.flatMap Row.bareLines := by
  have hListed : ∀ line ∈ rows.flatMap Row.lines, '\n' ∉ line.toList := by
    intro line hMem
    obtain ⟨row, hRow, hLine⟩ := List.mem_flatMap.1 hMem
    exact (h row hRow).lineFeed_not_mem line hLine
  have hBare : ∀ line ∈ (rows.flatMap Row.lines).map
      (fun line => String.ofList (withoutAddress line.toList)), '\n' ∉ line.toList := by
    intro line hMem
    obtain ⟨listed, hLine, rfl⟩ := List.mem_map.1 hMem
    rw [String.toList_ofList]
    exact fun hFeed => hListed listed hLine (mem_of_mem_withoutAddress hFeed)
  have hRows : rows.flatMap Row.bareLines
      = rows.flatMap fun row => row.lines.map fun line => withoutAddress line.toList :=
    List.flatMap_congr fun row hRow => (h row hRow).map_withoutAddress.symm
  rw [withoutAddresses, lines_ofLines hListed, List.map_map, Function.comp_def,
    lines_ofLines hBare, List.map_map, hRows, ← List.map_flatMap]
  simp only [Function.comp_def, String.toList_ofList]

end Listing

/-- The listing of a program without the addresses in front of its words. -/
def Program.bareListing (program : Program) : String := Listing.withoutAddresses program.listing

namespace Assembly

/-! ## Lines of labels -/

/-- The line of a label gives a new name the next address and opens a subroutine there. -/
theorem Layout.line_label {layout : Layout} {name : String} (hName : isName name.toList = true)
    (hNew : name ∉ layout.symbols.names) (number : Nat) :
    ∃ symbols, layout.symbols.define name layout.address.toInt64 = .ok symbols ∧
      layout.line number (name ++ ":").toList
        = .ok { layout with
            symbols := symbols
            openings := layout.openings ++ [(name, layout.address)] } := by
  have hDefine : layout.symbols.define name layout.address.toInt64
      = .ok ⟨(name, layout.address.toInt64) :: layout.symbols.entries⟩ := by
    rw [Symbols.define, Symbols.value?_eq_none_iff.2 hNew]
  have hText : (name ++ ":").toList = labelLine [] ⟨name, false⟩ [] [] := by
    rw [labelLine, Label.written, List.nil_append, List.append_nil]
    exact String.toList_append
  obtain ⟨text, hLine, hLabel⟩ := @sourceLine_labelLine [] [] ⟨name, false⟩ rfl rfl hName []
  refine ⟨_, hDefine, ?_⟩
  simp only [line, hText, hLine, placeLabel?, hLabel, placeLabel, define, hDefine]
  rfl

/-! ## Rebuilding a layout -/

open Listing (Row rowOpenings)

/-- The layout holds items that stand for the words, and the openings, each of which has its
name in the table. -/
structure Rebuilt (words : List UInt32) (openings : List (String × Nat)) (layout : Layout) :
    Prop where
  items : ∀ symbols : Symbols, symbols.NameIo → encodeAll symbols layout.items = .ok words
  openings_eq : layout.openings = openings
  names_eq : layout.symbols.names = (openings.map Prod.fst).reverse ++ Symbols.builtin.names
  extends_builtin : layout.symbols.Extends Symbols.builtin

theorem Symbols.NameIo.of_extends {extended symbols : Symbols} (h : extended.Extends symbols)
    (hSymbols : symbols.NameIo) : extended.NameIo :=
  fun named hMem => h _ _ (hSymbols named hMem)

theorem encodeAll_append {symbols : Symbols} {first second : List Item} {words more : List UInt32}
    (hFirst : encodeAll symbols first = .ok words) (hSecond : encodeAll symbols second = .ok more) :
    encodeAll symbols (first ++ second) = .ok (words ++ more) := by
  induction first generalizing words with
  | nil =>
      cases hFirst
      exact hSecond
  | cons item rest ih =>
      rw [encodeAll] at hFirst
      rw [List.cons_append, encodeAll]
      cases hWord : item.encode symbols with
      | error reason => simp [hWord] at hFirst
      | ok word =>
          cases hRest : encodeAll symbols rest with
          | error reason => simp [hWord, hRest] at hFirst
          | ok others =>
              simp only [hWord, hRest, Except.ok.injEq] at hFirst
              subst hFirst
              simp only [ih hRest]
              rfl

theorem trim_append_spaces (text : List Char) (count : Nat) :
    trim (text ++ List.replicate count ' ') = trim text := by
  have hBlank : allBlank (List.replicate count ' ') = true := by
    have hSpace : isBlank ' ' = true := by decide
    simp [allBlank, hSpace]
  exact @trim_between [] _ rfl hBlank text

/-- The line of a word says what the word is listed as; its column and its comment do not
matter. -/
theorem content_bareWord (bits : UInt32) :
    content (flushLeft 20 (Listing.wordText bits) ++ " ; " ++ Listing.wordDigits bits).toList
      = content (Listing.wordText bits).toList := by
  obtain ⟨sentence, hText⟩ := Listing.exists_sentence_wordText bits
  have hComment : commentMark ∉ (Listing.wordText bits).toList := by
    rw [hText]
    exact sentence.not_mem_text (by decide) (by decide) (by decide)
  have hPadded : commentMark ∉ (Listing.wordText bits).toList
      ++ List.replicate (20 - (Listing.wordText bits).toList.length) ' ' ++ [' '] := by
    have hSpace : commentMark ≠ ' ' := by decide
    simp [hComment, hSpace]
  rw [Listing.toList_bareWord, content_append_comment hPadded, trim_append_of_isBlank (by decide),
    trim_append_spaces, content_of_not_mem hComment]

theorem Rebuilt.start : Rebuilt [] [] {} where
  items _ _ := rfl
  openings_eq := rfl
  names_eq := rfl
  extends_builtin := .refl _

namespace Rebuilt

variable {words : List UInt32} {openings : List (String × Nat)} {layout : Layout}

theorem address_eq (h : Rebuilt words openings layout) : layout.address = words.length := by
  have hWords := h.items .builtin Symbols.nameIo_builtin
  rw [Layout.address, length_of_encodeAll hWords]

theorem word (h : Rebuilt words openings layout) {bits : UInt32} {item : Item}
    (hItem : item.StandsFor bits) : Rebuilt (words ++ [bits]) openings (layout.placeItem item) where
  items symbols hSymbols := by
    have hWord : encodeAll symbols [item] = .ok [bits] := by
      simp only [encodeAll, hItem symbols hSymbols]
    exact encodeAll_append (h.items symbols hSymbols) hWord
  openings_eq := h.openings_eq
  names_eq := h.names_eq
  extends_builtin := h.extends_builtin

theorem label (h : Rebuilt words openings layout) {name : String} {symbols : Symbols}
    (hDefine : layout.symbols.define name layout.address.toInt64 = .ok symbols) :
    Rebuilt words (openings ++ [(name, words.length)])
      { layout with
        symbols := symbols
        openings := layout.openings ++ [(name, layout.address)] } where
  items := h.items
  openings_eq := by rw [h.openings_eq, h.address_eq]
  names_eq := by
    rw [(Symbols.names_define hDefine).2, h.names_eq, List.map_append, List.reverse_append]
    rfl
  extends_builtin := (Symbols.extends_define hDefine).trans h.extends_builtin

/-! ### Rows -/

/-- A name that comes only once is not in the table yet. -/
theorem not_mem_names (h : Rebuilt words openings layout) {more rest : List (String × Nat)}
    (hNames : ((openings ++ (more ++ rest)).map Prod.fst ++ Symbols.builtin.names).Nodup) :
    ∀ opening ∈ more, opening.1 ∉ layout.symbols.names := by
  intro opening hMem hName
  have hOpened : opening.1 ∈ (more ++ rest).map Prod.fst :=
    List.mem_map_of_mem (List.mem_append_left _ hMem)
  rw [h.names_eq, List.mem_append, List.mem_reverse] at hName
  rw [List.map_append, List.append_assoc] at hNames
  rcases hName with hEarlier | hBuiltin
  · exact (List.nodup_append.1 hNames).2.2 _ hEarlier _ (List.mem_append_left _ hOpened) rfl
  · have hLater := (List.nodup_append.1 hNames).2.1
    exact (List.nodup_append.1 hLater).2.2 _ hOpened _ hBuiltin rfl

/-- Each row of a listing adds its word or its opening. -/
theorem row (h : Rebuilt words openings layout) {row : Row} (hSound : row.Sound)
    (hNew : ∀ opening ∈ row.openings words.length, opening.1 ∉ layout.symbols.names)
    (start : Nat) :
    ∃ next, layout.lines (row.bareLines.zipIdx start) = .ok next ∧
      Rebuilt (words ++ row.words) (openings ++ row.openings words.length) next := by
  cases row with
  | remark text =>
      have hBlank : content ("; " ++ text).toList = [] := by
        rw [String.toList_append]
        exact content_append_comment List.not_mem_nil _
      refine ⟨layout, ?_, by simpa [Row.words, Row.openings] using h⟩
      simp only [Row.bareLines, List.zipIdx_cons, List.zipIdx_nil, Layout.lines,
        Layout.line_of_blank hBlank]
  | label name =>
      obtain ⟨symbols, hDefine, hLine⟩ :=
        Layout.line_label hSound (hNew (name, words.length) List.mem_cons_self) (start + 1)
      have hBlank : content [] = [] := rfl
      refine ⟨_, ?_, by simpa [Row.words, Row.openings] using h.label hDefine⟩
      simp only [Row.bareLines, List.zipIdx_cons, List.zipIdx_nil, Layout.lines,
        Layout.line_of_blank hBlank, hLine]
  | word address bits =>
      obtain ⟨-, hKnown, hBits⟩ := hSound
      obtain ⟨item, hItem, hLine⟩ := Layout.line_of_known hKnown start
      rw [significant_eq_self hBits] at hItem
      refine ⟨layout.placeItem item, ?_, by simpa [Row.words, Row.openings] using h.word hItem⟩
      simp only [Row.bareLines, List.zipIdx_cons, List.zipIdx_nil, Layout.lines,
        Layout.line_congr (content_bareWord bits), hLine]

/-- The rows of a listing add their words and their openings, if no name comes twice. -/
theorem rows (h : Rebuilt words openings layout) {rows : List Row}
    (hSound : ∀ row ∈ rows, row.Sound)
    (hNames : ((openings ++ rowOpenings words.length rows).map Prod.fst
      ++ Symbols.builtin.names).Nodup) (start : Nat) :
    ∃ next, layout.lines ((rows.flatMap Row.bareLines).zipIdx start) = .ok next ∧
      Rebuilt (words ++ rows.flatMap Row.words) (openings ++ rowOpenings words.length rows)
        next := by
  induction rows generalizing words openings layout start with
  | nil => exact ⟨layout, rfl, by simpa [rowOpenings] using h⟩
  | cons row rest ih =>
      obtain ⟨middle, hRow, hMiddle⟩ :=
        h.row (hSound row List.mem_cons_self) (h.not_mem_names hNames) start
      have hLength : (words ++ row.words).length = words.length + row.words.length :=
        List.length_append
      rw [rowOpenings, ← List.append_assoc, ← hLength] at hNames
      obtain ⟨next, hRest, hNext⟩ := ih hMiddle
        (fun other hMem => hSound other (List.mem_cons_of_mem _ hMem)) hNames
        (start + row.bareLines.length)
      refine ⟨next, ?_, ?_⟩
      · rw [List.flatMap_cons, List.zipIdx_append, Layout.lines_append hRow, hRest]
      · rwa [List.flatMap_cons, rowOpenings, ← List.append_assoc, ← List.append_assoc, ← hLength]

end Rebuilt

end Assembly

/-! ## The rows of a program -/

def Subroutine.opening (subroutine : Subroutine) : String × Nat :=
  (subroutine.name, subroutine.start.toNat)

namespace Listing

/-- The rows of a word at an address, with the label that stands before it. -/
def cellRows (table : List Subroutine) (cell : UInt32 × Nat) : List Row :=
  labelAt table cell.2 ++ [.word cell.2 cell.1]

theorem words_labelAt (table : List Subroutine) (address : Nat) :
    (labelAt table address).flatMap Row.words = [] := by
  rw [labelAt]
  split <;> rfl

theorem words_rows (program : Program) : (rows program).flatMap Row.words = program.words := by
  have hCells : ∀ (words : List UInt32) (start : Nat),
      ((words.zipIdx start).flatMap (cellRows program.subroutines)).flatMap Row.words = words := by
    intro words
    induction words with
    | nil => intro start; rfl
    | cons word rest ih =>
        intro start
        rw [List.zipIdx_cons, List.flatMap_cons, List.flatMap_append, ih, cellRows,
          List.flatMap_append, words_labelAt]
        rfl
  exact hCells program.words 0

theorem rowOpenings_append (address : Nat) (first second : List Row) :
    rowOpenings address (first ++ second)
      = rowOpenings address first
        ++ rowOpenings (address + (first.flatMap Row.words).length) second := by
  induction first generalizing address with
  | nil => rfl
  | cons row rest ih =>
      rw [List.cons_append, rowOpenings, ih, rowOpenings, List.append_assoc, List.flatMap_cons,
        List.length_append, Nat.add_assoc]

theorem labelAt_self (subroutine : Subroutine) (rest : List Subroutine) :
    labelAt (subroutine :: rest) subroutine.start.toNat = [.label subroutine.name] := by
  rw [labelAt, List.find?_cons_of_pos (by simp)]

theorem labelAt_cons_of_ne {subroutine : Subroutine} {address : Nat}
    (h : subroutine.start.toNat ≠ address) (rest : List Subroutine) :
    labelAt (subroutine :: rest) address = labelAt rest address := by
  rw [labelAt, List.find?_cons_of_neg (by simpa using h), labelAt]

theorem labelAt_eq_nil {table : List Subroutine} {address : Nat}
    (h : ∀ subroutine ∈ table, subroutine.start.toNat ≠ address) : labelAt table address = [] := by
  have hNone : (table.find? fun subroutine => subroutine.start.toNat == address) = none := by
    rw [List.find?_eq_none]
    intro subroutine hMem
    simpa using h subroutine hMem
  rw [labelAt, hNone]

theorem rowOpenings_cellRows (table : List Subroutine) (word : UInt32) (address : Nat) :
    rowOpenings address (cellRows table (word, address))
      = rowOpenings address (labelAt table address) := by
  rw [cellRows, labelAt]
  split <;> rfl

/-- Labels stand at the addresses where the ranges of a table begin. -/
theorem rowOpenings_cells {table rest : List Subroutine} {stop start address : Nat}
    {words : List UInt32} (hTiles : Tiles stop start rest) (hStart : address ≤ start)
    (hStop : address + words.length = stop)
    (hLabels : ∀ later, address ≤ later → labelAt table later = labelAt rest later) :
    rowOpenings address ((words.zipIdx address).flatMap (cellRows table))
      = rest.map Subroutine.opening := by
  induction words generalizing address start rest with
  | nil =>
      have hEnd : stop ≤ start := by
        rw [← hStop]
        exact hStart
      cases hTiles with
      | done => rfl
      | range hNonempty hRest =>
          have hLess := Nat.lt_of_lt_of_le (UInt16.lt_iff_toNat_lt.1 hNonempty) hRest.start_le_stop
          omega
  | cons word more ih =>
      have hMore : address + 1 + more.length = stop := by
        rw [← hStop, List.length_cons]
        omega
      have hCell : ((cellRows table (word, address)).flatMap Row.words).length = 1 := by
        rw [cellRows, List.flatMap_append, words_labelAt]
        rfl
      rw [List.zipIdx_cons, List.flatMap_cons, rowOpenings_append, hCell, rowOpenings_cellRows,
        hLabels address (Nat.le_refl _)]
      rcases Nat.lt_or_eq_of_le hStart with hBefore | rfl
      · have hNone : labelAt rest address = [] := by
          refine labelAt_eq_nil fun subroutine hMem => ?_
          have hBehind := (hTiles.bounds subroutine hMem).1
          omega
        rw [hNone, ih hTiles hBefore hMore fun later hLater => hLabels later (by omega)]
        rfl
      · cases hTiles with
        | done => simp at hStop
        | @range subroutine rest hNonempty hRest =>
            have hNext : subroutine.start.toNat + 1 ≤ subroutine.stop.toNat := hNonempty
            rw [labelAt_self, ih hRest hNext hMore]
            · rfl
            · intro later hLater
              rw [hLabels later (by omega), labelAt_cons_of_ne (by omega)]

end Listing

namespace Assembly

/-! ## Ranges of a table -/

theorem Tiles.nextAddress_openings {stop start : Nat} {table : List Subroutine}
    (h : Tiles stop start table) :
    Layout.nextAddress stop (table.map Subroutine.opening) = start := by
  cases h <;> rfl

/-- The openings of a table that covers its program begin its ranges. -/
theorem Layout.ranges_openings {stop start : Nat} {table : List Subroutine}
    (h : Tiles stop start table) : ranges stop (table.map Subroutine.opening) = table := by
  induction h with
  | done => rfl
  | @range subroutine rest hNonempty hRest ih =>
      have hRange : rangeOf stop subroutine.name subroutine.start.toNat
          (rest.map Subroutine.opening) = subroutine := by
        rw [rangeOf, hRest.nextAddress_openings, Nat.toUInt16_eq, Nat.toUInt16_eq,
          UInt16.ofNat_toNat, UInt16.ofNat_toNat]
      rw [List.map_cons, Subroutine.opening, ranges_cons, hRest.nextAddress_openings,
        if_pos (UInt16.lt_iff_toNat_lt.1 hNonempty), hRange, ih]

end Assembly

/-! ## Whole listings -/

namespace Listing

theorem rowOpenings_rows {program : Program} {start : Nat}
    (h : Tiles program.size start program.subroutines) :
    rowOpenings 0 (rows program) = program.subroutines.map Subroutine.opening := by
  rw [rows, rowOpenings_append]
  exact rowOpenings_cells h (Nat.zero_le start) (Nat.zero_add _) fun _ _ => rfl

end Listing

/-- The table covers the words of the program from its first range on, and its names are names
that are neither built in nor used twice. -/
structure Program.SoundTable (program : Program) : Prop where
  tiles : ∃ start, Tiles program.size start program.subroutines
  isName : ∀ subroutine ∈ program.subroutines, isName subroutine.name.toList = true
  distinct : (program.subroutines.map Subroutine.name ++ Symbols.builtin.names).Nodup

theorem Assembly.Laid.soundTable {emissions : List (Emission Item)} {layout : Layout}
    {program : Program} (hLaid : Laid emissions layout)
    (hRead : ∀ emission ∈ emissions, emission.line.WellFormed)
    (hTable : program.subroutines = layout.subroutines) (hLength : program.size = layout.address)
    (hSize : program.size ≤ programSize) : program.SoundTable where
  tiles := by
    rw [hTable, hLength]
    exact ⟨_, Layout.tiles_ranges (hLength ▸ hSize) hLaid.ascending⟩
  isName := by
    rw [hTable]
    exact hLaid.isName_of_mem_subroutines hRead
  distinct := by
    have hNodup := hLaid.nodup_names
    rw [hLaid.names_eq] at hNodup
    rw [hTable]
    exact (hLaid.names_subroutines_sublist.append_right _).nodup
      (((List.reverse_perm _).append_right _).nodup hNodup)

namespace Listing

/-- The rows of a program whose words have known opcodes. -/
theorem sound_rows {program : Program} (hSize : program.size ≤ programSize)
    (hTable : program.SoundTable)
    (hKnown : ∀ word ∈ program.words, (Fields.split word).opcode ≤ 0x0B)
    (hWords : ∀ word ∈ program.words, word.toNat < 16777216) :
    ∀ row ∈ rows program, row.Sound := by
  intro row hMem
  rw [rows, List.mem_append, List.mem_flatMap] at hMem
  rcases hMem with hRemark | ⟨⟨word, address⟩, hCell, hRow⟩
  · simp only [List.mem_cons, List.not_mem_nil, or_false] at hRemark
    rcases hRemark with rfl | rfl
    · simp [Row.Sound]
    · simp [Row.Sound]
  · obtain ⟨-, hAddress, hWord⟩ := List.mem_zipIdx hCell
    have hMem : word ∈ program.words := List.fst_mem_of_mem_zipIdx hCell
    rcases List.mem_append.1 hRow with hLabel | hWordRow
    · rw [labelAt] at hLabel
      split at hLabel
      · rename_i subroutine hFind
        rw [List.mem_singleton.1 hLabel]
        exact hTable.isName subroutine (List.mem_of_find?_eq_some hFind)
      · cases hLabel
    · rw [List.mem_singleton.1 hWordRow]
      refine ⟨?_, hKnown word hMem, hWords word hMem⟩
      have hProgram : programSize = 256 := rfl
      have hSizeEq : program.size = program.words.length := rfl
      omega

end Listing

/-- **Listings assemble again**: the listing of an assembled program whose words all have known
opcodes assembles to the same words and the same table, once the addresses in front of the words
are taken away. -/
theorem assemble_bareListing {source : String} {program : Program}
    (h : assemble source = .ok program)
    (hKnown : ∀ word ∈ program.words, (Fields.split word).opcode ≤ 0x0B) :
    assemble program.bareListing = .ok program := by
  obtain ⟨emissions, laid, hLines, hLaid, hEncode, hTable, hCheck⟩ := exists_laid_of_assemble h
  have hSize : program.size ≤ programSize := (Program.check_eq_ok_iff.1 hCheck).1
  have hSoundTable := hLaid.soundTable (wellFormed_of_map_ofText hLines) hTable
    (length_of_encodeAll hEncode) hSize
  obtain ⟨start, hTiles⟩ := hSoundTable.tiles
  have hSound := Listing.sound_rows hSize hSoundTable hKnown (Image.storable_of_assemble h).words
  have hOpenings : (Listing.rowOpenings 0 (Listing.rows program)).map Prod.fst
      = program.subroutines.map Subroutine.name := by
    rw [Listing.rowOpenings_rows hTiles, List.map_map]
    rfl
  obtain ⟨layout, hLayout, hRebuilt⟩ := Rebuilt.start.rows hSound
    (by rw [List.nil_append, List.length_nil, hOpenings]; exact hSoundTable.distinct) 1
  rw [List.nil_append, List.length_nil, List.nil_append, Listing.words_rows,
    Listing.rowOpenings_rows hTiles] at hRebuilt
  have hWords := hRebuilt.items layout.symbols
    (Symbols.nameIo_builtin.of_extends hRebuilt.extends_builtin)
  have hSubroutines : layout.subroutines = program.subroutines := by
    rw [Layout.subroutines, hRebuilt.openings_eq, hRebuilt.address_eq]
    exact Layout.ranges_openings hTiles
  rw [assemble, Layout.ofSource, numberedLines, Program.bareListing, Program.listing,
    Listing.lines_withoutAddresses hSound, hLayout]
  simp only [Layout.program, hWords, hSubroutines, hCheck]

theorem assemble_bareListing_forwardProgram :
    assemble forwardSource = .ok forwardProgram ∧
      (∀ word ∈ forwardProgram.words, (Fields.split word).opcode ≤ 0x0B) ∧
      assemble forwardProgram.bareListing = .ok forwardProgram := by
  have hAll : forwardProgram.words.all (fun word => (Fields.split word).opcode ≤ 0x0B) = true := by
    decide
  have hKnown : ∀ word ∈ forwardProgram.words, (Fields.split word).opcode ≤ 0x0B :=
    fun word hMem => of_decide_eq_true (List.all_eq_true.1 hAll word hMem)
  exact ⟨assemble_forwardSource, hKnown, assemble_bareListing assemble_forwardSource hKnown⟩

end ControlUnit
