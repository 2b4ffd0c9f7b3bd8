import ControlUnit.Debugger.View
import ControlUnit.Proofs.DisassemblyWindow
import ControlUnit.Proofs.ListingReassembly
import ControlUnit.Proofs.MemoryDump
import ControlUnit.Proofs.Operation
import ControlUnit.Proofs.TerminalList

/-!
# The program panel

The program panel has an entry for each line of the disassembly window.  An entry begins with the
mark of a breakpoint or a blank, with the mark of the current line or blanks, and with the address.
All of these are narrow characters, so they stand in the same columns of every row, whatever
renderer shows the panel, as long as it shows lists as documented.  What comes behind them does not
move them: neither the text of the instruction nor the name of the subroutine, whatever characters
it is made of.  If it holds a line feed, though, the entry has more rows than one.

## Main results

* `Debugger.toList_programItem` — what an entry is made of.
* `Debugger.exists_view` — the screen can always be drawn.
* `Debugger.NamesOfOneLine.shownAt_of_some` — what the first columns of a row show.
* `Debugger.program_shown` — the window and the panel, for every state of the debugger.
-/

namespace ControlUnit

namespace Debugger

open Screen

/-! ## Entries -/

/-- What an entry of the program panel begins with: the mark of a breakpoint, the mark of the
current line, and the address. -/
def head (debugger : Debugger) (line : DisassemblyLine) : List Char :=
  [if line.address ∈ debugger.breakpoints then '●' else ' ', ' ',
      if line.isCurrent then '▶' else ' ', ' ']
    ++ (Text.padded 10 3 line.address.toNat).toList

variable {debugger : Debugger} {line : DisassemblyLine} {renderer : Renderer}
  {width height : UInt16}

theorem toList_programItem (debugger : Debugger) (line : DisassemblyLine) :
    (debugger.programItem line).text.toList
      = debugger.head line ++ ':' :: ' ' :: ((Text.flushLeft 18 line.text).toList
        ++ ' ' :: (debugger.machine.program.subroutineName line.address).toList) := by
  have hMark : (if debugger.breakpoints.contains line.address then breakpointMark else " ").toList
      = [if line.address ∈ debugger.breakpoints then '●' else ' '] := by
    rw [List.contains_eq_mem]
    by_cases h : line.address ∈ debugger.breakpoints <;> simp [h, breakpointMark]
  have hCurrent : (if line.isCurrent then currentMark else "  ").toList
      = [if line.isCurrent then '▶' else ' ', ' '] := by
    cases line.isCurrent <;> decide
  simp only [programItem, String.toList_append, hMark, hCurrent]
  simp [head]

theorem narrow_of_mem_head {c : Char} (h : c ∈ debugger.head line) : Narrow c := by
  rw [head, List.mem_append] at h
  rcases h with hMark | hDigit
  · have hCases : c = '●' ∨ c = '▶' ∨ c = ' ' := by
      simp only [List.mem_cons, List.not_mem_nil, or_false] at hMark
      split at hMark <;> split at hMark <;> tauto
    rcases hCases with rfl | rfl | rfl <;> decide
  · have hDigits : ∀ digit < 10, Narrow (Nat.digitChar digit) := by decide
    rw [Text.padded, String.toList_ofList, List.leftpad, List.mem_append] at hDigit
    rcases hDigit with hZero | hWritten
    · rw [List.eq_of_mem_replicate hZero]
      exact hDigits 0 (by decide)
    · obtain ⟨digit, hSmall, rfl⟩ := Text.exists_digitChar_of_mem_toDigits (by decide) hWritten
      exact hDigits digit hSmall

theorem length_address (address : UInt8) : (Text.padded 10 3 address.toNat).toList.length = 3 :=
  Text.length_padded (by decide) (by decide) (Nat.lt_trans address.toNat_lt (by decide))

theorem length_head (debugger : Debugger) (line : DisassemblyLine) :
    (debugger.head line).length = 7 := by
  rw [head, List.length_append, length_address]
  rfl

theorem getElem?_text {place : Nat} (h : place < 7) :
    (debugger.programItem line).text.toList[place]? = (debugger.head line)[place]? := by
  rw [toList_programItem, List.getElem?_append_left (by rwa [length_head])]

theorem getElem?_head_breakpoint (debugger : Debugger) (line : DisassemblyLine) :
    (debugger.head line)[0]? = some '●' ↔ line.address ∈ debugger.breakpoints := by
  by_cases h : line.address ∈ debugger.breakpoints <;> simp [head, h]

theorem getElem?_head_current (debugger : Debugger) (line : DisassemblyLine) :
    (debugger.head line)[2]? = some '▶' ↔ line.isCurrent = true := by
  cases h : line.isCurrent <;> simp [head, h]

/-! ## The panel and the screen -/

theorem toNat_programLines (height : UInt16) : (programLines height).toNat = height.toNat - 2 := by
  rw [programLines, Size.toNat_monus, UInt16.toNat_toUInt64]
  rfl

/-- There always is a program panel, with an entry for each line of the window. -/
theorem programPanel?_eq (debugger : Debugger) (height : UInt16) :
    debugger.programPanel? height
      = some (debugger.programPanel (debugger.windowLines (programLines height))) := by
  rw [programPanel?, disassembly?_eq]
  rfl

/-- The screen can be drawn in every state and of every size: no sum fails. -/
theorem exists_view (renderer : Renderer) (debugger : Debugger) (width height : UInt16) :
    ∃ screen, debugger.view? renderer width height = some screen := by
  have hMemory : debugger.memoryPanel?
      = some (debugger.memoryPanel ((List.range' 256 8).map debugger.machine.data.cellAt)) := by
    rw [memoryPanel?, extendedCells?_eq]
    rfl
  rw [view?]
  simp only [programPanel?_eq, hMemory]
  exact ⟨_, rfl⟩

theorem length_windowLines_le (debugger : Debugger) (height : UInt16) :
    (debugger.windowLines (programLines height)).length ≤ height.toNat - 2 := by
  rw [length_windowLines, toNat_programLines]
  exact Nat.min_le_left ..

/-! ## What is shown -/

/-- What the program panel of a width and a height shows at a row and a column. -/
def shownAt (renderer : Renderer) (debugger : Debugger) (width height : UInt16)
    (row column : Nat) : Option (List Char) :=
  (debugger.programPanel? height).bind fun panel =>
    glyphAt (renderer.render panel width height) row column

/-- What the lines of a window are, for a number of lines. -/
structure ShowsWindow (debugger : Debugger) (lines : UInt64) (shown : List DisassemblyLine) :
    Prop where
  length : shown.length = min lines.toNat programSize
  /-- The addresses are consecutive, from the beginning of the window on. -/
  addresses : shown.map (·.address.toNat)
    = List.range' (windowStart debugger.machine.pc lines).toNat (min lines.toNat programSize)
  inMemory :
    (windowStart debugger.machine.pc lines).toNat + min lines.toNat programSize ≤ programSize
  /-- The sum that ends the window is a size. -/
  exactSum : Size.sum? (windowStart debugger.machine.pc lines) lines ≠ none
  texts : ∀ line ∈ shown, line.text = Listing.wordText (debugger.machine.program.read line.address)
  /-- One line is the current one. -/
  current : (shown.filter (·.isCurrent)).map (·.address) = [debugger.machine.pc]
  middle : (windowStart debugger.machine.pc lines).toNat = 0 ∨
    (windowStart debugger.machine.pc lines).toNat + min lines.toNat programSize = programSize ∨
    (shown[lines.toNat / 2]?).map (·.address) = some debugger.machine.pc

/-- What the rows of the panel are marked with, for a renderer, a width and a height. -/
structure MarksRows (renderer : Renderer) (debugger : Debugger) (width height : UInt16)
    (shown : List DisassemblyLine) : Prop where
  /-- An entry has one row, and no more entries are shown than there is room for. -/
  rows : ∀ line ∈ shown, ∀ inner,
    (renderer.rows inner .plain (debugger.programItem line)).length = 1
  room : shown.length ≤ height.toNat - 2
  /-- One entry has the mark of the current line. -/
  entry : (shown.filter fun line =>
    (debugger.programItem line).text.toList[2]? == some '▶').map (·.address) = [debugger.machine.pc]
  /-- The mark is in its column in the row of the program counter and in no other one. -/
  marker : ∀ index < height.toNat - 2,
    shownAt renderer debugger width height (index + 1) 3 = some ['▶'] ↔
      5 ≤ width.toNat ∧ (shown[index]?).map (·.address) = some debugger.machine.pc
  one : 5 ≤ width.toNat → ∃! index, index < height.toNat - 2 ∧
    shownAt renderer debugger width height (index + 1) 3 = some ['▶']
  /-- The row of a line has its address behind the mark. -/
  address : ∀ index line, shown[index]? = some line → ∀ place < 3, place + 6 < width.toNat →
    shownAt renderer debugger width height (index + 1) (place + 5)
      = (Text.padded 10 3 line.address.toNat).toList[place]?.map fun c => [c]
  /-- The rows with a dot are those of the breakpoints. -/
  dot : ∀ index < height.toNat - 2,
    shownAt renderer debugger width height (index + 1) 1 = some ['●'] ↔
      3 ≤ width.toNat ∧ ∃ line, shown[index]? = some line ∧ line.address ∈ debugger.breakpoints
  /-- So are the entries. -/
  dotEntry : ∀ line ∈ shown,
    (debugger.programItem line).text.toList[0]? = some '●' ↔ line.address ∈ debugger.breakpoints

theorem showsWindow (debugger : Debugger) {lines : UInt64} (h : 1 ≤ lines) :
    debugger.ShowsWindow lines (debugger.windowLines lines) := by
  have hLines : 1 ≤ lines.toNat := UInt64.le_iff_toNat_le.1 h
  refine ⟨length_windowLines .., map_address_windowLines .., windowStart_add_le .., ?_, ?_, ?_, ?_⟩
  · rw [ne_eq, Size.sum?_eq_none_iff]
    exact Nat.not_le.2 (windowStart_add_lt ..)
  · intro line hMem
    rw [eq_lineAt_of_mem hMem]
    rfl
  · rw [filter_isCurrent_windowLines debugger hLines]
    rfl
  · rcases windowStart_cases debugger.machine.pc lines with hZero | hLast | hMiddle
    · exact .inl hZero
    · exact .inr (.inl hLast)
    · have hPc := pc_in_window debugger.machine.pc hLines
      have hIndex : lines.toNat / 2 < min lines.toNat programSize := by omega
      refine .inr (.inr ?_)
      rw [getElem?_windowLines, if_pos hIndex, hMiddle, Option.map_some, lineAt, Nat.toUInt8,
        UInt8.ofNat_toNat]

/-! ## One row for each entry -/

/-- No name of a subroutine has a line feed in it. -/
def NamesOfOneLine (debugger : Debugger) : Prop :=
  ∀ subroutine ∈ debugger.machine.program.image.subroutines, '\n' ∉ subroutine.name.toList

theorem NamesOfOneLine.lineFeed_not_mem (h : debugger.NamesOfOneLine) (address : UInt8) :
    '\n' ∉ (debugger.machine.program.subroutineName address).toList := by
  rw [ProgramMemory.subroutineName, Program.subroutineName]
  split
  · rename_i subroutine hFind
    exact h subroutine (List.mem_of_find?_eq_some hFind)
  · decide

theorem NamesOfOneLine.lineFeed_not_mem_programItem (h : debugger.NamesOfOneLine) {lines : UInt64}
    (hMem : line ∈ debugger.windowLines lines) :
    '\n' ∉ (debugger.programItem line).text.toList := by
  have hFeed : ¬Narrow '\n' := by decide
  have hText : '\n' ∉ line.text.toList := by
    rw [eq_lineAt_of_mem hMem]
    exact Listing.lineFeed_not_mem_wordText _
  rw [toList_programItem, Listing.toList_flushLeft]
  simp only [List.mem_append, List.mem_cons, List.mem_replicate, not_or]
  exact ⟨fun hHead => hFeed (narrow_of_mem_head hHead), by decide, by decide,
    ⟨hText, fun hBlank => absurd hBlank.2 (by decide)⟩, by decide, h.lineFeed_not_mem _⟩

/-- Lists of one member each, put one after the other. -/
theorem map_singleton_flatMap {α β : Type} {f : α → List β} {items : List α}
    (h : ∀ item ∈ items, (f item).length = 1) :
    (items.flatMap f).map (fun part => [part]) = items.map f := by
  induction items with
  | nil => rfl
  | cons item rest ih =>
      obtain ⟨part, hPart⟩ := List.length_eq_one_iff.1 (h item List.mem_cons_self)
      have hRest := ih fun other hMem => h other (List.mem_cons_of_mem _ hMem)
      rw [List.flatMap_cons, List.map_append, hRest, List.map_cons, hPart]
      rfl

section Rows

variable (h : debugger.NamesOfOneLine) (hShows : renderer.ShowsLists width height)

include h hShows

theorem NamesOfOneLine.length_rows {lines : UInt64} (hMem : line ∈ debugger.windowLines lines)
    (inner : Nat) (base : Style) :
    (renderer.rows inner base (debugger.programItem line)).length = 1 := by
  refine hShows.oneRow _ inner base ?_ (h.lineFeed_not_mem_programItem hMem)
  rw [toList_programItem, head]
  exact List.cons_ne_nil _ _

/-- The entries of the panel have one row each. -/
theorem NamesOfOneLine.map_allRows (lines : UInt64) (inner : Nat) (base : Style) :
    (renderer.allRows inner base ((debugger.windowLines lines).map debugger.programItem)).map
        (fun row => [row])
      = (debugger.windowLines lines).map fun line =>
          renderer.rows inner base (debugger.programItem line) := by
  have hRows : ∀ item ∈ (debugger.windowLines lines).map debugger.programItem,
      (renderer.rows inner base item).length = 1 := by
    intro item hItem
    obtain ⟨line, hMem, rfl⟩ := List.mem_map.1 hItem
    exact h.length_rows hShows hMem inner base
  rw [Renderer.allRows, map_singleton_flatMap hRows, List.map_map]
  rfl

theorem NamesOfOneLine.length_allRows (lines : UInt64) (inner : Nat) (base : Style) :
    (renderer.allRows inner base ((debugger.windowLines lines).map debugger.programItem)).length
      = (debugger.windowLines lines).length := by
  have hLength := congrArg List.length (h.map_allRows hShows lines inner base)
  rwa [List.length_map, List.length_map] at hLength

/-! ## What is where -/

/-- What the first columns of the row of a line show. -/
theorem NamesOfOneLine.shownAt_of_some {index column : Nat}
    (hMem : (debugger.windowLines (programLines height))[index]? = some line)
    (hColumn : column < 7) (hInside : column < width.toNat - 2) :
    shownAt renderer debugger width height (index + 1) (column + 1)
      = ((debugger.head line)[column]?).map fun c => [c] := by
  have hLine := List.mem_of_getElem? hMem
  -- The row of the entry is at the place of its line among all rows.
  have hRows := congrArg (·[index]?)
    (h.map_allRows hShows (programLines height) (width.toNat - 2) .plain)
  simp only [List.getElem?_map, hMem, Option.map_some] at hRows
  obtain ⟨row, hRow, hEntry⟩ := Option.map_eq_some_iff.1 hRows
  have hRoom : (renderer.allRows (width.toNat - 2) .plain
      ((debugger.windowLines (programLines height)).map debugger.programItem)).length
        ≤ height.toNat - 2 := by
    rw [h.length_allRows hShows]
    exact debugger.length_windowLines_le height
  have hTake := hShows.columns _ (width.toNat - 2) .plain _ _ _ row
    (h.lineFeed_not_mem_programItem hLine) (toList_programItem debugger line)
    (fun _ hHead => narrow_of_mem_head hHead) (by decide) hEntry.symm
  rw [length_head] at hTake
  have hGlyph := congrArg (·[column]?) hTake
  simp only [List.getElem?_map, List.getElem?_take, if_pos hColumn, if_pos hInside] at hGlyph
  have hCell := hShows.inside (debugger.programPanel (debugger.windowLines (programLines height)))
    _ index column row rfl hRoom hRow hInside
  rw [shownAt, programPanel?_eq, Option.bind_some, hCell, hGlyph]

/-- Behind the last line, and to the right of the inside, there is no mark. -/
theorem NamesOfOneLine.shownAt_of_none {index column : Nat} (hIndex : index < height.toNat - 2)
    (hOutside : (debugger.windowLines (programLines height))[index]? = none ∨
      width.toNat - 2 ≤ column) :
    shownAt renderer debugger width height (index + 1) (column + 1)
      ∈ [none, some [' '], some ['│']] := by
  rw [shownAt, programPanel?_eq, Option.bind_some]
  rcases Nat.lt_or_ge column (width.toNat - 2) with hColumn | hColumn
  · have hLength := List.getElem?_eq_none_iff.1
      (hOutside.resolve_right (Nat.not_le.2 hColumn))
    rw [hShows.below _ _ index column rfl (by rwa [h.length_allRows hShows]) hIndex hColumn]
    decide
  · rcases hShows.right (debugger.programPanel (debugger.windowLines (programLines height)))
      index column hIndex hColumn with hNone | hBar
    · rw [hNone]
      decide
    · rw [hBar]
      decide

/-- Which rows show a character in one of the first columns, if it is not that of blanks or of the
border. -/
theorem NamesOfOneLine.shownAt_iff {index column : Nat} {c : Char}
    (hIndex : index < height.toNat - 2) (hColumn : column < 7) (hBlank : c ≠ ' ')
    (hBorder : c ≠ '│') :
    shownAt renderer debugger width height (index + 1) (column + 1) = some [c] ↔
      column + 2 < width.toNat ∧
        ∃ line, (debugger.windowLines (programLines height))[index]? = some line ∧
          (debugger.head line)[column]? = some c := by
  by_cases hOutside : (debugger.windowLines (programLines height))[index]? = none ∨
      width.toNat - 2 ≤ column
  · have hShown := h.shownAt_of_none hShows hIndex hOutside
    refine iff_of_false (fun hMark => ?_) ?_
    · rw [hMark] at hShown
      simp [hBlank, hBorder] at hShown
    · rintro ⟨hWidth, line, hMem, -⟩
      rcases hOutside with hNone | hRight
      · rw [hNone] at hMem
        cases hMem
      · omega
  · obtain ⟨hSome, hInside⟩ := not_or.1 hOutside
    obtain ⟨line, hMem⟩ := Option.ne_none_iff_exists'.1 hSome
    have hWidth : column + 2 < width.toNat := by omega
    rw [h.shownAt_of_some hShows hMem hColumn (Nat.not_le.1 hInside)]
    simp [hMem, hWidth]

theorem NamesOfOneLine.marker_iff {index : Nat} (hIndex : index < height.toNat - 2) :
    shownAt renderer debugger width height (index + 1) 3 = some ['▶'] ↔
      5 ≤ width.toNat ∧ ((debugger.windowLines (programLines height))[index]?).map (·.address)
        = some debugger.machine.pc := by
  rw [h.shownAt_iff hShows hIndex (by decide) (by decide) (by decide)]
  refine and_congr Iff.rfl ?_
  rw [Option.map_eq_some_iff]
  refine exists_congr fun line => and_congr_right fun hMem => ?_
  rw [getElem?_head_current, isCurrent_iff_of_mem (List.mem_of_getElem? hMem)]

/-- One row has the mark of the current line. -/
theorem NamesOfOneLine.existsUnique_marker (hWidth : 5 ≤ width.toNat)
    (hHeight : 3 ≤ height.toNat) :
    ∃! index, index < height.toNat - 2 ∧
      shownAt renderer debugger width height (index + 1) 3 = some ['▶'] := by
  have hLines : 1 ≤ (programLines height).toNat := by
    rw [toNat_programLines]
    omega
  have hRow := debugger.getElem?_address_iff hLines
  have hPc := pc_in_window debugger.machine.pc hLines
  rw [toNat_programLines] at hPc
  refine ⟨_, ⟨by omega, (h.marker_iff hShows (by omega)).2 ⟨hWidth, (hRow _).2 rfl⟩⟩, ?_⟩
  rintro index ⟨hIndex, hShown⟩
  exact (hRow index).1 ((h.marker_iff hShows hIndex).1 hShown).2

theorem NamesOfOneLine.shownAt_address {index : Nat}
    (hMem : (debugger.windowLines (programLines height))[index]? = some line)
    {place : Nat} (hPlace : place < 3) (hWidth : place + 6 < width.toNat) :
    shownAt renderer debugger width height (index + 1) (place + 5)
      = (Text.padded 10 3 line.address.toNat).toList[place]?.map fun c => [c] := by
  rw [h.shownAt_of_some hShows hMem (show place + 4 < 7 by omega) (by omega), head,
    List.getElem?_append_right (by simp)]
  rfl

theorem NamesOfOneLine.marksRows (hHeight : 3 ≤ height) :
    MarksRows renderer debugger width height (debugger.windowLines (programLines height)) := by
  have hNat : 3 ≤ height.toNat := UInt16.le_iff_toNat_le.1 hHeight
  refine ⟨fun _ hMem inner => h.length_rows hShows hMem inner .plain,
    debugger.length_windowLines_le height, ?_, fun _ hIndex => h.marker_iff hShows hIndex,
    fun hWidth => h.existsUnique_marker hShows hWidth hNat,
    fun _ _ hMem _ hPlace hInside => h.shownAt_address hShows hMem hPlace hInside, ?_, ?_⟩
  · have hMarked : ∀ line ∈ debugger.windowLines (programLines height),
        ((debugger.programItem line).text.toList[2]? == some '▶') = line.isCurrent := by
      intro line hMem
      rw [Bool.eq_iff_iff, beq_iff_eq, getElem?_text (by decide), getElem?_head_current]
    have hLines : 1 ≤ (programLines height).toNat := by
      rw [toNat_programLines]
      omega
    rw [List.filter_congr hMarked, filter_isCurrent_windowLines debugger hLines]
    rfl
  · intro index hIndex
    rw [h.shownAt_iff hShows hIndex (by decide) (by decide) (by decide)]
    refine and_congr Iff.rfl (exists_congr fun line => and_congr_right fun hMem => ?_)
    exact getElem?_head_breakpoint debugger line
  · intro line hMem
    rw [getElem?_text (by decide), getElem?_head_breakpoint]

end Rows

/-- **The program around the counter.**  In every state there is a disassembly of every number of
lines.  The lines of a window of one line or more are around the program counter, which is one of
them; and the program panel, shown by whatever shows lists as documented, marks its row, and the
rows of breakpoints, and no other. -/
theorem program_shown (debugger : Debugger) :
    (∀ lines : UInt64, 1 ≤ lines → ∃ shown, debugger.disassembly? lines = some shown ∧
      debugger.ShowsWindow lines shown) ∧
    ∀ (renderer : Renderer) (width height : UInt16), renderer.ShowsLists width height →
      debugger.NamesOfOneLine → 3 ≤ height → ∃ shown,
        debugger.disassembly? (programLines height) = some shown ∧
        debugger.programPanel? height = some (debugger.programPanel shown) ∧
        MarksRows renderer debugger width height shown :=
  ⟨fun lines hLines => ⟨_, debugger.disassembly?_eq lines, debugger.showsWindow hLines⟩,
    fun _ _ height hShows hNames hHeight => ⟨_, debugger.disassembly?_eq _,
      debugger.programPanel?_eq height, hNames.marksRows hShows hHeight⟩⟩

/-- A debugger close to the end of memory, with a breakpoint right before the program counter. -/
def lateDebugger : Debugger where
  machine := { faultingMachine with pc := 254 }
  breakpoints := [7, 253]

/-- The late debugger on a terminal of forty columns and seven rows. -/
theorem program_shown_lateDebugger :
    (1 : UInt64) ≤ 5 ∧ terminal.ShowsLists 40 7 ∧ lateDebugger.NamesOfOneLine ∧ (3 : UInt16) ≤ 7 ∧
      ∃ shown, lateDebugger.disassembly? 5 = some shown ∧ lateDebugger.ShowsWindow 5 shown ∧
        MarksRows terminal lateDebugger 40 7 shown ∧
        shown.map (fun line => (line.address, line.isCurrent))
          = [(251, false), (252, false), (253, false), (254, true), (255, false)] := by
  have hNames : lateDebugger.NamesOfOneLine := by
    intro subroutine hMem
    cases hMem
  obtain ⟨hWindow, hPanel⟩ := program_shown lateDebugger
  obtain ⟨shown, hShown, hLines⟩ := hWindow 5 (by decide)
  obtain ⟨marked, hMarked, -, hRows⟩ :=
    hPanel terminal 40 7 (terminal_showsLists 40 7) hNames (by decide)
  have hSame : marked = shown := Option.some_inj.1 (hMarked.symm.trans hShown)
  rw [hSame] at hRows
  have hAddresses : (lateDebugger.disassembly? 5).map
        (·.map fun line => (line.address, line.isCurrent))
      = some [(251, false), (252, false), (253, false), (254, true), (255, false)] := by
    decide +kernel
  rw [hShown] at hAddresses
  exact ⟨by decide, terminal_showsLists 40 7, hNames, by decide, shown, hShown, hLines, hRows,
    Option.some_inj.1 hAddresses⟩

end Debugger

end ControlUnit
