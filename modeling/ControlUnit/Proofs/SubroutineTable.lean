import ControlUnit.Proofs.Resolution

/-!
# Subroutine tables

The subroutines of an assembled program.  The labels of a source text that are not local
stand in the order of their addresses, because no line takes words back.  Up to the end of
the program, the ranges that they begin therefore cover the addresses without gaps and
without overlaps, and an address belongs to the last label that does not lie behind it,
however many labels share an address.

The sixteen bits of a range are enough: no program that loads is longer than 256 words.

## Main results

* `Layout.tiles_ranges` — the ranges of labels, one after another.
* `Layout.name_ranges` — the range that an address lies in.
* `Laid.check_program` — only its size can keep a laid-out program from loading.
* `subroutineTable_assemble` — what the table of an assembled program says.
-/

namespace ControlUnit.Assembly

/-! ## Ranges one after another -/

/-- The ranges of a table are not empty, each begins where the one before it ends, and all of
them reach from the first address up to the last. -/
inductive Tiles (stop : Nat) : Nat → List Subroutine → Prop
  | done : Tiles stop stop []
  | range {subroutine : Subroutine} {rest : List Subroutine}
      (hNonempty : subroutine.start < subroutine.stop)
      (hRest : Tiles stop subroutine.stop.toNat rest) :
      Tiles stop subroutine.start.toNat (subroutine :: rest)

namespace Tiles

variable {start stop : Nat} {table : List Subroutine}

theorem start_le_stop (h : Tiles stop start table) : start ≤ stop := by
  induction h with
  | done => exact Nat.le_refl _
  | range hNonempty hRest ih => exact Nat.le_trans (Nat.le_of_lt hNonempty) ih

theorem bounds (h : Tiles stop start table) : ∀ subroutine ∈ table,
    start ≤ subroutine.start.toNat ∧ subroutine.start < subroutine.stop ∧
      subroutine.stop.toNat ≤ stop := by
  induction h with
  | done => simp
  | @range first rest hNonempty hRest ih =>
      intro subroutine hMem
      rcases List.mem_cons.1 hMem with rfl | hMem
      · exact ⟨Nat.le_refl _, hNonempty, hRest.start_le_stop⟩
      · obtain ⟨hStart, hBounds⟩ := ih subroutine hMem
        exact ⟨Nat.le_trans (Nat.le_of_lt hNonempty) hStart, hBounds⟩

theorem inBounds (h : Tiles stop start table) (hStop : stop ≤ programSize) :
    ∀ subroutine ∈ table, subroutine.inBounds = true := by
  intro subroutine hMem
  obtain ⟨-, hNonempty, hLast⟩ := h.bounds subroutine hMem
  exact Subroutine.inBounds_iff.2 ⟨hNonempty, Nat.le_trans hLast hStop⟩

theorem disjoint (h : Tiles stop start table) :
    table.Pairwise fun first second => second.overlaps first = false := by
  induction h with
  | done => exact .nil
  | @range first rest hNonempty hRest ih =>
      refine .cons (fun later hMem => ?_) ih
      have hBehind : first.stop ≤ later.start := (hRest.bounds later hMem).1
      simp only [Subroutine.overlaps, Bool.and_eq_false_iff, decide_eq_false_iff_not]
      exact .inl (UInt16.not_lt.2 hBehind)

theorem find?_eq_none (h : Tiles stop start table) {address : UInt16}
    (hAddress : address.toNat < start) :
    (table.find? fun subroutine => subroutine.contains address) = none := by
  rw [List.find?_eq_none]
  intro subroutine hMem hContains
  have hFirst : subroutine.start.toNat ≤ address.toNat := (Subroutine.contains_iff.1 hContains).1
  have hStart := (h.bounds subroutine hMem).1
  omega

end Tiles

/-! ## Ranges of labels -/

namespace Layout

/-- The address up to which a range goes, given the openings behind it. -/
def nextAddress (stop : Nat) : List (String × Nat) → Nat
  | [] => stop
  | (_, later) :: _ => later

/-- The range that an opening begins, given the openings behind it. -/
def rangeOf (stop : Nat) (name : String) (start : Nat) (rest : List (String × Nat)) : Subroutine :=
  ⟨name, start.toUInt16, (nextAddress stop rest).toUInt16⟩

/-- No opening lies behind the next one, and none behind the end. -/
def Ascending (stop : Nat) : List (String × Nat) → Prop
  | [] => True
  | (_, start) :: rest => start ≤ nextAddress stop rest ∧ Ascending stop rest

/-- The name of the last opening that does not lie behind an address. -/
def openedBy (openings : List (String × Nat)) (address : Nat) : Option String :=
  (openings.filter fun opening => opening.2 ≤ address).getLast?.map Prod.fst

variable {stop : Nat} {name : String} {start : Nat} {openings rest : List (String × Nat)}

theorem ranges_cons :
    ranges stop ((name, start) :: rest)
      = if start < nextAddress stop rest then rangeOf stop name start rest :: ranges stop rest
        else ranges stop rest := by
  cases rest with
  | nil => rfl
  | cons next more => rfl

theorem Ascending.nextAddress_le_stop (h : Ascending stop openings) :
    nextAddress stop openings ≤ stop := by
  induction openings with
  | nil => exact Nat.le_refl _
  | cons opening rest ih => exact Nat.le_trans h.1 (ih h.2)

theorem Ascending.nextAddress_le (h : Ascending stop openings) :
    ∀ opening ∈ openings, nextAddress stop openings ≤ opening.2 := by
  induction openings with
  | nil => simp
  | cons first rest ih =>
      intro opening hMem
      rcases List.mem_cons.1 hMem with rfl | hMem
      · exact Nat.le_refl _
      · exact Nat.le_trans h.1 (ih h.2 opening hMem)

/-- Sixteen bits are enough for the ends of a range. -/
theorem Ascending.toNat_rangeOf (h : Ascending stop ((name, start) :: rest))
    (hStop : stop ≤ programSize) :
    (rangeOf stop name start rest).start.toNat = start ∧
      (rangeOf stop name start rest).stop.toNat = nextAddress stop rest := by
  have hExact : ∀ n ≤ stop, n.toUInt16.toNat = n := fun n hLe =>
    UInt16.toNat_ofNat_of_lt' (Nat.lt_of_le_of_lt (Nat.le_trans hLe hStop) (by decide))
  exact ⟨hExact _ h.nextAddress_le_stop, hExact _ h.2.nextAddress_le_stop⟩

theorem Ascending.contains_rangeOf (h : Ascending stop ((name, start) :: rest))
    (hStop : stop ≤ programSize) {address : UInt16} :
    (rangeOf stop name start rest).contains address = true ↔
      start ≤ address.toNat ∧ address.toNat < nextAddress stop rest := by
  obtain ⟨hStart, hNext⟩ := h.toNat_rangeOf hStop
  rw [Subroutine.contains_iff, UInt16.le_iff_toNat_le, UInt16.lt_iff_toNat_lt, hStart, hNext]

/-- The ranges of ascending openings reach from the first opening up to the end. -/
theorem tiles_ranges (hStop : stop ≤ programSize) (h : Ascending stop openings) :
    Tiles stop (nextAddress stop openings) (ranges stop openings) := by
  induction openings with
  | nil => exact .done
  | cons opening rest ih =>
      obtain ⟨name, start⟩ := opening
      have hRest : Tiles stop (nextAddress stop rest) (ranges stop rest) := ih h.2
      obtain ⟨hStart, hNext⟩ := h.toNat_rangeOf hStop
      rw [ranges_cons]
      by_cases hLess : start < nextAddress stop rest
      · have hNonempty :
            (rangeOf stop name start rest).start < (rangeOf stop name start rest).stop := by
          rw [UInt16.lt_iff_toNat_lt, hStart, hNext]
          exact hLess
        have hTiles := Tiles.range hNonempty (hNext ▸ hRest)
        rw [if_pos hLess]
        rwa [hStart] at hTiles
      · have hSame : start = nextAddress stop rest := Nat.le_antisymm h.1 (Nat.not_lt.1 hLess)
        rw [if_neg hLess]
        rwa [← hSame] at hRest

/-- Every range has the name of an opening, in the same order. -/
theorem names_ranges_sublist :
    ((ranges stop openings).map Subroutine.name).Sublist (openings.map Prod.fst) := by
  induction openings with
  | nil => exact .slnil
  | cons opening rest ih =>
      obtain ⟨name, start⟩ := opening
      rw [ranges_cons]
      split
      · exact .cons_cons _ ih
      · exact .cons _ ih

theorem openedBy_eq_none {address : Nat} (h : Ascending stop openings)
    (hAddress : address < nextAddress stop openings) : openedBy openings address = none := by
  have hEmpty : openings.filter (fun opening => opening.2 ≤ address) = [] := by
    rw [List.filter_eq_nil_iff]
    intro opening hMem
    have hLe := h.nextAddress_le opening hMem
    simp only [decide_eq_true_eq]
    omega
  rw [openedBy, hEmpty]
  rfl

theorem openedBy_cons_of_le {address : Nat} (h : start ≤ address) :
    openedBy ((name, start) :: rest) address = some ((openedBy rest address).getD name) := by
  rw [openedBy, List.filter_cons_of_pos (by simpa using h), List.getLast?_cons, openedBy]
  cases (rest.filter fun opening => opening.2 ≤ address).getLast? <;> rfl

theorem isSome_openedBy {address : Nat} (h : nextAddress stop openings ≤ address)
    (hAddress : address < stop) : ∃ name, openedBy openings address = some name := by
  cases openings with
  | nil => exact absurd hAddress (Nat.not_lt.2 h)
  | cons opening rest => exact ⟨_, openedBy_cons_of_le h⟩

/-- An address lies in the range of the last opening that is not behind it. -/
theorem name_ranges (hStop : stop ≤ programSize) (h : Ascending stop openings) {address : UInt16}
    (hAddress : address.toNat < stop) :
    ((ranges stop openings).find? fun range => range.contains address).map Subroutine.name
      = openedBy openings address.toNat := by
  induction openings with
  | nil => rfl
  | cons opening rest ih =>
      obtain ⟨name, start⟩ := opening
      rcases Nat.lt_or_ge address.toNat start with hBefore | hBehind
      · rw [(tiles_ranges hStop h).find?_eq_none hBefore, openedBy_eq_none h hBefore]
        rfl
      rw [openedBy_cons_of_le hBehind, ranges_cons]
      rcases Nat.lt_or_ge address.toNat (nextAddress stop rest) with hInside | hOutside
      · have hContains := (h.contains_rangeOf hStop).2 ⟨hBehind, hInside⟩
        rw [if_pos (Nat.lt_of_le_of_lt hBehind hInside), openedBy_eq_none h.2 hInside,
          List.find?_cons, hContains]
        rfl
      · have hContains : (rangeOf stop name start rest).contains address = false :=
          Bool.eq_false_iff.2 fun hIn =>
            Nat.not_lt.2 hOutside ((h.contains_rangeOf hStop).1 hIn).2
        obtain ⟨later, hLater⟩ := isSome_openedBy hOutside hAddress
        have hRest := ih h.2
        rw [hLater] at hRest ⊢
        split
        · rw [List.find?_cons, hContains]
          exact hRest
        · exact hRest

end Layout

/-! ## Labels of a text -/

open Layout

section Openings

variable {α : Type}

/-- Lines emit words and take none back, so labels ascend. -/
theorem ascending_openingsFrom (start : Nat) (emissions : List (Emission α)) :
    let stop := start + (emittedBy emissions).length
    start ≤ nextAddress stop (openingsFrom start emissions) ∧
      Ascending stop (openingsFrom start emissions) := by
  induction emissions generalizing start with
  | nil => exact ⟨Nat.le_refl _, trivial⟩
  | cons emission rest ih =>
      have hStop : start + (emittedBy (emission :: rest)).length
          = start + emission.emitted.length + (emittedBy rest).length := by
        simp [emittedBy, Nat.add_assoc]
      obtain ⟨hNext, hAscending⟩ := ih (start + emission.emitted.length)
      rw [hStop, openingsFrom]
      have hStart := Nat.le_trans (Nat.le_add_right start emission.emitted.length) hNext
      cases emission.line.label? with
      | none => exact ⟨hStart, hAscending⟩
      | some label =>
          rw [Option.elim_some, Label.openings]
          split
          · exact ⟨hStart, hAscending⟩
          · exact ⟨Nat.le_refl _, hStart, hAscending⟩

/-- Openings have the names of labels, in the order of the lines. -/
theorem names_openingsFrom_sublist (start : Nat) (emissions : List (Emission α)) :
    ((openingsFrom start emissions).map Prod.fst).Sublist
      (emissions.flatMap fun emission => emission.line.names) := by
  induction emissions generalizing start with
  | nil => exact .slnil
  | cons emission rest ih =>
      rw [openingsFrom, List.map_append, List.flatMap_cons]
      refine .append ?_ (ih _)
      rw [Line.names, Line.labelNames]
      refine List.Sublist.trans ?_ (List.sublist_append_left _ _)
      cases emission.line.label? with
      | none => exact .slnil
      | some label =>
          rw [Option.elim_some, Label.openings]
          split
          · exact List.nil_sublist _
          · exact .refl _

end Openings

namespace Laid

variable {emissions : List (Emission Item)} {layout : Layout}

theorem ascending (h : Laid emissions layout) : Ascending layout.address layout.openings := by
  rw [h.address_eq, h.openings_eq]
  simpa only [Nat.zero_add] using (ascending_openingsFrom 0 emissions).2

/-- Subroutines have the names of labels, in the order of the lines. -/
theorem names_subroutines_sublist (h : Laid emissions layout) :
    (layout.subroutines.map Subroutine.name).Sublist
      (emissions.flatMap fun emission => emission.line.names) := by
  have hNames := names_openingsFrom_sublist 0 emissions
  rw [← h.openings_eq] at hNames
  exact names_ranges_sublist.trans hNames

theorem isName_of_mem_subroutines (h : Laid emissions layout)
    (hRead : ∀ emission ∈ emissions, emission.line.WellFormed) :
    ∀ subroutine ∈ layout.subroutines, isName subroutine.name.toList = true := by
  intro subroutine hMem
  obtain ⟨emission, hEmission, hName⟩ :=
    List.mem_flatMap.1 (h.names_subroutines_sublist.subset (List.mem_map_of_mem hMem))
  exact (hRead emission hEmission).isName_of_mem_names hName

/-- Only its size can keep a laid-out program from loading. -/
theorem check_program (h : Laid emissions layout) {words : List UInt32}
    (hEncode : encodeAll layout.symbols layout.items = .ok words) :
    Program.check { words := words, subroutines := layout.subroutines }
      = if programSize < words.length then .error (.tooLarge words.length) else .ok () := by
  have hLength : words.length = layout.address := length_of_encodeAll hEncode
  by_cases hSize : programSize < words.length
  · rw [if_pos hSize, Program.check]
    exact if_pos hSize
  · have hStop : layout.address ≤ programSize := hLength ▸ Nat.not_lt.1 hSize
    have hTiles := tiles_ranges hStop h.ascending
    rw [if_neg hSize, Program.check_eq_ok_iff]
    exact ⟨Nat.not_lt.1 hSize, hTiles.inBounds hStop, hTiles.disjoint⟩

end Laid

/-! ## Reports -/

theorem Layout.line_of_lines {layout : Layout} {numbered : List (List Char × Nat)}
    {reason : AssemblyError} (h : layout.lines numbered = .error reason) :
    ∃ number cause, reason = .line number cause := by
  induction numbered generalizing layout with
  | nil => cases h
  | cons first rest ih =>
      obtain ⟨text, number⟩ := first
      rw [Layout.lines] at h
      cases hNext : layout.line number text with
      | error cause =>
          simp only [hNext, Except.error.injEq] at h
          exact ⟨number, cause, h.symm⟩
      | ok next =>
          simp only [hNext] at h
          exact ih h

theorem line_of_mapError {α : Type} {result : Except LineError α} {number : Nat}
    {reason : AssemblyError} (h : result.mapError (.line number) = .error reason) :
    ∃ number cause, reason = .line number cause := by
  cases result with
  | error cause =>
      cases h
      exact ⟨number, cause, rfl⟩
  | ok value => cases h

theorem Item.line_of_encode {symbols : Symbols} {item : Item} {reason : AssemblyError}
    (h : item.encode symbols = .error reason) : ∃ number cause, reason = .line number cause := by
  cases item with
  | fill => cases h
  | word number value => exact line_of_mapError h
  | instruction number opcode operands => exact line_of_mapError h

theorem line_of_encodeAll {symbols : Symbols} {items : List Item} {reason : AssemblyError}
    (h : encodeAll symbols items = .error reason) :
    ∃ number cause, reason = .line number cause := by
  obtain ⟨item, -, hItem⟩ := exists_item_of_encodeAll h
  exact Item.line_of_encode hItem

/-- Where no line is at fault, only the size of the program can be. -/
theorem tooLarge_of_assemble {source : String} {cause : ProgramError}
    (h : assemble source = .error (.program cause)) : ∃ size, cause = .tooLarge size := by
  rw [assemble] at h
  cases hLayout : Layout.ofSource source.toList with
  | error reason =>
      simp only [hLayout, Except.error.injEq] at h
      obtain ⟨number, fault, hReason⟩ := Layout.line_of_lines hLayout
      rw [h] at hReason
      cases hReason
  | ok layout =>
      obtain ⟨emissions, -, hLaid⟩ := Layout.exists_laid hLayout
      simp only [hLayout, Layout.program] at h
      cases hWords : encodeAll layout.symbols layout.items with
      | error reason =>
          simp only [hWords, Except.error.injEq] at h
          obtain ⟨number, fault, hReason⟩ := line_of_encodeAll hWords
          rw [h] at hReason
          cases hReason
      | ok words =>
          simp only [hWords, hLaid.check_program hWords] at h
          by_cases hSize : programSize < words.length
          · simp only [if_pos hSize, Except.error.injEq, AssemblyError.program.injEq] at h
            exact ⟨words.length, h.symm⟩
          · simp [if_neg hSize] at h

/-! ## Tables -/

/-- **The table of an assembled program**: assembling never reports an empty or overlapping
range.  The ranges of a program follow each other without gaps up to its end, no two of them
have the same name, and an address of the program has the name of the last label that is not
local and does not lie behind it. -/
theorem subroutineTable_assemble (source : String) :
    (∀ subroutine, assemble source ≠ .error (.program (.invalidRange subroutine))) ∧
    (∀ first second, assemble source ≠ .error (.program (.overlappingRanges first second))) ∧
    ∀ program, assemble source = .ok program →
      ∃ (symbols : Symbols) (emissions : List (Emission UInt32)),
        Resolves symbols emissions source program ∧
        (∃ start, Tiles program.size start program.subroutines) ∧
        (program.subroutines.map Subroutine.name).Nodup ∧
        ∀ address : UInt16, address.toNat < program.size →
          program.subroutineName address
            = (openedBy (openingsFrom 0 emissions) address.toNat).getD Program.unknownSubroutine := by
  refine ⟨fun subroutine h => ?_, fun first second h => ?_, fun program h => ?_⟩
  · obtain ⟨size, hCause⟩ := tooLarge_of_assemble h
    cases hCause
  · obtain ⟨size, hCause⟩ := tooLarge_of_assemble h
    cases hCause
  · obtain ⟨emissions, layout, hLines, hLaid, hEncode, hTable, hCheck⟩ :=
      exists_laid_of_assemble h
    have hSize : program.size ≤ programSize := (Program.check_eq_ok_iff.1 hCheck).1
    have hResolves := hLaid.resolves hLines hEncode hSize
    have hLength : program.size = layout.address := length_of_encodeAll hEncode
    have hStop : layout.address ≤ programSize := hLength ▸ hSize
    have hOpenings : openingsFrom 0 (Laid.resolve layout.symbols emissions) = layout.openings := by
      rw [Laid.resolve, openingsFrom_map, hLaid.openings_eq]
    refine ⟨_, _, hResolves, ?_, ?_, fun address hAddress => ?_⟩
    · rw [hTable, hLength]
      exact ⟨_, tiles_ranges hStop hLaid.ascending⟩
    · have hDistinct := (List.nodup_append.1 hResolves.resolution.distinct).2.1
      have hLabels := (names_openingsFrom_sublist 0 _).nodup hDistinct
      rw [hOpenings] at hLabels
      rw [hTable]
      exact names_ranges_sublist.nodup hLabels
    · rw [hOpenings, ← name_ranges hStop hLaid.ascending (hLength ▸ hAddress),
        Program.subroutineName, hTable, Layout.subroutines]
      cases (ranges layout.address layout.openings).find? fun range => range.contains address with
      | none => rfl
      | some range => rfl

theorem subroutineTable_forwardSource :
    assemble forwardSource = .ok forwardProgram ∧ (1 : UInt16).toNat < forwardProgram.size ∧
      ∃ (symbols : Symbols) (emissions : List (Emission UInt32)),
        Resolves symbols emissions forwardSource forwardProgram ∧
        (∃ start, Tiles forwardProgram.size start forwardProgram.subroutines) ∧
        (forwardProgram.subroutines.map Subroutine.name).Nodup ∧
        forwardProgram.subroutineName 1
          = (openedBy (openingsFrom 0 emissions) 1).getD Program.unknownSubroutine := by
  obtain ⟨symbols, emissions, hResolves, hTiles, hNames, hName⟩ :=
    (subroutineTable_assemble forwardSource).2.2 forwardProgram assemble_forwardSource
  have hAddress : (1 : UInt16).toNat < forwardProgram.size := by decide
  exact ⟨assemble_forwardSource, hAddress, symbols, emissions, hResolves, hTiles, hNames,
    hName 1 hAddress⟩

end ControlUnit.Assembly
