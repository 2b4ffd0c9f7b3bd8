import ControlUnit.Screen.Terminal

/-!
# Lists on a terminal

The renderer for terminals shows lists as it is documented.  Each narrow character is a cluster of
its own and one cell wide, whatever narrow character comes next, so those that a row begins with
stay in their columns.  What comes behind them does not move them: it may be joined with the last
of them, but it takes no cell before that one.

## Main results

* `take_glyphs_row` — what a row begins with, if its text begins with narrow characters.
* `Panel.inside_of_list` — entries that there is room for stand one below the other.
* `terminal_showsLists` — the renderer does as documented.
-/

namespace ControlUnit

/-! ## Characters that fill a cell -/

namespace Text

/-- A character that fills one cell and that no other such character goes on with. -/
structure Solid (c : Char) : Prop where
  width : charWidth c = 1
  role : clusterRole c = .other ∨ clusterRole c = .pictograph

instance (c : Char) : Decidable (Solid c) :=
  decidable_of_iff (charWidth c = 1 ∧ (clusterRole c = .other ∨ clusterRole c = .pictograph))
    ⟨fun h => ⟨h.1, h.2⟩, fun h => ⟨h.width, h.role⟩⟩

/-- The narrow characters are of this kind. -/
theorem solid_of_narrow {c : Char} (h : Screen.Narrow c) : Solid c := by
  have hPrintable : ∀ code < 95, Solid (Char.ofNat (32 + code)) := by decide +kernel
  rcases h with ⟨hFirst, hLast⟩ | rfl | rfl
  · have hFrom : 32 ≤ c.toNat := hFirst
    have hTo : c.toNat ≤ 126 := hLast
    have hSolid := hPrintable (c.toNat - 32) (by omega)
    rwa [Nat.add_sub_cancel' hFrom, Char.ofNat_toNat] at hSolid
  · decide +kernel
  · decide +kernel

variable {before : List Char} {last : Char}

theorem Solid.continuesCluster_eq {c d : Char} (hFirst : Solid c) (hSecond : Solid d) :
    continuesCluster [clusterRole c] (clusterRole d) = false := by
  rcases hFirst.role with hFirst | hFirst <;> rcases hSecond.role with hSecond | hSecond <;>
    rw [hFirst, hSecond] <;> decide

/-- Solid characters are clusters of their own before another one. -/
theorem clusters_append_of_solid (hBefore : ∀ c ∈ before, Solid c) (hLast : Solid last)
    (rest : List Char) :
    clusters (before ++ last :: rest) = before.map (fun c => [c]) ++ clusters (last :: rest) := by
  induction before with
  | nil => rfl
  | cons c more ih =>
      have hMore := ih fun d hMem => hBefore d (List.mem_cons_of_mem _ hMem)
      have hFirst := hBefore c List.mem_cons_self
      rw [List.map_cons, List.cons_append, List.cons_append, ← hMore]
      cases more with
      | nil => exact clusters_cons_cons (hFirst.continuesCluster_eq hLast)
      | cons d others =>
          have hSecond := hBefore d (List.mem_cons_of_mem _ List.mem_cons_self)
          exact clusters_cons_cons (hFirst.continuesCluster_eq hSecond)

/-- The first cluster begins with what has been read of it. -/
theorem exists_clustersFrom_eq (read text : List Char) :
    ∃ marks others, clustersFrom read text = (read.reverse ++ marks) :: others := by
  induction text generalizing read with
  | nil => exact ⟨[], [], by rw [clustersFrom, List.append_nil]⟩
  | cons c rest ih =>
      rw [clustersFrom]
      split
      · obtain ⟨marks, others, hRest⟩ := ih (c :: read)
        exact ⟨c :: marks, others, by rw [hRest, List.reverse_cons, List.append_assoc]; rfl⟩
      · exact ⟨[], _, by rw [List.append_nil]⟩

/-- A cluster that begins with a solid character has a width. -/
theorem Solid.width_cons_ne_zero {c : Char} (h : Solid c) (marks : List Char) :
    Text.width (c :: marks) ≠ 0 := by
  -- Of the characters of one cell only a carriage return can be without a width.
  have hReturn : c ≠ '\r' := by
    rintro rfl
    exact absurd h.role (by decide)
  have hBefore : widthBefore c marks.head? ≠ 0 := by
    rw [widthBefore]
    split
    · decide
    · split
      · decide
      · rw [if_neg fun hBreak => hReturn hBreak.2, h.width]
        decide
  rw [Text.width]
  omega

/-- What solid characters and more behind them come to, if the first of what is behind is solid
too. -/
theorem exists_clusters_eq (hBefore : ∀ c ∈ before, Solid c) (hLast : Solid last)
    (rest : List Char) :
    ∃ marks others, clusters (before ++ last :: rest)
      = before.map (fun c => [c]) ++ (last :: marks) :: others := by
  obtain ⟨marks, others, hRest⟩ := exists_clustersFrom_eq [last] rest
  exact ⟨marks, others, by rw [clusters_append_of_solid hBefore hLast, clusters, hRest]; rfl⟩

/-! ## Texts of one line -/

theorem dropReturns_of_not_mem {text : List Char} (h : '\n' ∉ text) :
    dropReturns text = text := by
  fun_induction dropReturns text with
  | case1 rest ih => simp at h
  | case2 c rest hNot ih => rw [ih fun hMem => h (List.mem_cons_of_mem _ hMem)]
  | case3 => rfl

theorem lines_of_not_mem {text : List Char} (h : '\n' ∉ text) (hNonempty : text ≠ []) :
    lines text = [text] := by
  induction text with
  | nil => exact absurd rfl hNonempty
  | cons c rest ih =>
      have hFirst : c ≠ '\n' := fun hFeed => h (by simp [hFeed])
      have hRest : '\n' ∉ rest := fun hMem => h (List.mem_cons_of_mem _ hMem)
      rw [lines, if_neg hFirst]
      cases rest with
      | nil => rfl
      | cons d more => rw [ih hRest (List.cons_ne_nil _ _)]

end Text

/-! ## Rows that begin with such characters -/

namespace Screen

/-- What is one cell each is put from the first place on, as far as there is room. -/
theorem take_packed {α : Type} (room : Nat) (filler : α) (parts : List α) (more : List (List α)) :
    (packed room filler (parts.map (fun part => [part]) ++ more)).take parts.length
      = parts.take room := by
  induction parts generalizing room with
  | nil => simp
  | cons part others ih =>
      rw [List.map_cons, List.cons_append, packed]
      cases room with
      | zero => simp
      | succ room => simp [ih]

/-- What there is room for is put one after the other, and the rest is filled up. -/
theorem packed_of_le {α : Type} {room : Nat} (filler : α) {pieces : List (List α)}
    (h : pieces.flatten.length ≤ room) :
    packed room filler pieces
      = pieces.flatten ++ List.replicate (room - pieces.flatten.length) filler := by
  induction pieces generalizing room with
  | nil => rfl
  | cons piece rest ih =>
      rw [List.flatten_cons, List.length_append] at h
      have hRest := ih (show rest.flatten.length ≤ room - piece.length by omega)
      rw [packed, if_pos (by omega), hRest, List.flatten_cons, List.length_append, Nat.sub_sub,
        List.append_assoc]

theorem joinMarksTo_cons {held next : List Char} (hHeld : Text.width held = 1)
    (hNext : Text.width next ≠ 0) (rest : List (List Char)) :
    joinMarksTo held (next :: rest) = held :: joinMarks (next :: rest) := by
  rw [joinMarksTo, if_neg (by omega), if_neg hNext, joinMarks]

/-- Nothing is joined with a character of one cell before a cluster that has a width. -/
theorem joinMarks_append {before cluster : List Char}
    (hBefore : ∀ c ∈ before, Text.charWidth c = 1) (hCluster : Text.width cluster ≠ 0)
    (others : List (List Char)) :
    joinMarks (before.map (fun c => [c]) ++ cluster :: others)
      = before.map (fun c => [c]) ++ joinMarks (cluster :: others) := by
  have hOne : ∀ c ∈ before, Text.width [c] = 1 := fun c hMem =>
    (Text.width_singleton c).trans (hBefore c hMem)
  clear hBefore
  induction before with
  | nil => rfl
  | cons c more ih =>
      have hFirst := hOne c List.mem_cons_self
      have hMore := ih fun d hMem => hOne d (List.mem_cons_of_mem _ hMem)
      rw [List.map_cons, List.cons_append, List.cons_append, ← hMore]
      cases more with
      | nil => exact joinMarksTo_cons hFirst hCluster others
      | cons d rest =>
          have hSecond := hOne d (List.mem_cons_of_mem _ List.mem_cons_self)
          exact joinMarksTo_cons hFirst (by rw [hSecond]; decide) _

/-- The row of an entry of one line. -/
def Item.row (width : Nat) (base : Style) (item : Item) : List Cell :=
  let style := item.style.above base
  Screen.row width (.blank style)
    ((joinMarks (Text.clusters item.text.toList)).map fun glyph => ⟨glyph, style⟩)

theorem Item.rows_of_not_mem {item : Item} (h : '\n' ∉ item.text.toList)
    (hNonempty : item.text.toList ≠ []) (width : Nat) (base : Style) :
    item.rows width base = [item.row width base] := by
  rw [Item.rows, Text.dropReturns_of_not_mem h, Text.lines_of_not_mem h hNonempty]
  rfl

/-- A row of a text that begins with characters that fill a cell each begins with these cells. -/
theorem take_glyphs_row {item : Item} {before rest : List Char} {last : Char}
    (hText : item.text.toList = before ++ last :: rest) (hBefore : ∀ c ∈ before, Text.Solid c)
    (hLast : Text.Solid last) (width : Nat) (base : Style) :
    ((item.row width base).take before.length).map Cell.glyph
      = (before.take width).map fun c => [c] := by
  obtain ⟨marks, others, hClusters⟩ := Text.exists_clusters_eq hBefore hLast rest
  have hJoined := joinMarks_append (fun c hMem => (hBefore c hMem).width)
    (hLast.width_cons_ne_zero marks) others
  -- Up to the last of these characters no cell is hidden behind another, so the places are theirs.
  let style := item.style.above base
  let styled (glyph : List Char) : Cell := ⟨glyph, style⟩
  have hSpread : ((before.map fun c => [c]).map styled).map Cell.spread
      = (before.map fun c => Cell.ofChar c style).map fun cell => [cell] := by
    rw [List.map_map, List.map_map, List.map_map]
    refine List.map_congr_left fun c hMem => ?_
    show Cell.spread ⟨[c], style⟩ = _
    rw [Cell.spread, Text.width_singleton, (hBefore c hMem).width]
    rfl
  have hTake := take_packed width (Cell.blank style) (before.map fun c => Cell.ofChar c style)
    (((joinMarks ((last :: marks) :: others)).map styled).map Cell.spread)
  rw [List.length_map] at hTake
  rw [Item.row, hText, hClusters, hJoined, List.map_append, Screen.row, List.map_append, hSpread,
    hTake, ← List.map_take, List.map_map]
  rfl

/-- The inside of a panel is shown one row down and one column to the right, and there is nothing
but the border behind it. -/
theorem glyphAt_render (panel : Panel) (width : Nat) {height index : Nat} (column : Nat)
    (hIndex : index < height - 2) :
    glyphAt (panel.render width height) (index + 1) (column + 1)
        = glyphAt (panel.inside (width - 2) (height - 2)) index column ∨
      width - 2 ≤ column ∧
        glyphAt (panel.render width height) (index + 1) (column + 1) = some ['│'] := by
  have hLength : (panel.inside (width - 2) (height - 2)).length = height - 2 := length_packed ..
  obtain ⟨cells, hCells⟩ : ∃ cells, (panel.inside (width - 2) (height - 2))[index]? = some cells :=
    ⟨_, List.getElem?_eq_getElem (by omega)⟩
  have hWidth : cells.length = width - 2 :=
    Panel.width_of_mem_inside (List.mem_of_getElem? hCells)
  have hRow : (panel.render width height)[index + 1]?
      = some (Panel.framed (panel.border.above panel.style) '│' cells '│') := by
    rw [Panel.render, List.append_assoc, List.singleton_append, List.getElem?_cons_succ,
      List.getElem?_append_left (by rw [List.length_map]; omega), List.getElem?_map, hCells]
    rfl
  rw [glyphAt, glyphAt, hRow, hCells, Option.bind_some, Option.bind_some, Panel.framed,
    List.cons_append, List.getElem?_cons_succ]
  rcases Nat.lt_or_ge column cells.length with hColumn | hColumn
  · exact .inl (by rw [List.getElem?_append_left hColumn])
  · rw [List.getElem?_append_right hColumn, List.getElem?_eq_none hColumn]
    cases column - cells.length with
    | zero => exact .inr ⟨hWidth ▸ hColumn, rfl⟩
    | succ place => exact .inl (by simp)

theorem glyphAt_render_of_lt (panel : Panel) {width height index column : Nat}
    (hIndex : index < height - 2) (hColumn : column < width - 2) :
    glyphAt (panel.render width height) (index + 1) (column + 1)
      = glyphAt (panel.inside (width - 2) (height - 2)) index column :=
  (glyphAt_render panel width column hIndex).resolve_right fun h => Nat.not_lt.2 h.1 hColumn

/-- Entries that there is room for fill the inside of a panel from the top. -/
theorem Panel.inside_of_list {panel : Panel} {items : List Item} {width height : Nat}
    (hList : panel.content = .list items)
    (hRoom : (terminal.allRows width panel.style items).length ≤ height) :
    panel.inside width height
      = terminal.allRows width panel.style items
        ++ List.replicate (height - (terminal.allRows width panel.style items).length)
          (List.replicate width (.blank panel.style)) := by
  have hRows : terminal.allRows width panel.style items
      = (items.map fun item => item.rows width panel.style).flatten := List.flatMap_def
  rw [hRows] at hRoom ⊢
  rw [Panel.inside, hList]
  exact packed_of_le _ hRoom

/-- **Lists on a terminal.**  The renderer for terminals shows lists as it is documented. -/
theorem terminal_showsLists (width height : UInt16) : terminal.ShowsLists width height where
  oneRow item room base hNonempty hFeed := by
    show (item.rows room base).length = 1
    rw [Item.rows_of_not_mem hFeed hNonempty]
    rfl
  columns item room base before last rest row hFeed hText hBefore hLast hRow := by
    have hNonempty : item.text.toList ≠ [] := by
      rw [hText]
      exact List.append_ne_nil_of_right_ne_nil _ (List.cons_ne_nil _ _)
    have hRows : item.rows room base = [row] := hRow
    rw [Item.rows_of_not_mem hFeed hNonempty, List.singleton_inj] at hRows
    rw [← hRows]
    exact take_glyphs_row hText (fun c hMem => Text.solid_of_narrow (hBefore c hMem))
      (Text.solid_of_narrow hLast) room base
  inside panel items index column row hList hRoom hRow hColumn := by
    have hIndex := (List.getElem?_eq_some_iff.1 hRow).1
    show glyphAt (panel.render width.toNat height.toNat) (index + 1) (column + 1) = _
    rw [glyphAt_render_of_lt panel (by omega) hColumn, Panel.inside_of_list hList hRoom, glyphAt,
      List.getElem?_append_left hIndex, hRow]
    rfl
  below panel items index column hList hRows hIndex hColumn := by
    show glyphAt (panel.render width.toNat height.toNat) (index + 1) (column + 1) = _
    rw [glyphAt_render_of_lt panel hIndex hColumn, Panel.inside_of_list hList (by omega), glyphAt,
      List.getElem?_append_right hRows, List.getElem?_replicate_of_lt (by omega), Option.bind_some,
      List.getElem?_replicate_of_lt hColumn]
    rfl
  right panel index column hIndex hColumn := by
    rcases glyphAt_render panel width.toNat column hIndex with hSame | ⟨-, hBar⟩
    · refine .inl (hSame.trans ?_)
      rw [glyphAt]
      cases hCells : (panel.inside (width.toNat - 2) (height.toNat - 2))[index]? with
      | none => rfl
      | some cells =>
          have hWidth : cells.length = width.toNat - 2 :=
            Panel.width_of_mem_inside (List.mem_of_getElem? hCells)
          rw [Option.bind_some, List.getElem?_eq_none (by omega)]
          rfl
    · exact .inr hBar

end Screen

end ControlUnit
