import ControlUnit.Screen.Renderer
import ControlUnit.Text.Cluster
import ControlUnit.Text.Line
import ControlUnit.Text.Width

/-!
# A renderer for terminals

One renderer, for terminals that know the clusters and the widths of Unicode. The
debugger relies on nothing that is particular to it.

A cell shows a cluster of characters. A cluster wider than one cell hides the cells
behind its own, which stay blank. What a panel holds fills the inside from the top, and
a row is filled with clusters from the left; what does not fit is cut off.

An entry of a list has as many rows as its text has lines, and its style covers the
whole width of the inside; an entry is shown only if all its rows fit. A line of a text
is one row. Characters without a width are treated differently: in a list they are
shown with the character before them, in a text they are left out.

## Main results

* `length_packed` — what is filled is filled to the last place.
* `eq_or_exists_of_mem_packed` — a place that is filled holds the filler or a part of
  one of the pieces.
* `Panel.height_render`, `Panel.width_of_mem_render` — a panel has the width and the
  height that it is drawn with.
-/

namespace ControlUnit.Screen

/-! ## Filling -/

/-- Pieces one after the other in a room, up to the first one that does not fit. The
rest of the room is filled up. -/
def packed {α : Type} (room : Nat) (filler : α) : List (List α) → List α
  | [] => List.replicate room filler
  | piece :: rest =>
    if piece.length ≤ room then piece ++ packed (room - piece.length) filler rest
    else List.replicate room filler

/-- What is filled is filled to the last place. -/
theorem length_packed {α : Type} (room : Nat) (filler : α) (pieces : List (List α)) :
    (packed room filler pieces).length = room := by
  induction pieces generalizing room with
  | nil => simp [packed]
  | cons piece rest ih =>
      by_cases h : piece.length ≤ room
      · simp only [packed, h, if_true, List.length_append, ih]
        omega
      · simp [packed, h]

/-- A place that is filled holds the filler or a part of one of the pieces. -/
theorem eq_or_exists_of_mem_packed {α : Type} {room : Nat} {filler part : α}
    {pieces : List (List α)} (h : part ∈ packed room filler pieces) :
    part = filler ∨ ∃ piece ∈ pieces, part ∈ piece := by
  induction pieces generalizing room with
  | nil => exact .inl (List.eq_of_mem_replicate h)
  | cons piece rest ih =>
      rw [packed] at h
      split at h
      · rcases List.mem_append.1 h with hPart | hPart
        · exact .inr ⟨piece, by simp, hPart⟩
        · rcases ih hPart with hFiller | ⟨found, hMem, hPart⟩
          · exact .inl hFiller
          · exact .inr ⟨found, by simp [hMem], hPart⟩
      · exact .inl (List.eq_of_mem_replicate h)

/-! ## Clusters in cells -/

namespace Cell

/-- A cell behind one that takes more than its own place. -/
def hidden : Cell := .blank .plain

/-- The cells that are taken by what a cell shows. -/
def spread (cell : Cell) : List Cell :=
  match Text.width cell.glyph with
  | 0 => []
  | behind + 1 => cell :: List.replicate behind hidden

end Cell

/-- The clusters of a text in one style. -/
def cells (style : Style) (text : List Char) : List Cell :=
  (Text.clusters text).map fun glyph => ⟨glyph, style⟩

/-- A row of a width, filled with clusters and then with a blank. -/
def row (width : Nat) (blank : Cell) (clusters : List Cell) : List Cell :=
  packed width blank (clusters.map Cell.spread)

/-! ## Rows -/

/-- Clusters joined with the ones without a width that come after them, the first of
them being given. What comes after a cluster wider than one cell would be in a hidden
cell and is left out. A first cluster without a width is joined with the next one. -/
def joinMarksTo (held : List Char) : List (List Char) → List (List Char)
  | [] => [held]
  | next :: rest =>
    if Text.width held = 0 ∨ Text.width held = 1 ∧ Text.width next = 0 then
      joinMarksTo (held ++ next) rest
    else if Text.width next = 0 then joinMarksTo held rest
    else held :: joinMarksTo next rest

/-- Clusters, each joined with the ones without a width that come after it. -/
def joinMarks : List (List Char) → List (List Char)
  | [] => []
  | cluster :: rest => joinMarksTo cluster rest

/-- The rows of an entry of a list on a terminal. -/
def Item.rows (width : Nat) (base : Style) (item : Item) : Block :=
  let style := item.style.above base
  (Text.lines (Text.dropReturns item.text.toList)).map fun line =>
    row width (.blank style) ((joinMarks (Text.clusters line)).map fun glyph => ⟨glyph, style⟩)

/-- The row of a line of a text on a terminal. A cluster wider than the whole row is left out. -/
def lineRow (width : Nat) (base : Style) (line : List Span) : List Cell :=
  row width (.blank base)
    ((line.flatMap fun span => cells (span.style.above base) span.text.toList).filter fun cell =>
      Text.width cell.glyph ≤ width)

/-! ## Panels -/

namespace Panel

/-- The inside of a panel on a terminal. -/
def inside (panel : Panel) (width height : Nat) : Block :=
  packed height (List.replicate width (.blank panel.style)) <|
    match panel.content with
    | .list items => items.map fun item => item.rows width panel.style
    | .text lines => lines.map fun line => [lineRow width panel.style line]

/-- A row of a panel: a cell of the border, the inside, a cell of the border. -/
def framed (style : Style) (left : Char) (inside : List Cell) (right : Char) : List Cell :=
  .ofChar left style :: inside ++ [.ofChar right style]

/-- A panel on a terminal, of a width and a height, which include its border. -/
def render (panel : Panel) (width height : Nat) : Block :=
  let style := panel.border.above panel.style
  let bar := Cell.ofChar '─' style
  let inner := width - 2
  [framed style '┌' (row inner bar (cells style panel.title.toList)) '┐']
    ++ (panel.inside inner (height - 2)).map (fun row => framed style '│' row '│')
    ++ [framed style '└' (List.replicate inner bar) '┘']

/-- A panel has the height that it is drawn with, if there is room for its border. -/
theorem height_render (panel : Panel) (width : Nat) {height : Nat} (h : 2 ≤ height) :
    (panel.render width height).length = height := by
  simp only [render, inside, List.length_append, List.length_map, length_packed,
    List.length_singleton]
  omega

theorem width_of_mem_rows {item : Item} {width : Nat} {base : Style} {cells : List Cell}
    (h : cells ∈ item.rows width base) : cells.length = width := by
  obtain ⟨line, -, rfl⟩ := List.mem_map.1 h
  exact length_packed ..

theorem width_of_mem_inside {panel : Panel} {width height : Nat} {cells : List Cell}
    (h : cells ∈ panel.inside width height) : cells.length = width := by
  rcases eq_or_exists_of_mem_packed h with rfl | ⟨piece, hPiece, hCells⟩
  · simp
  · revert hPiece
    cases panel.content with
    | list items =>
        intro hPiece
        obtain ⟨item, -, rfl⟩ := List.mem_map.1 hPiece
        exact width_of_mem_rows hCells
    | text lines =>
        intro hPiece
        obtain ⟨line, -, rfl⟩ := List.mem_map.1 hPiece
        rw [List.mem_singleton.1 hCells]
        exact length_packed ..

/-- Every row of a panel has the width that the panel is drawn with, if there is room for
its border. -/
theorem width_of_mem_render {panel : Panel} {width height : Nat} {cells : List Cell}
    (hWidth : 2 ≤ width) (h : cells ∈ panel.render width height) : cells.length = width := by
  simp only [render, List.mem_append, List.mem_singleton, List.mem_map] at h
  rcases h with (rfl | ⟨inner, hInner, rfl⟩) | rfl
  · simp only [framed, row, List.length_append, List.length_cons, length_packed, List.length_nil]
    omega
  · simp only [framed, List.length_append, List.length_cons, width_of_mem_inside hInner,
      List.length_nil]
    omega
  · simp only [framed, List.length_append, List.length_cons, List.length_replicate,
      List.length_nil]
    omega

end Panel

/-- The renderer for terminals. -/
def terminal : Renderer where
  rows width base item := item.rows width base
  render panel width height := panel.render width.toNat height.toNat

end ControlUnit.Screen
