import ControlUnit.Screen.Panel

/-!
# Renderers

A renderer puts panels on the screen. Which characters fill a cell, which of them share
one, and how entries and lines are laid out is known to the renderer alone. Whoever
makes panels relies on what is documented of it, and on nothing else.

## Main definitions

* `Renderer.ShowsLists` — what is documented of the panels that hold a list.
-/

namespace ControlUnit.Screen

/-- A way to show panels. -/
structure Renderer where
  /-- The rows of an entry of a list, for the width of the room it is given and the style
  below its own. -/
  rows : Nat → Style → Item → Block
  /-- The cells of a panel of a width and a height, which include its border. -/
  render : Panel → UInt16 → UInt16 → Block

/-- A character that fills one cell, and that shares it with no other such character:
the printable ones of ASCII, and two marks. -/
def Narrow (c : Char) : Prop := (' ' ≤ c ∧ c ≤ '~') ∨ c = '●' ∨ c = '▶'

instance (c : Char) : Decidable (Narrow c) :=
  inferInstanceAs (Decidable ((' ' ≤ c ∧ c ≤ '~') ∨ c = '●' ∨ c = '▶'))

namespace Renderer

/-- The rows of the entries of a list, one below the other. -/
def allRows (renderer : Renderer) (room : Nat) (base : Style) (items : List Item) : Block :=
  items.flatMap (renderer.rows room base)

/-- What is documented of the panels of a width and a height that hold a list. -/
structure ShowsLists (renderer : Renderer) (width height : UInt16) : Prop where
  /-- An entry has a row for each line of its text, so it has one row if no line breaks. -/
  oneRow : ∀ item room base, item.text.toList ≠ [] → '\n' ∉ item.text.toList →
    (renderer.rows room base item).length = 1
  /-- A row that begins with narrow characters shows each of them in a cell of its own, up
  to the last of them; with that one the characters behind it may share the cell. -/
  columns : ∀ item room base before last rest row, '\n' ∉ item.text.toList →
    item.text.toList = before ++ last :: rest → (∀ c ∈ before, Narrow c) → Narrow last →
    renderer.rows room base item = [row] →
      (row.take before.length).map Cell.glyph = (before.take room).map fun c => [c]
  /-- The rows of the entries are shown from the top of the inside on, if there is room for
  all of them. The inside is what the border leaves, one row and one column at each end. -/
  inside : ∀ panel items index column row, panel.content = .list items →
    (renderer.allRows (width.toNat - 2) panel.style items).length ≤ height.toNat - 2 →
    (renderer.allRows (width.toNat - 2) panel.style items)[index]? = some row →
    column < width.toNat - 2 →
      glyphAt (renderer.render panel width height) (index + 1) (column + 1)
        = (row[column]?).map Cell.glyph
  /-- Below these rows the inside is blank. -/
  below : ∀ panel items index column, panel.content = .list items →
    (renderer.allRows (width.toNat - 2) panel.style items).length ≤ index →
    index < height.toNat - 2 → column < width.toNat - 2 →
      glyphAt (renderer.render panel width height) (index + 1) (column + 1) = some [' ']
  /-- To the right of the inside there is the border, and nothing beyond it. -/
  right : ∀ panel index column, index < height.toNat - 2 → width.toNat - 2 ≤ column →
    glyphAt (renderer.render panel width height) (index + 1) (column + 1) = none ∨
      glyphAt (renderer.render panel width height) (index + 1) (column + 1) = some ['│']

end Renderer

end ControlUnit.Screen
