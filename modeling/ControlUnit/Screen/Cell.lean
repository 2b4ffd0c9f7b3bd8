/-!
# Screen cells

A screen is made of cells, each with what it shows and a style. A block of cells is a
list of rows; blocks of equal height can be put side by side, blocks of equal width
one above the other.
-/

namespace ControlUnit.Screen

/-! ## Styles -/

inductive Colour where
  | cyan
  | yellow
  | red
  | green
  | white
  | magenta
  | blue
  | darkGray
  deriving DecidableEq, Repr

def Colour.name : Colour → String
  | cyan => "Cyan"
  | yellow => "Yellow"
  | red => "Red"
  | green => "Green"
  | white => "White"
  | magenta => "Magenta"
  | blue => "Blue"
  | darkGray => "DarkGray"

/-- A style: a colour, unless the colour is that of the terminal, and a weight. -/
structure Style where
  colour? : Option Colour := none
  bold : Bool := false
  deriving DecidableEq, Repr, Inhabited

namespace Style

/-- The style of the terminal. -/
def plain : Style := {}

/-- A colour in the usual weight. -/
def ofColour (colour : Colour) : Style := { colour? := some colour }

/-- A style over another one, which shows where the first says nothing. -/
def above (upper lower : Style) : Style where
  colour? := upper.colour?.or lower.colour?
  bold := upper.bold || lower.bold

def name (style : Style) : String :=
  let colour := match style.colour? with
    | some colour => colour.name
    | none => "Reset"
  if style.bold then colour ++ " BOLD" else colour

end Style

/-! ## Cells and blocks -/

/-- A cell of the screen, or a cluster that is to be put there. -/
structure Cell where
  glyph : List Char
  style : Style
  deriving DecidableEq, Repr, Inhabited

/-- Rows of cells. -/
abbrev Block := List (List Cell)

namespace Cell

/-- A cell of one character. -/
def ofChar (glyph : Char) (style : Style) : Cell := ⟨[glyph], style⟩

def blank (style : Style) : Cell := .ofChar ' ' style

end Cell

/-- What the cell at a row and a column of a block shows. -/
def glyphAt (block : Block) (row column : Nat) : Option (List Char) :=
  ((block[row]?).bind fun cells => cells[column]?).map Cell.glyph

def beside (left right : Block) : Block := List.zipWith (· ++ ·) left right

def rowText (row : List Cell) : String := String.ofList (row.flatMap Cell.glyph)

/-- A row as pieces of one style each, as long as possible. -/
def rowRuns : List Cell → List (List Char × Style)
  | [] => []
  | cell :: rest =>
    match rowRuns rest with
    | (glyphs, style) :: more =>
      if cell.style = style then (cell.glyph ++ glyphs, style) :: more
      else (cell.glyph, cell.style) :: (glyphs, style) :: more
    | [] => [(cell.glyph, cell.style)]

end ControlUnit.Screen
