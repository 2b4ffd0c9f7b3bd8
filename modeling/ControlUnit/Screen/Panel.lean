import ControlUnit.Screen.Cell

/-!
# Panels

A panel is a framed part of the screen with a title in its upper border. What it holds
is a list or a text. An entry of a list has one style, a line of a text is made of
spans, each in its own style. A panel has a style too, which shows wherever nothing
else sets one: on its border and on its blanks.

How a panel comes to the screen is the matter of a renderer.
-/

namespace ControlUnit.Screen

/-- An entry of a list. -/
structure Item where
  text : String
  style : Style := .plain
  deriving DecidableEq, Repr

/-- A piece of a line in a style. -/
structure Span where
  text : String
  style : Style := .plain
  deriving DecidableEq, Repr

/-- What a panel holds. -/
inductive Content where
  | list (items : List Item)
  | text (lines : List (List Span))
  deriving Repr

/-- A framed part of the screen. -/
structure Panel where
  title : String
  /-- The style of the border and the title. -/
  border : Style := .plain
  /-- The style of everything that has no other. -/
  style : Style := .plain
  content : Content
  deriving Repr

end ControlUnit.Screen
