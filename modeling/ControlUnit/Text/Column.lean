/-!
# Columns

Padding a text with spaces to the width of a column. A text as wide as its column
or wider is left alone; width counts characters.
-/

namespace ControlUnit.Text

/-- A text with spaces after it up to a width. -/
def flushLeft (width : Nat) (text : String) : String :=
  String.ofList (text.toList.rightpad width ' ')

/-- A text with spaces before it up to a width. -/
def flushRight (width : Nat) (text : String) : String :=
  String.ofList (text.toList.leftpad width ' ')

/-- Several lines, each ended by a line feed. -/
def ofLines (texts : List String) : String :=
  String.join (texts.map fun line => line ++ "\n")

end ControlUnit.Text
