import ControlUnit.Json.Value

/-!
# Printing JSON

The indented form of a JSON value: two spaces a level, every item and every member
on lines of its own, one space after a colon. An empty array or object stays on its
line.
-/

namespace ControlUnit.Json

/-- A new line at a level of indentation. -/
def newline (level : Nat) : String := String.ofList ('\n' :: List.replicate (2 * level) ' ')

def quoted (body : List Char) : String := String.ofList ('\"' :: body ++ ['\"'])

mutual

/-- The indented form of a value at a level. -/
def indented (level : Nat) : Json → String
  | null => "null"
  | bool true => "true"
  | bool false => "false"
  | number numeral => String.ofList numeral
  | string body => quoted body
  | array [] => "[]"
  | array (first :: rest) =>
    "[" ++ newline (level + 1) ++ indented (level + 1) first ++ moreItems (level + 1) rest
      ++ newline level ++ "]"
  | object [] => "\x7b\x7d"
  | object ((key, first) :: rest) =>
    "\x7b" ++ newline (level + 1) ++ quoted key ++ ": " ++ indented (level + 1) first
      ++ moreMembers (level + 1) rest ++ newline level ++ "\x7d"

/-- The items of an array after the first. -/
def moreItems (level : Nat) : List Json → String
  | [] => ""
  | item :: rest => "," ++ newline level ++ indented level item ++ moreItems level rest

/-- The members of an object after the first. -/
def moreMembers (level : Nat) : List (List Char × Json) → String
  | [] => ""
  | (key, value) :: rest =>
    "," ++ newline level ++ quoted key ++ ": " ++ indented level value ++ moreMembers level rest

end

def pretty (value : Json) : String := indented 0 value

end ControlUnit.Json
