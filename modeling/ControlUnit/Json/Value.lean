import ControlUnit.Text.Numeral

/-!
# JSON values

A JSON text as a tree of its literals. Numbers and strings keep the characters they
are written with: which number a numeral stands for depends on who asks, and a
string literal may spell half of a surrogate pair, which is no text at all.

`Json.natural?` and `Json.text?` read the literals; `Json.ofNat` and `Json.ofText`
write them.
-/

namespace ControlUnit

/-- A JSON value. -/
inductive Json where
  | null
  | bool (value : Bool)
  /-- A number, as the characters of its numeral. -/
  | number (numeral : List Char)
  /-- A string, as the characters between its quotation marks. -/
  | string (body : List Char)
  | array (items : List Json)
  /-- An object, as its members in order, each with the characters of its key. -/
  | object (members : List (List Char × Json))
  deriving Inhabited

namespace Json

/-! ## Strings -/

/-- The character after a backslash that stands for a given character, and that character. -/
def shortEscapes : List (Char × Char) :=
  [('\"', '\"'), ('\\', '\\'), ('/', '/'), ('b', '\x08'), ('f', '\x0c'), ('n', '\n'),
   ('r', '\r'), ('t', '\t')]

/-- A unit of the text that a string literal spells: a character, or a surrogate. -/
inductive TextUnit where
  | char (c : Char)
  | high (bits : Nat)
  | low (bits : Nat)
  deriving DecidableEq, Repr

/-- The unit that a four-digit escape spells. -/
def TextUnit.ofCode (code : Nat) : TextUnit :=
  if 0xD800 ≤ code ∧ code < 0xDC00 then .high (code - 0xD800)
  else if 0xDC00 ≤ code ∧ code < 0xE000 then .low (code - 0xDC00)
  else .char (Char.ofNat code)

/-- The units that a string literal spells. -/
def units? : List Char → Option (List TextUnit)
  | [] => some []
  | '\\' :: 'u' :: a :: b :: c :: d :: rest =>
    match Text.natural? 16 [a, b, c, d], units? rest with
    | some code, some more => some (.ofCode code :: more)
    | _, _ => none
  | '\\' :: c :: rest =>
    match shortEscapes.lookup c, units? rest with
    | some meaning, some more => some (.char meaning :: more)
    | _, _ => none
  | c :: rest => (units? rest).map (.char c :: ·)

/-- The characters of a sequence of units. A high surrogate stands before a low one
and nowhere else. -/
def pair? : List TextUnit → Option (List Char)
  | [] => some []
  | .char c :: rest => (pair? rest).map (c :: ·)
  | .high bits :: .low more :: rest =>
    (pair? rest).map (Char.ofNat (0x10000 + bits * 0x400 + more) :: ·)
  | _ => none

/-- The text that a string literal spells, if it is a text. -/
def decodeBody? (body : List Char) : Option String :=
  ((units? body).bind pair?).map String.ofList

/-- The escape of a character in a string literal, or the character itself. -/
def escape (c : Char) : List Char :=
  if c = '\"' then ['\\', '\"']
  else if c = '\\' then ['\\', '\\']
  else if c = '\x08' then ['\\', 'b']
  else if c = '\x0c' then ['\\', 'f']
  else if c = '\n' then ['\\', 'n']
  else if c = '\r' then ['\\', 'r']
  else if c = '\t' then ['\\', 't']
  else if c.toNat < 0x20 then "\\u".toList ++ (Nat.toDigits 16 c.toNat).leftpad 4 '0'
  else [c]

/-- The literal of a text. Only quotation marks, backslashes and control characters
are escaped. -/
def encodeBody (text : String) : List Char := text.toList.flatMap escape

/-! ## Reading and writing literals -/

/-- The natural number that a value is, if it is written with digits alone. -/
def natural? : Json → Option Nat
  | number numeral => Text.natural? 10 numeral
  | _ => none

def bool? : Json → Option Bool
  | bool value => some value
  | _ => none

def text? : Json → Option String
  | string body => decodeBody? body
  | _ => none

def items? : Json → Option (List Json)
  | array items => some items
  | _ => none

def ofNat (n : Nat) : Json := number (Nat.toDigits 10 n)

def ofText (text : String) : Json := string (encodeBody text)

/-- An object with the given keys. -/
def ofMembers (members : List (String × Json)) : Json :=
  object (members.map fun member => (encodeBody member.1, member.2))

end Json

end ControlUnit
