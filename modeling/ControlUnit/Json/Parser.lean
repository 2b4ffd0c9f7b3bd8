import ControlUnit.Json.Value

/-!
# Reading JSON

A text is cut into tokens, and the tokens build one value. A value may be nested to
any depth: the containers that are open are kept in a list.

Reading is strict. White space is the four characters of the standard, control
characters may not stand in strings, a number has no leading zeros, and nothing may
follow the value.
-/

namespace ControlUnit.Json

/-! ## Tokens -/

/-- A piece of a JSON text. -/
inductive Token where
  | openArray
  | closeArray
  | openObject
  | closeObject
  | comma
  | colon
  /-- A number, a string or a keyword. -/
  | scalar (value : Json)

def isSpace (c : Char) : Bool := c == ' ' || c == '\t' || c == '\n' || c == '\r'

def punctuation? (c : Char) : Option Token :=
  if c = '[' then some .openArray
  else if c = ']' then some .closeArray
  else if c = '\x7b' then some .openObject
  else if c = '\x7d' then some .closeObject
  else if c = ',' then some .comma
  else if c = ':' then some .colon
  else none

/-- The characters before and after the next quotation mark that no backslash
precedes. -/
def cutQuote? : List Char → Option (List Char × List Char)
  | [] => none
  | '\\' :: c :: rest => (cutQuote? rest).map fun parts => ('\\' :: c :: parts.1, parts.2)
  | c :: rest =>
    if c = '\"' then some ([], rest) else (cutQuote? rest).map fun parts => (c :: parts.1, parts.2)

/-- What follows a quotation mark is shorter than the text before it. -/
theorem length_cutQuote? {text body after : List Char} (h : cutQuote? text = some (body, after)) :
    after.length < text.length := by
  fun_induction cutQuote? text generalizing body after with
  | case1 => cases h
  | case2 c rest ih =>
      obtain ⟨parts, hParts, hEq⟩ := Option.map_eq_some_iff.1 h
      cases hEq
      have := ih hParts
      simp only [List.length_cons]
      omega
  | case3 rest _ =>
      cases h
      simp
  | case4 c rest _ _ ih =>
      obtain ⟨parts, hParts, hEq⟩ := Option.map_eq_some_iff.1 h
      cases hEq
      have := ih hParts
      simp only [List.length_cons]
      omega

/-- Whether the characters between quotation marks are a string literal: escapes are
those of the standard, and there are no control characters. -/
def isBody (body : List Char) : Bool :=
  (units? body).isSome && body.all fun c => 0x20 ≤ c.toNat

/-- Whether a character can stand in a number or a keyword. -/
def isWordChar (c : Char) : Bool := c.isAlphanum || c == '-' || c == '+' || c == '.'

/-- What follows one or more digits at the start of a text. -/
def afterDigits? (text : List Char) : Option (List Char) :=
  match text with
  | c :: _ => if c.isDigit then some (text.dropWhile Char.isDigit) else none
  | [] => none

/-- What follows the whole part of a number: a zero, or digits that begin with no zero. -/
def afterWhole? : List Char → Option (List Char)
  | '0' :: rest => some rest
  | text => afterDigits? text

/-- What follows the fraction of a number, if it has one. -/
def afterFraction? : List Char → Option (List Char)
  | '.' :: rest => afterDigits? rest
  | text => some text

/-- What follows the exponent of a number, if it has one. -/
def afterExponent? : List Char → Option (List Char)
  | [] => some []
  | c :: rest =>
    if c = 'e' ∨ c = 'E' then
      match rest with
      | '+' :: digits => afterDigits? digits
      | '-' :: digits => afterDigits? digits
      | digits => afterDigits? digits
    else some (c :: rest)

def isNumeral (text : List Char) : Bool :=
  let unsigned := match text with
    | '-' :: rest => rest
    | _ => text
  (((afterWhole? unsigned).bind afterFraction?).bind afterExponent?) == some []

/-- The value of a keyword or a number. -/
def ofWord? (word : List Char) : Option Json :=
  if word = "null".toList then some null
  else if word = "true".toList then some (bool true)
  else if word = "false".toList then some (bool false)
  else if isNumeral word then some (number word)
  else none

/-- Add the tokens of a text to those found before, the last one in front. -/
def scan (found : List Token) (text : List Char) : Option (List Token) :=
  match text with
  | [] => some found
  | c :: rest =>
    if isSpace c then scan found rest
    else if c = '\"' then
      match _h : cutQuote? rest with
      | some (body, after) =>
        if isBody body then scan (.scalar (string body) :: found) after else none
      | none => none
    else
      match punctuation? c with
      | some token => scan (token :: found) rest
      | none =>
        match ofWord? (c :: rest.takeWhile isWordChar) with
        | some value => scan (.scalar value :: found) (rest.dropWhile isWordChar)
        | none => none
termination_by text.length
decreasing_by
  · simp
  · have := length_cutQuote? _h
    simp only [List.length_cons]
    omega
  · simp
  · have := (List.dropWhile_suffix isWordChar (l := rest)).length_le
    simp only [List.length_cons]
    omega

def tokens? (text : List Char) : Option (List Token) := (scan [] text).map List.reverse

/-! ## Values -/

/-- A container whose end has not been read. Its parts are kept the last one in front. -/
inductive Frame where
  | array (items : List Json)
  /-- An object, with the key whose value is being read. -/
  | object (members : List (List Char × Json)) (key : List Char)

/-- What may come next. -/
inductive Expectation where
  | value
  /-- The first item of an array, or its end. -/
  | firstItem
  /-- The first key of an object, or its end. -/
  | firstKey
  /-- A key, after the members read so far. -/
  | key (members : List (List Char × Json))
  /-- The colon after a key. -/
  | colon (members : List (List Char × Json)) (key : List Char)
  /-- A comma, or the end of the container to which the value belongs. -/
  | follow (value : Json)

/-- The containers that are open, the innermost in front, and what may come next. -/
structure Progress where
  frames : List Frame := []
  next : Expectation := .value

namespace Progress

/-- Begin a value with a token. -/
def begin? (frames : List Frame) : Token → Option Progress
  | .openArray => some ⟨frames, .firstItem⟩
  | .openObject => some ⟨frames, .firstKey⟩
  | .scalar value => some ⟨frames, .follow value⟩
  | _ => none

/-- Go on after a value: a comma, or the end of its container. -/
def follow? (value : Json) : List Frame → Token → Option Progress
  | .array items :: frames, .comma => some ⟨.array (value :: items) :: frames, .value⟩
  | .array items :: frames, .closeArray =>
    some ⟨frames, .follow (.array (value :: items).reverse)⟩
  | .object members key :: frames, .comma => some ⟨frames, .key ((key, value) :: members)⟩
  | .object members key :: frames, .closeObject =>
    some ⟨frames, .follow (.object ((key, value) :: members).reverse)⟩
  | _, _ => none

/-- Go on by one token. -/
def step? (progress : Progress) (token : Token) : Option Progress :=
  match progress.next, token with
  | .value, _ => begin? progress.frames token
  | .firstItem, .closeArray => some { progress with next := .follow (.array []) }
  | .firstItem, _ => begin? (.array [] :: progress.frames) token
  | .firstKey, .closeObject => some { progress with next := .follow (.object []) }
  | .firstKey, .scalar (.string key) => some { progress with next := .colon [] key }
  | .key members, .scalar (.string key) => some { progress with next := .colon members key }
  | .colon members key, .colon => some ⟨.object members key :: progress.frames, .value⟩
  | .follow value, _ => follow? value progress.frames token
  | _, _ => none

def run? (progress : Progress) : List Token → Option Progress
  | [] => some progress
  | token :: rest =>
    match progress.step? token with
    | some next => run? next rest
    | none => none

end Progress

/-- The value that a text writes. -/
def read? (text : String) : Option Json :=
  match (tokens? text.toList).bind (Progress.run? {}) with
  | some ⟨[], .follow value⟩ => some value
  | _ => none

end ControlUnit.Json
