import ControlUnit.Json.Parser

/-!
# Records in JSON

A record is written as an object with the names of its fields, or as an array of its
fields in their order. In an object a field may not occur twice, and members that are
no fields are passed over, whatever they hold. An array may end early, but not have
more items than there are fields.
-/

namespace ControlUnit.Json

/-- The values of a field among the members of an object: none, one, or too many. -/
def member? (members : List (String × Json)) (name : String) : Option (Option Json) :=
  match members.filter fun member => member.1 == name with
  | [] => some none
  | [member] => some (some member.2)
  | _ => none

/-- Members with their keys read as texts. -/
def textKeys? : List (List Char × Json) → Option (List (String × Json))
  | [] => some []
  | (key, value) :: rest =>
    match decodeBody? key, textKeys? rest with
    | some name, some more => some ((name, value) :: more)
    | _, _ => none

/-- The values of named fields, as far as the record gives them. -/
def fields? (names : List String) : Json → Option (List (Option Json))
  | array items =>
    if items.length ≤ names.length then some ((items.map some).rightpad names.length none) else none
  | object members =>
    match textKeys? members with
    | some members => names.mapM (member? members)
    | none => none
  | _ => none

def required? {α : Type} (read : Json → Option α) : Option Json → Option α
  | some value => read value
  | none => none

def optional? {α : Type} (read : Json → Option α) (standard : α) : Option Json → Option α
  | some value => read value
  | none => some standard

def below? (limit : Nat) (value : Json) : Option Nat :=
  match value.natural? with
  | some n => if n < limit then some n else none
  | none => none

/-- A list, each item of which is read in one way. -/
def list? {α : Type} (read : Json → Option α) : Json → Option (List α)
  | array items => items.mapM read
  | _ => none

end ControlUnit.Json
