import ControlUnit.Listing
import ControlUnit.Text.Line

/-!
# Program images

The text form in which programs are stored. A line holds a word, as at most six
digits of base sixteen, or the range of a subroutine, as `@name start end` with
addresses of base ten. Blank lines say nothing.

A text is refused at its first malformed line. A text without one is refused if the
program it spells cannot be loaded.

## Main results

* `Image.read_eq_ok_iff` — what a text must be to spell a program.
-/

namespace ControlUnit.Image

/-! ## Lines -/

/-- What a line of an image says. -/
inductive Entry where
  | blank
  | word (bits : UInt32)
  | subroutine (range : Subroutine)
  deriving DecidableEq, Repr

/-- What is wrong with a line of an image. -/
inductive LineError where
  /-- The line is neither a word nor a range. -/
  | notAWord (text : String)
  /-- A range without exactly a name, a start and an end. -/
  | notARange
  /-- An end of a range that is no address. -/
  | notAnAddress (text : String)
  deriving DecidableEq, Repr

def LineError.message : LineError → String
  | notAWord text => "expected a 24-bit hex word, found `" ++ text ++ "`"
  | notARange => "expected `@name start end`"
  | notAnAddress text => "invalid address `" ++ text ++ "`"

/-- The most characters a word can have. -/
def wordWidth : Nat := 6

/-- A word of at most six characters, one of which may be a plus sign. -/
def word? (text : List Char) : Option UInt32 :=
  if text.length ≤ wordWidth then (Text.unsigned? 16 text).map UInt32.ofNat else none

/-- An address below 65536, which may have a plus sign. -/
def address? (text : List Char) : Option UInt16 :=
  match Text.unsigned? 10 text with
  | some n => if n < UInt16.size then some (.ofNat n) else none
  | none => none

/-- The range that the text after an at sign declares. -/
def range (text : List Char) : Except LineError Subroutine :=
  match Text.words text with
  | [name, start, stop] =>
    match address? start, address? stop with
    | some start, some stop => .ok ⟨String.ofList name, start, stop⟩
    | none, _ => .error (.notAnAddress (String.ofList start))
    | some _, none => .error (.notAnAddress (String.ofList stop))
  | _ => .error .notARange

/-- What a line says. -/
def entry (line : List Char) : Except LineError Entry :=
  match Text.content line with
  | [] => .ok .blank
  | '@' :: declaration => (range declaration).map .subroutine
  | text =>
    match word? text with
    | some bits => .ok (.word bits)
    | none => .error (.notAWord (String.ofList text))

/-! ## Texts -/

/-- Why a text is no image. -/
inductive ReadError where
  /-- The first malformed line. -/
  | malformedLine (line : Nat) (cause : LineError)
  /-- The program that the text spells cannot be loaded. -/
  | program (cause : ProgramError)
  deriving DecidableEq, Repr

def ReadError.message : ReadError → String
  | malformedLine line cause => "parse error on line " ++ Text.decimal line ++ ": " ++ cause.message
  | program cause => cause.message

/-- The entries of numbered lines, up to the first malformed one. -/
def entries : List (List Char × Nat) → Except ReadError (List Entry)
  | [] => .ok []
  | (line, number) :: rest =>
    match entry line with
    | .error cause => .error (.malformedLine number cause)
    | .ok first =>
      match entries rest with
      | .error reason => .error reason
      | .ok more => .ok (first :: more)

def Entry.word? : Entry → Option UInt32
  | .word bits => some bits
  | _ => none

def Entry.subroutine? : Entry → Option Subroutine
  | .subroutine range => some range
  | _ => none

/-- The program with the words and the ranges of entries, each in order. -/
def ofEntries (entries : List Entry) : Program where
  words := entries.filterMap Entry.word?
  subroutines := entries.filterMap Entry.subroutine?

/-- The program that an image text spells. -/
def read (text : String) : Except ReadError Program :=
  match entries (Text.numberedLines text.toList) with
  | .error reason => .error reason
  | .ok entries =>
    let program := ofEntries entries
    match program.check with
    | .ok () => .ok program
    | .error cause => .error (.program cause)

/-- The declaration of a range in an image. -/
def rangeText (range : Subroutine) : String :=
  "@" ++ range.name ++ " " ++ Text.decimal range.start.toNat ++ " " ++ Text.decimal range.stop.toNat

/-- The line of a word in an image, with its address as a comment. -/
def wordLine (address : Nat) (word : UInt32) : String :=
  Listing.wordDigits (significant word) ++ " ; " ++ Text.padded 10 3 address

/-- The lines of the image of a program. -/
def imageLines (program : Program) : List String :=
  ["; cu8 program image", "; " ++ Text.decimal program.size ++ " words"]
    ++ program.subroutines.map rangeText
    ++ [""]
    ++ program.words.zipIdx.map fun cell => wordLine cell.2 cell.1

/-- The image text of a program. -/
def render (program : Program) : String := Text.ofLines (imageLines program)

/-! ## What can be read -/

/-- Entries are read exactly if every line is well formed, one entry a line. -/
theorem entries_eq_ok_iff {lines : List (List Char × Nat)} {found : List Entry} :
    entries lines = .ok found ↔ lines.map (fun line => entry line.1) = found.map .ok := by
  induction lines generalizing found with
  | nil => cases found <;> simp [entries]
  | cons line rest ih =>
      obtain ⟨text, number⟩ := line
      rw [entries]
      cases hEntry : entry text with
      | error cause => cases found <;> simp [hEntry]
      | ok first =>
          cases found with
          | nil => cases entries rest <;> simp
          | cons head tail =>
              simp only [List.map_cons, hEntry, List.cons.injEq, Except.ok.injEq]
              rw [← ih]
              cases entries rest <;> simp

theorem entries_numberedLines_eq_ok_iff {text : List Char} {found : List Entry} :
    entries (Text.numberedLines text) = .ok found ↔
      (Text.lines text).map entry = found.map .ok := by
  have hLines : (Text.numberedLines text).map (fun line => entry line.1)
      = (Text.lines text).map entry := by
    conv => rhs; rw [← List.zipIdx_map_fst 1 (Text.lines text), List.map_map]
    rfl
  rw [entries_eq_ok_iff, hLines]

/-- A text spells a program exactly if every line of it is well formed, its entries
are those of the program, and the program can be loaded. -/
theorem read_eq_ok_iff {text : String} {program : Program} :
    read text = .ok program ↔
      ∃ found, (Text.lines text.toList).map entry = found.map .ok ∧
        program = ofEntries found ∧ program.check = .ok () := by
  simp only [read, ← entries_numberedLines_eq_ok_iff]
  cases hRead : entries (Text.numberedLines text.toList) with
  | error reason =>
      simp only [reduceCtorEq, false_iff]
      rintro ⟨found, hFound, _⟩
      cases hFound
  | ok read =>
      simp only [Except.ok.injEq, exists_eq_left']
      cases hCheck : (ofEntries read).check with
      | ok _ =>
          simp only [Except.ok.injEq]
          exact ⟨fun h => ⟨h.symm, h ▸ hCheck⟩, fun h => h.1.symm⟩
      | error cause =>
          simp only [reduceCtorEq, false_iff]
          rintro ⟨rfl, hOk⟩
          rw [hCheck] at hOk
          cases hOk

end ControlUnit.Image
