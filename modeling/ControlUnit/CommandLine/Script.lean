import ControlUnit.Text.Column

/-!
# Scripts

What a command does to the world, as a value: it prints lines, reads and writes files,
and ends well or with a complaint. A script decides everything; whoever carries it out
only does what it says. `Script.runIn` carries it out in a tree of files.
-/

namespace ControlUnit.CommandLine

/-- Why a file could not be read or written. -/
inductive FileError where
  | notFound
  | notADirectory
  | isADirectory
  /-- The contents are no text. -/
  | notText
  /-- What the system says otherwise. -/
  | other (message : String)
  deriving DecidableEq, Repr

def FileError.message : FileError → String
  | notFound => "No such file or directory (os error 2)"
  | notADirectory => "Not a directory (os error 20)"
  | isADirectory => "Is a directory (os error 21)"
  | notText => "stream did not contain valid UTF-8"
  | other message => message

/-- What a command does. -/
inductive Script where
  | done
  /-- End with a complaint. -/
  | fail (complaint : String)
  /-- Print lines and go on. -/
  | print (lines : List String) (next : Script)
  /-- Read a file and go on with its text. -/
  | read (path : String) (next : Except FileError String → Script)
  /-- Write a file and go on. -/
  | write (path text : String) (next : Except FileError Unit → Script)

/-- What a script has printed, and how it ended. -/
structure Transcript where
  output : List String := []
  complaints : List String := []
  deriving DecidableEq, Repr

namespace Transcript

def outputText (transcript : Transcript) : String := Text.ofLines transcript.output

def errorText (transcript : Transcript) : String := Text.ofLines transcript.complaints

/-- The exit code: one after a complaint. -/
def exitCode (transcript : Transcript) : UInt8 := if transcript.complaints.isEmpty then 0 else 1

end Transcript

/-- The line that a complaint becomes. -/
def complaintLine (complaint : String) : String := "❌ " ++ complaint

/-! ## Files -/

/-- Files by the names on the way to them, with their contents. The directories are
those on the way to a file. -/
structure FileTree where
  files : List (List String × ByteArray) := []

namespace FileTree

def isDirectory (tree : FileTree) (names : List String) : Bool :=
  names.isEmpty || tree.files.any fun file =>
    names.length < file.1.length && names.isPrefixOf file.1

/-- Follow the pieces of a path from a directory. Only the last may lead to no directory. -/
def follow (tree : FileTree) (directory : List String) : List String → Except FileError (List String)
  | [] => .ok directory
  | piece :: rest =>
    if piece = "" ∨ piece = "." then tree.follow directory rest
    else if piece = ".." then
      if directory.isEmpty then .error .notFound else tree.follow directory.dropLast rest
    else
      let names := directory ++ [piece]
      if rest.isEmpty then .ok names
      else if tree.isDirectory names then tree.follow names rest
      else if tree.files.any (·.1 == names) then .error .notADirectory
      else .error .notFound

/-- The names that a path leads to. Nothing lies above the tree. -/
def resolve (tree : FileTree) (path : String) : Except FileError (List String) :=
  if path = "" ∨ path.toList.head? = some '/' then .error .notFound
  else tree.follow [] ((path.toList.splitOn '/').map String.ofList)

def read (tree : FileTree) (path : String) : Except FileError String :=
  match tree.resolve path with
  | .error error => .error error
  | .ok names =>
    if tree.isDirectory names then .error .isADirectory
    else
      match tree.files.find? (·.1 == names) with
      | none => .error .notFound
      | some file =>
        match String.fromUTF8? file.2 with
        | some text => .ok text
        | none => .error .notText

/-- The tree after a file has been written. -/
def write (tree : FileTree) (path : String) (contents : ByteArray) : Except FileError FileTree :=
  match tree.resolve path with
  | .error error => .error error
  | .ok names =>
    if tree.isDirectory names then .error .isADirectory
    else .ok ⟨(names, contents) :: tree.files.filter (·.1 != names)⟩

/-- The tree with a file and the directories on the way to it. -/
def add (tree : FileTree) (path : String) (contents : ByteArray) : FileTree :=
  let names := ((path.toList.splitOn '/').filter fun piece => piece != [] && piece != ['.']).map
    String.ofList
  ⟨(names, contents) :: tree.files.filter (·.1 != names)⟩

end FileTree

namespace Script

/-- Carry out a script in a tree of files, adding to a transcript. -/
def runFrom (transcript : Transcript) (tree : FileTree) : Script → Transcript × FileTree
  | done => (transcript, tree)
  | fail complaint =>
    ({ transcript with complaints := transcript.complaints ++ [complaintLine complaint] }, tree)
  | print lines next => runFrom { transcript with output := transcript.output ++ lines } tree next
  | read path next => runFrom transcript tree (next (tree.read path))
  | write path text next =>
    match tree.write path text.toUTF8 with
    | .ok changed => runFrom transcript changed (next (.ok ()))
    | .error error => runFrom transcript tree (next (.error error))

/-- Carry out a script in a tree of files. -/
def runIn (tree : FileTree) (script : Script) : Transcript × FileTree := runFrom {} tree script

end Script

end ControlUnit.CommandLine
