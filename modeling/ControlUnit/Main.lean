import ControlUnit.CommandLine.Commands
import ControlUnit.Json.Format

/-!
# The program

The command line program. It reads the arguments, and carries out the script of their
command on the files and streams of the system.
-/

namespace ControlUnit.CommandLine

/-- What the system said about a file. -/
def fileError : IO.Error → FileError
  | .noFileOrDirectory .. => .notFound
  | .inappropriateType .. => .isADirectory
  | error => .other (toString error)

/-- The text of a file of the system. -/
def readText (path : String) : IO (Except FileError String) := do
  try
    let contents ← IO.FS.readBinFile path
    match String.fromUTF8? contents with
    | some text => return .ok text
    | none => return .error .notText
  catch error => return .error (fileError error)

/-- Write a file of the system. -/
def writeText (path text : String) : IO (Except FileError Unit) := do
  try
    IO.FS.writeFile path text
    return .ok ()
  catch error => return .error (fileError error)

/-- Carry out a script on the system: the exit code. -/
def Script.perform : Script → IO UInt32
  | done => return 0
  | fail complaint => do
    IO.eprintln (complaintLine complaint)
    return 1
  | print lines next => do
    lines.forM IO.println
    next.perform
  | read path next => do
    let result ← readText path
    (next result).perform
  | write path text next => do
    let result ← writeText path text
    (next result).perform

end ControlUnit.CommandLine

open ControlUnit.CommandLine in
/-- Run the command that the arguments give. Arguments that fit no command end the
program with code two. -/
def main (arguments : List String) : IO UInt32 := do
  match Command.ofArguments? arguments with
  | some command => (command.script .strict).perform
  | none =>
    IO.eprintln "error: the arguments fit no command"
    return 2
