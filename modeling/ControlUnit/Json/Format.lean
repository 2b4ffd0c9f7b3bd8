import ControlUnit.Json.Printer
import ControlUnit.Json.Record
import ControlUnit.JsonFormat
import ControlUnit.Program

/-!
# The JSON format

The JSON forms of settings, programs and snapshots. A setting may be left out; a
program must give everything.
-/

namespace ControlUnit

/-! ## Reading -/

/-- The settings that a JSON value gives. -/
def Settings.ofJson? (value : Json) : Option Settings :=
  match value.fields? ["max_cycles", "trace", "breakpoints", "json"] with
  | some [maxCycles, trace, breakpoints, json] => do
    let standard : Settings := {}
    let maxCycles ← Json.optional? (Json.below? UInt64.size) standard.maxCycles.toNat maxCycles
    let trace ← Json.optional? Json.bool? standard.trace trace
    let breakpoints ← Json.optional? (Json.list? (Json.below? UInt8.size)) [] breakpoints
    let json ← Json.optional? Json.bool? standard.json json
    some { maxCycles := .ofNat maxCycles, trace, breakpoints := breakpoints.map .ofNat, json }
  | _ => none

/-- The settings that a JSON text gives. -/
def Settings.read? (text : String) : Option Settings := (Json.read? text).bind ofJson?

/-- The subroutine that a JSON value gives. -/
def Subroutine.ofJson? (value : Json) : Option Subroutine :=
  match value.fields? ["name", "start", "end"] with
  | some [name, start, stop] => do
    let name ← Json.required? Json.text? name
    let start ← Json.required? (Json.below? UInt16.size) start
    let stop ← Json.required? (Json.below? UInt16.size) stop
    some ⟨name, .ofNat start, .ofNat stop⟩
  | _ => none

/-- The program that a JSON value gives. It need not be one that can be loaded. -/
def Program.ofJson? (value : Json) : Option Program :=
  match value.fields? ["words", "subroutines"] with
  | some [words, subroutines] => do
    let words ← Json.required? (Json.list? (Json.below? UInt32.size)) words
    let subroutines ← Json.required? (Json.list? Subroutine.ofJson?) subroutines
    some { words := words.map .ofNat, subroutines }
  | _ => none

/-- The program that a JSON text gives. -/
def Program.readJson? (text : String) : Option Program := (Json.read? text).bind ofJson?

/-! ## Writing -/

namespace Snapshot

/-- The name of a phase in JSON. -/
def phaseKeyword : Phase → String
  | .fetch => "FETCH"
  | .decode => "DECODE"
  | .execute => "EXECUTE"

def namedValue (cell : String × UInt8) : Json :=
  .ofMembers [("name", .ofText cell.1), ("value", .ofNat cell.2.toNat)]

def toJson (snapshot : Snapshot) : Json :=
  .ofMembers
    [("subroutine", .ofText snapshot.subroutine),
     ("instruction", .ofText snapshot.instruction),
     ("state", .ofText (phaseKeyword snapshot.phase)),
     ("pc", .ofNat snapshot.pc.toNat),
     ("stack_depth", .ofNat snapshot.stackDepth),
     ("stack_top", .ofNat snapshot.lastPushed.toNat),
     ("ir", .ofNat snapshot.instructionRegister.toNat),
     ("sr", .ofNat snapshot.status.toNat),
     ("registers", .array (snapshot.registers.map namedValue)),
     ("io", .array (snapshot.ioRegisters.map namedValue))]

end Snapshot

/-! ## The format -/

/-- The format of strict JSON, written over several lines. -/
def JsonFormat.strict : JsonFormat where
  readSettings text :=
    match Settings.read? text with
    | some settings => .ok settings
    | none => .error "no settings"
  writeSnapshot snapshot := snapshot.toJson.pretty

end ControlUnit
