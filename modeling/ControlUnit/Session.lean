import ControlUnit.Assembly
import ControlUnit.Image
import ControlUnit.JsonFormat
import ControlUnit.Sample

/-!
# Sessions

A machine for embedding: its host sends texts and receives texts and numbers. A
session begins with the sample program. Loading another program makes a new machine;
if the text is refused, the session stays as it was.

## Main results

* `Session.ofProgram_blink` — the first machine of a session is a new machine for the
  sample program.
-/

namespace ControlUnit

/-- A machine and its host. -/
structure Session where
  machine : Machine
  deriving DecidableEq

/-- Why a program was not loaded. -/
inductive LoadError where
  | assembly (cause : AssemblyError)
  | image (cause : Image.ReadError)
  | program (cause : ProgramError)
  deriving DecidableEq, Repr

/-- The report of why a program was not loaded. -/
def LoadError.message : LoadError → String
  | assembly cause => cause.message
  | image cause => cause.message
  | program cause => cause.message

namespace Session

/-- A session with the sample program. -/
def new : Session := ⟨Machine.reset { program := { image := Sample.blink } }⟩

/-- The first machine of a session is a new machine for the sample program. -/
theorem ofProgram_blink : Machine.ofProgram Sample.blink = .ok new.machine := by
  rw [Machine.ofProgram, ProgramMemory.ofProgram, Sample.check_blink]
  rfl

/-- Make a new machine for a program: its number of words. -/
def loadProgram (session : Session) (program : Program) : Except LoadError Nat × Session :=
  match Machine.ofProgram program with
  | .ok machine => (.ok program.size, ⟨machine⟩)
  | .error cause => (.error (.program cause), session)

/-- Load a program from source text. -/
def loadSource (session : Session) (source : String) : Except LoadError Nat × Session :=
  match assemble source with
  | .ok program => session.loadProgram program
  | .error cause => (.error (.assembly cause), session)

/-- Load a program from image text. -/
def loadImage (session : Session) (text : String) : Except LoadError Nat × Session :=
  match Image.read text with
  | .ok program => session.loadProgram program
  | .error cause => (.error (.image cause), session)

/-- The text of a transition. -/
def transitionText : Transition → String
  | .fetched address word =>
    "FETCH " ++ Text.padded 10 3 address.toNat ++ ": " ++ Listing.wordDigits word
  | .decoded fields => "DECODE " ++ fields.text
  | .executed instruction => "EXECUTE " ++ instruction.text
  | .recovered fault => "FAULT " ++ fault.message ++ " (reset)"

/-- Make one transition. -/
def step (session : Session) : String × Session :=
  let (transition, machine) := session.machine.step
  (transitionText transition, ⟨machine⟩)

/-- Run to the end of a cycle: the instruction executed, or the fault. -/
def cycle (session : Session) : Except Fault String × Session :=
  let (result, machine) := session.machine.cycle
  (result.map Instruction.text, ⟨machine⟩)

/-- Run some cycles, going on after faults, and add the number of faults to those
counted before. -/
def runFrom (faults : Nat) : Nat → Machine → Nat × Machine
  | 0, machine => (faults, machine)
  | count + 1, machine =>
    match machine.cycle with
    | (.ok _, next) => runFrom faults count next
    | (.error _, next) => runFrom (faults + 1) count next

/-- Run some cycles, going on after faults: the number of faults. -/
def run (session : Session) (count : UInt32) : Nat × Session :=
  let (faults, machine) := runFrom 0 count.toNat session.machine
  (faults, ⟨machine⟩)

/-- Reset the machine. -/
def reset (session : Session) : Session := ⟨session.machine.reset⟩

/-- A cell of data memory. -/
def dataAt (session : Session) (address : UInt16) : UInt8 := session.machine.data.read address

/-- The listing of the loaded program. -/
def listing (session : Session) : String := session.machine.program.image.listing

/-- The framed report of the machine. -/
def report (session : Session) : String := session.machine.snapshot.report

/-- The snapshot of the machine as JSON text. -/
def json (format : JsonFormat) (session : Session) : String :=
  format.writeSnapshot session.machine.snapshot

/-- The number of words of the program that a source text describes. -/
def countWords (source : String) : Except AssemblyError Nat := (assemble source).map Program.size

end Session

end ControlUnit
