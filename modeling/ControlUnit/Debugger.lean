import ControlUnit.Listing
import ControlUnit.Machine

/-!
# The debugger

A machine under the control of a person: single transitions, whole cycles, or a run
that goes on from tick to tick until a breakpoint or a fault.

A breakpoint is an address, and a tick compares it with the program counter. A tick
does not stop where no instruction has been executed since the last reset, so a run
can leave a breakpoint at address zero.

## Main results

* `mem_toggleAddress` — toggling a breakpoint changes it and no other.
-/

namespace ControlUnit

/-! ## Breakpoints -/

/-- A list of ascending addresses with one more in its place. -/
def insertAddress (address : UInt8) : List UInt8 → List UInt8
  | [] => [address]
  | first :: rest =>
    if address < first then address :: first :: rest else first :: insertAddress address rest

/-- A list of ascending addresses with one removed if it is there, else added. -/
def toggleAddress (address : UInt8) (addresses : List UInt8) : List UInt8 :=
  if address ∈ addresses then addresses.filter (· != address) else insertAddress address addresses

/-- Inserting an address adds it and nothing else. -/
theorem mem_insertAddress {address other : UInt8} {addresses : List UInt8} :
    other ∈ insertAddress address addresses ↔ other = address ∨ other ∈ addresses := by
  induction addresses with
  | nil => simp [insertAddress]
  | cons first rest ih =>
      rw [insertAddress]
      split
      · simp
      · simp only [List.mem_cons, ih]
        exact or_left_comm

/-- Toggling an address changes whether it is there, and nothing else. -/
theorem mem_toggleAddress {address other : UInt8} {addresses : List UInt8} :
    other ∈ toggleAddress address addresses ↔
      if other = address then other ∉ addresses else other ∈ addresses := by
  rw [toggleAddress]
  by_cases hMem : address ∈ addresses
  · rw [if_pos hMem, List.mem_filter]
    by_cases hOther : other = address
    · simp [hOther, hMem]
    · simp [hOther]
  · rw [if_neg hMem, mem_insertAddress]
    by_cases hOther : other = address
    · simp [hOther, hMem]
    · simp [hOther]

/-! ## Status -/

/-- What the debugger reports about its last operation. -/
inductive DebuggerStatus where
  | ready
  | moved (transition : Transition)
  /-- A cycle that was begun with the program counter at an address. -/
  | cycled (pc : UInt8) (instruction : Instruction)
  /-- A fault in a cycle, or by a forced phase. -/
  | faulted (fault : Fault)
  | running
  /-- A run stopped at a breakpoint. -/
  | stopped (pc : UInt8)
  | breakpointSet (pc : UInt8)
  | breakpointRemoved (pc : UInt8)
  | forced (phase : Phase)
  | resetDone
  deriving DecidableEq, Repr

namespace DebuggerStatus

/-- The text of a transition, after the name of its phase. -/
def transitionText : Transition → String
  | .fetched address word =>
    Phase.fetch.name ++ ": read " ++ Listing.wordDigits word ++ " from " ++ Text.padded 10 3 address.toNat
  | .decoded fields => Phase.decode.name ++ ": " ++ fields.text
  | .executed instruction => Phase.execute.name ++ ": " ++ instruction.text
  | .recovered fault => Phase.execute.name ++ ": " ++ fault.message ++ " (reset)"

def text : DebuggerStatus → String
  | ready => "Ready. Press 's' to step, 'c' to cycle, 'r' to run, 'q' to quit."
  | moved transition => transitionText transition
  | cycled pc instruction => "PC=" ++ Text.padded 10 3 pc.toNat ++ ": " ++ instruction.text
  | faulted fault => "Fault: " ++ fault.message ++ " (reset)"
  | running => "Running..."
  | stopped pc => "Breakpoint at PC=" ++ Text.decimal pc.toNat
  | breakpointSet pc => "Set breakpoint at PC=" ++ Text.decimal pc.toNat
  | breakpointRemoved pc => "Removed breakpoint at PC=" ++ Text.decimal pc.toNat
  | forced phase => "Forced state " ++ phase.name
  | resetDone => "Reset. Ready."

end DebuggerStatus

/-! ## The debugger -/

/-- A machine under control. -/
structure Debugger where
  machine : Machine
  /-- The addresses of the breakpoints, ascending. -/
  breakpoints : List UInt8 := []
  /-- Whether a tick runs the machine. -/
  running : Bool := false
  /-- Whether the person has asked to leave. -/
  quit : Bool := false
  status : DebuggerStatus := .ready
  deriving DecidableEq

/-- A line of the disassembly that the debugger shows. -/
structure DisassemblyLine where
  address : UInt8
  text : String
  /-- Whether the program counter is at the address. -/
  isCurrent : Bool
  deriving DecidableEq, Repr

namespace Debugger

/-- A debugger for a program, or the reason why the program cannot be loaded. -/
def ofProgram (program : Program) : Except ProgramError Debugger :=
  match Machine.ofProgram program with
  | .ok machine => .ok { machine := machine }
  | .error reason => .error reason

/-- Make one transition. A fault ends a run. -/
def stepPhase (debugger : Debugger) : Debugger :=
  let (transition, machine) := debugger.machine.step
  let running := match transition with
    | .recovered _ => false
    | _ => debugger.running
  { debugger with machine, running, status := .moved transition }

/-- Run to the end of a cycle. A fault ends a run. -/
def stepCycle (debugger : Debugger) : Debugger :=
  match debugger.machine.cycle with
  | (.ok instruction, machine) =>
    { debugger with machine, status := .cycled debugger.machine.pc instruction }
  | (.error fault, machine) => { debugger with machine, status := .faulted fault, running := false }

def run (debugger : Debugger) : Debugger := { debugger with running := true, status := .running }

/-- Whether a tick stops before it runs a cycle. -/
def atBreakpoint (debugger : Debugger) : Bool :=
  debugger.breakpoints.contains debugger.machine.pc && decide (0 < debugger.machine.cycles)

/-- Go on with a run by one cycle, or stop at a breakpoint. -/
def tick (debugger : Debugger) : Debugger :=
  if debugger.running then
    if debugger.atBreakpoint then
      { debugger with running := false, status := .stopped debugger.machine.pc }
    else debugger.stepCycle
  else debugger

/-- Tick a number of times. -/
def ticks : Nat → Debugger → Debugger
  | 0, debugger => debugger
  | count + 1, debugger => ticks count debugger.tick

/-- Set the breakpoint at the program counter, or remove it. -/
def toggleBreakpoint (debugger : Debugger) : Debugger :=
  let pc := debugger.machine.pc
  { debugger with
    breakpoints := toggleAddress pc debugger.breakpoints
    status := if pc ∈ debugger.breakpoints then .breakpointRemoved pc else .breakpointSet pc }

/-- Force the machine into the phase with a raw code. This ends a run. -/
def forcePhase (debugger : Debugger) (code : UInt8) : Debugger :=
  match debugger.machine.forcePhase code with
  | (.ok phase, machine) => { debugger with machine, status := .forced phase, running := false }
  | (.error fault, machine) => { debugger with machine, status := .faulted fault, running := false }

def reset (debugger : Debugger) : Debugger :=
  { debugger with machine := debugger.machine.reset, running := false, status := .resetDone }

def leave (debugger : Debugger) : Debugger := { debugger with quit := true }

/-- The first cells of the extended page. -/
def extendedCells? (debugger : Debugger) (count : UInt64) : Option (List (Nat × UInt8)) :=
  debugger.machine.data.dump? extendedPage.toUInt64 count

/-! ## The disassembly -/

/-- The first address of a window of some lines around an address: half of the lines
before it, as far as the memory goes. -/
def windowStart (pc : UInt8) (lines : UInt64) : UInt64 :=
  min (Size.monus pc.toUInt64 (lines / 2)) (Size.monus programSize.toUInt64 lines)

/-- The line of an address. -/
def lineAt (debugger : Debugger) (address : UInt8) : DisassemblyLine where
  address := address
  text := Listing.wordText (debugger.machine.program.read address)
  isCurrent := address == debugger.machine.pc

/-- The disassembly of a window of some lines around the program counter. -/
def disassembly? (debugger : Debugger) (lines : UInt64) : Option (List DisassemblyLine) :=
  let start := windowStart debugger.machine.pc lines
  (Size.sum? start lines).map fun stop =>
    (List.range' start.toNat (min stop.toNat programSize - start.toNat)).map fun address =>
      debugger.lineAt address.toUInt8

end Debugger

end ControlUnit
