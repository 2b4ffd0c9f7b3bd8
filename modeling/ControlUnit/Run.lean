import ControlUnit.Machine
import ControlUnit.Settings

/-!
# Runs

Running a machine for a number of cycles, or until it is about to fetch from a
breakpoint. The first cycle is never held back by a breakpoint, and a fault counts as
a cycle and does not end the run.

What happened on the way is recorded in order: breakpoints, faults, and the executed
instructions if the settings ask for a trace.
-/

namespace ControlUnit

/-- What happens in a run. -/
inductive RunEvent where
  /-- An instruction was executed. The address is that of the program counter before
  the cycle, the subroutine the one the machine names after it. -/
  | executed (address : UInt8) (instruction : Instruction) (subroutine : String)
  | fault (fault : Fault)
  /-- The run stopped before an address. -/
  | breakpoint (address : UInt8)
  deriving DecidableEq, Repr

/-- A run and how far it has come. -/
structure Run where
  machine : Machine
  /-- The number of cycles so far. -/
  cycles : Nat := 0
  /-- The number of cycles that met a fault. -/
  faults : Nat := 0
  events : Array RunEvent := #[]
  deriving DecidableEq

namespace Run

def record (run : Run) (event : RunEvent) : Run := { run with events := run.events.push event }

/-- Whether the next cycle would begin at a breakpoint and is not the first. -/
def atBreakpoint (breakpoints : List UInt8) (run : Run) : Bool :=
  decide (0 < run.cycles) && breakpoints.contains run.machine.pc

/-- Go on by one cycle. -/
def cycle (trace : Bool) (run : Run) : Run :=
  let pc := run.machine.pc
  match run.machine.cycle with
  | (.ok instruction, machine) =>
    let next := { run with machine, cycles := run.cycles + 1 }
    if trace then next.record (.executed pc instruction machine.subroutineName) else next
  | (.error fault, machine) =>
    { run with machine, cycles := run.cycles + 1, faults := run.faults + 1 }.record (.fault fault)

/-- Go on for at most some cycles. -/
def continueFor (trace : Bool) (breakpoints : List UInt8) : Nat → Run → Run
  | 0, run => run
  | remaining + 1, run =>
    if run.atBreakpoint breakpoints then run.record (.breakpoint run.machine.pc)
    else continueFor trace breakpoints remaining (run.cycle trace)

/-- Run a machine with the given settings. -/
def ofMachine (settings : Settings) (machine : Machine) : Run :=
  continueFor settings.trace settings.breakpoints settings.maxCycles.toNat { machine := machine }

end Run

end ControlUnit
