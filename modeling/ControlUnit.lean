import ControlUnit.Inspect
import ControlUnit.Session
import ControlUnit.Debugger.View
import ControlUnit.Main
import ControlUnit.Proofs.Recovery
import ControlUnit.Proofs.Pipeline
import ControlUnit.Proofs.Reference
import ControlUnit.Proofs.Literal
import ControlUnit.Proofs.Sentence
import ControlUnit.Proofs.Reassembly
import ControlUnit.Proofs.CallFrame
import ControlUnit.Proofs.Evaluation
import ControlUnit.Proofs.Placement
import ControlUnit.Proofs.Resolution
import ControlUnit.Proofs.SubroutineTable
import ControlUnit.Proofs.ImageRoundTrip
import ControlUnit.Proofs.IgnoredBits
import ControlUnit.Proofs.DataIndependence
import ControlUnit.Proofs.FaultPeriod
import ControlUnit.Proofs.DebuggerRun
import ControlUnit.Proofs.DataPages
import ControlUnit.Proofs.IntegerValue
import ControlUnit.Proofs.ExpressionReading
import ControlUnit.Proofs.ListingReassembly
import ControlUnit.Proofs.OperandList
import ControlUnit.Proofs.Spelling
import ControlUnit.Proofs.Continuation
import ControlUnit.Proofs.LocalLabel
import ControlUnit.Proofs.RangeTable
import ControlUnit.Proofs.DebuggerCommand
import ControlUnit.Proofs.Breakpoint
import ControlUnit.Proofs.ImageText
import ControlUnit.Proofs.LineNumber
import ControlUnit.Proofs.FetchAddress
import ControlUnit.Proofs.BreakpointStop
import ControlUnit.Proofs.CycleStatus
import ControlUnit.Proofs.RunReport
import ControlUnit.Proofs.ImagePath
import ControlUnit.Proofs.DebuggerHistory
import ControlUnit.Proofs.SessionLoad
import ControlUnit.Proofs.DisassemblyWindow
import ControlUnit.Proofs.ProgramPanel
import ControlUnit.Proofs.StackHistory
import ControlUnit.Proofs.MemoryDump
import ControlUnit.Proofs.InstructionWord
