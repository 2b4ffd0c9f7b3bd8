import ControlUnit.Assembly
import ControlUnit.CommandLine.Arguments
import ControlUnit.CommandLine.Script
import ControlUnit.Image
import ControlUnit.JsonFormat
import ControlUnit.Path
import ControlUnit.Run
import ControlUnit.Sample

/-!
# Commands

What each command of the command line does, as a script.

A program is given as a source file, whose name ends in `.asm`, as an image file, or
by the word `sample`.
-/

namespace ControlUnit.CommandLine

/-! ## Loading -/

/-- Go on with the text of a file, or with the error of reading it. -/
def withText (path : String) (refuse : String → String) (next : String → Script) : Script :=
  .read path fun
    | .ok text => next text
    | .error error => .fail (refuse error.message)

def withImage (path : String) (next : Program → Script) : Script :=
  withText path (fun message => "Failed to load image: I/O error: " ++ message) fun text =>
    match Image.read text with
    | .ok program => next program
    | .error cause => .fail ("Failed to load image: " ++ cause.message)

def withSource (path : String) (next : Program → Script) : Script :=
  withText path (fun message => "Failed to read file: " ++ message) fun text =>
    match assemble text with
    | .ok program => next program
    | .error cause => .fail ("Assembly error: " ++ cause.message)

/-- The number of instructions of a program, in words. -/
def instructionCount (program : Program) : String := Text.decimal program.size ++ " instructions"

/-- Go on with the program that a name stands for. -/
def withProgram (name : String) (next : Program → Script) : Script :=
  if name = "sample" then next Sample.blink
  else if ".asm".toList.isSuffixOf name.toList then
    withSource name fun program =>
      .print ["📝 Assembled " ++ instructionCount program] (next program)
  else
    withImage name fun program => .print ["📂 Loaded " ++ instructionCount program] (next program)

def withMachine (program : Program) (next : Machine → Script) : Script :=
  match Machine.ofProgram program with
  | .ok machine => next machine
  | .error cause => .fail ("Failed to load program: " ++ cause.message)

/-! ## Running -/

/-- The snapshot of a machine, as JSON or as a report. -/
def snapshotText (format : JsonFormat) (json : Bool) (machine : Machine) : String :=
  if json then format.writeSnapshot machine.snapshot else machine.snapshot.report

def faultLine (fault : Fault) : String := "⚠️  " ++ fault.message ++ " (control unit reset)"

def eventLine : RunEvent → String
  | .executed address instruction subroutine =>
    Text.padded 10 3 address.toNat ++ ": " ++ Text.flushLeft 20 instruction.text
      ++ " [" ++ subroutine ++ "]"
  | .fault fault => faultLine fault
  | .breakpoint address => "⏸  Breakpoint at " ++ Text.padded 10 3 address.toNat

/-- The lines that tell how a run ended. -/
def runSummary (format : JsonFormat) (settings : Settings) (run : Run) : List String :=
  ["", "━━━ Result ━━━", "Cycles: " ++ Text.decimal run.cycles, "Faults: " ++ Text.decimal run.faults,
   snapshotText format settings.json run.machine]
    ++ if settings.maxCycles.toNat ≤ run.cycles then
        ["", "⚠️  Reached max cycles limit (" ++ Text.decimal settings.maxCycles.toNat
          ++ "). Use --max-cycles to increase."]
      else []

def runLines (format : JsonFormat) (settings : Settings) (machine : Machine) : List String :=
  let run := Run.ofMachine settings machine
  ["", "━━━ Execution ━━━"] ++ run.events.toList.map eventLine ++ runSummary format settings run

/-- Settings with the options of the command line over them. -/
def RunOptions.applyTo (options : RunOptions) (settings : Settings) : Settings where
  maxCycles := options.maxCycles?.getD settings.maxCycles
  trace := settings.trace || options.trace
  breakpoints := settings.breakpoints ++ options.breakpoints
  json := settings.json || options.json

/-- Go on with the settings of a run. -/
def withSettings (format : JsonFormat) (options : RunOptions) (next : Settings → Script) :
    Script :=
  match options.settingsFile? with
  | none => next (options.applyTo {})
  | some path =>
    let refusal := "Failed to load config " ++ path ++ ": "
    withText path (fun message => refusal ++ "I/O error: " ++ message) fun text =>
      match format.readSettings text with
      | .ok settings => next (options.applyTo settings)
      | .error reason => .fail (refusal ++ "invalid config: " ++ reason)

def runScript (format : JsonFormat) (options : RunOptions) : Script :=
  withSettings format options fun settings =>
    .print ["🔧 Running: " ++ options.program] <|
      withProgram options.program fun program =>
        withMachine program fun machine => .print (runLines format settings machine) .done

def transitionLine : Transition → String
  | .fetched address word =>
    Text.flushLeft 8 Phase.fetch.name ++ " " ++ Text.padded 10 3 address.toNat ++ ": "
      ++ Listing.wordDigits word
  | .decoded fields => Text.flushLeft 8 Phase.decode.name ++ " " ++ fields.text
  | .executed instruction => Text.flushLeft 8 Phase.execute.name ++ " " ++ instruction.text
  | .recovered fault => Text.flushLeft 8 Phase.execute.name ++ " " ++ faultLine fault

/-- The lines of some transitions, added to those before in reverse, and the machine
after them. -/
def stepLines (found : List String) : Nat → Machine → List String × Machine
  | 0, machine => (found.reverse, machine)
  | count + 1, machine =>
    let (transition, next) := machine.step
    stepLines (transitionLine transition :: found) count next

/-- Make single transitions of a program. -/
def stepScript (name : String) (count : UInt32) : Script :=
  withProgram name fun program =>
    withMachine program fun machine =>
      let (lines, last) := stepLines [] count.toNat machine
      .print (lines ++ ["", last.snapshot.report]) .done

/-- Load a program into the debugger, which needs a terminal that a script has not. -/
def debugScript (name : String) : Script :=
  withProgram name fun _ =>
    .print ["🚀 Launching debugger..."] (.fail "Debugger error: no terminal")

/-! ## Assembling and disassembling -/

def assembleScript (source : String) (output? : Option String) : Script :=
  match Path.forImage source output? with
  | .error error => .fail error.message
  | .ok target =>
    .print ["📝 Assembling: " ++ source ++ " → " ++ target] <|
      withSource source fun program =>
        .print
          ["✓ Assembled " ++ instructionCount program ++ ", "
            ++ Text.decimal program.subroutines.length ++ " subroutines"] <|
          .write target (Image.render program) fun
            | .ok _ => .print ["✓ Saved to " ++ target] .done
            | .error error => .fail ("Failed to save image: I/O error: " ++ error.message)

def disassembleScript (image : String) : Script :=
  .print ["📖 Disassembling: " ++ image, ""] <|
    withImage image fun program => .print [program.listing] .done

/-! ## The other commands -/

/-- The lines of some cycles of the demonstration, added to those before in reverse. -/
def demoLines (found : List String) : Nat → Machine → List String
  | 0, _ => found.reverse
  | count + 1, machine =>
    match machine.cycle with
    | (.ok _, next) => demoLines ("" :: next.snapshot.report :: found) count next
    | (.error fault, next) =>
      demoLines ("" :: next.snapshot.report :: faultLine fault :: found) count next

/-- Show the sample program at work. -/
def demoScript (cycles : UInt32) : Script :=
  withMachine Sample.blink fun machine =>
    .print
      (["━━━ Sample program: LED blink ━━━", machine.snapshot.report, ""]
        ++ demoLines [] cycles.toNat machine)
      .done

def versionNumber : String := "0.1.0"

/-- The lines that say what the program is. -/
def bannerLines : List String :=
  ["cu8 Emulator v" ++ versionNumber, "An 8-bit microcontroller control unit emulator", "",
   "Use --help for available commands"]

/-- What a command does. -/
def Command.script (format : JsonFormat) : Command → Script
  | banner => .print bannerLines .done
  | version => .print ["cu8-emu " ++ versionNumber] .done
  | run options => runScript format options
  | step program count => stepScript program count
  | debug program => debugScript program
  | assemble source output? => assembleScript source output?
  | disassemble image => disassembleScript image
  | demo cycles => demoScript cycles

end ControlUnit.CommandLine
