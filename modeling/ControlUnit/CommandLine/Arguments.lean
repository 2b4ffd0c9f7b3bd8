import ControlUnit.Text.Numeral

/-!
# Arguments

The grammar of the command line. The first argument names a command; the others are
its operands and options, in any order. After `--` everything is an operand.

An option has a long name and may have a letter. Its value follows as the next
argument, which may not begin with a dash unless it is a single one, or is attached:
`--name=value`, `-nvalue` or `-n=value`. Letters of options without a value can be
joined. Only the breakpoint option may be repeated.

Arguments that do not fit the grammar are refused without saying why.
-/

namespace ControlUnit.CommandLine

/-! ## Operands and options -/

/-- An option of a command. -/
structure OptionSpec where
  name : String
  letter? : Option Char := none
  takesValue : Bool
  deriving DecidableEq, Repr

/-- An operand or an option, as it is given. -/
inductive Argument where
  | operand (text : String)
  | flag (name : String)
  | setting (name : String) (value : String)
  deriving DecidableEq, Repr

/-- Whether an argument can be the value of the option before it. -/
def isValue (argument : String) : Bool :=
  match argument.toList with
  | '-' :: _ :: _ => false
  | _ => true

/-- The value attached to a letter, without the equals sign it may begin with. -/
def attachedValue : List Char → String
  | '=' :: value => String.ofList value
  | value => String.ofList value

/-- The arguments that joined letters give. The name of an option whose value is still
to come is the second part. -/
def letters? (specs : List OptionSpec) : List Char → Option (List Argument × Option String)
  | [] => some ([], none)
  | letter :: rest =>
    match specs.find? fun spec => spec.letter? == some letter with
    | none => none
    | some spec =>
      if spec.takesValue then
        if rest.isEmpty then some ([], some spec.name)
        else some ([.setting spec.name (attachedValue rest)], none)
      else (letters? specs rest).map fun more => (.flag spec.name :: more.1, more.2)

/-- A long option and the value attached to it. -/
def cutEquals (text : List Char) : String × Option String :=
  let name := text.takeWhile (· != '=')
  match text.dropWhile (· != '=') with
  | _ :: value => (String.ofList name, some (String.ofList value))
  | [] => (String.ofList name, none)

/-- The argument that a long option gives. The name of an option whose value is still
to come is the second part. -/
def long? (specs : List OptionSpec) (text : List Char) : Option (List Argument × Option String) :=
  let (name, value?) := cutEquals text
  match specs.find? fun spec => spec.name == name with
  | none => none
  | some spec =>
    match spec.takesValue, value? with
    | true, some value => some ([.setting name value], none)
    | true, none => some ([], some name)
    | false, none => some ([.flag name], none)
    | false, some _ => none

/-- Read arguments, the option before them being one whose value is still to come, if
any is. -/
def arguments? (specs : List OptionSpec) (pending? : Option String) :
    List String → Option (List Argument)
  | [] => if pending?.isSome then none else some []
  | argument :: rest =>
    match pending? with
    | some name =>
      if isValue argument then (arguments? specs none rest).map (.setting name argument :: ·) else none
    | none =>
      match argument.toList with
      | ['-', '-'] => some (rest.map .operand)
      | '-' :: '-' :: text =>
        match long? specs text with
        | some (found, pending?) => (arguments? specs pending? rest).map (found ++ ·)
        | none => none
      | '-' :: first :: text =>
        match letters? specs (first :: text) with
        | some (found, pending?) => (arguments? specs pending? rest).map (found ++ ·)
        | none => none
      | _ => (arguments? specs none rest).map (.operand argument :: ·)

/-! ## Reading them -/

def operands (arguments : List Argument) : List String :=
  arguments.filterMap fun
    | .operand text => some text
    | _ => none

def valuesOf (name : String) (arguments : List Argument) : List String :=
  arguments.filterMap fun
    | .setting other value => if other = name then some value else none
    | _ => none

/-- The value given to an option that may not be repeated. -/
def value? (name : String) (arguments : List Argument) : Option (Option String) :=
  match valuesOf name arguments with
  | [] => some none
  | [value] => some (some value)
  | _ => none

/-- Whether an option without a value is given. It may not be repeated. -/
def flag? (name : String) (arguments : List Argument) : Option Bool :=
  match arguments.count (.flag name) with
  | 0 => some false
  | 1 => some true
  | _ => none

def soleOperand? (arguments : List Argument) : Option String :=
  match operands arguments with
  | [operand] => some operand
  | _ => none

/-- A number below a limit, which may have a sign. -/
def smallNumber? (limit : Nat) (text : String) : Option Nat :=
  match Text.signed? 10 text.toList with
  | some n => if 0 ≤ n ∧ n < limit then some n.toNat else none
  | none => none

/-- A 64-bit number, which may have a plus sign. -/
def longNumber? (text : String) : Option UInt64 :=
  match Text.unsigned? 10 text.toList with
  | some n => if n < UInt64.size then some (.ofNat n) else none
  | none => none

/-- Read a value if there is one. -/
def ifGiven? {α : Type} (read : String → Option α) : Option String → Option (Option α)
  | none => some none
  | some text => (read text).map some

/-! ## Commands -/

/-- The options of a run, over those that a file of settings gives. -/
structure RunOptions where
  program : String
  maxCycles? : Option UInt64 := none
  trace : Bool := false
  json : Bool := false
  breakpoints : List UInt8 := []
  settingsFile? : Option String := none
  deriving DecidableEq, Repr

/-- What the program is asked to do. -/
inductive Command where
  /-- Say what the program is. -/
  | banner
  | version
  | run (options : RunOptions)
  | step (program : String) (count : UInt32)
  | debug (program : String)
  | assemble (source : String) (output? : Option String)
  | disassemble (image : String)
  | demo (cycles : UInt32)
  deriving DecidableEq, Repr

def run? (given : List String) : Option Command := do
  let arguments ← arguments?
    [{ name := "max-cycles", letter? := some 'm', takesValue := true },
     { name := "trace", letter? := some 't', takesValue := false },
     { name := "json", takesValue := false },
     { name := "break", letter? := some 'b', takesValue := true },
     { name := "config", letter? := some 'c', takesValue := true }] none given
  let program ← soleOperand? arguments
  let maxCycles? ← ifGiven? longNumber? (← value? "max-cycles" arguments)
  let trace ← flag? "trace" arguments
  let json ← flag? "json" arguments
  let breakpoints ← (valuesOf "break" arguments).mapM (smallNumber? UInt8.size)
  let settingsFile? ← value? "config" arguments
  some (.run
    { program, maxCycles?, trace, json, breakpoints := breakpoints.map .ofNat, settingsFile? })

/-- A number that an option gives, or its standard value. -/
def countOption? (name : String) (standard : Nat) (arguments : List Argument) : Option UInt32 := do
  let count? ← ifGiven? (smallNumber? UInt32.size) (← value? name arguments)
  some (.ofNat (count?.getD standard))

def step? (given : List String) : Option Command := do
  let arguments ← arguments? [{ name := "count", letter? := some 'n', takesValue := true }] none given
  some (.step (← soleOperand? arguments) (← countOption? "count" 3 arguments))

def debug? (given : List String) : Option Command := do
  some (.debug (← soleOperand? (← arguments? [] none given)))

def assemble? (given : List String) : Option Command := do
  let arguments ← arguments? [{ name := "output", letter? := some 'o', takesValue := true }] none given
  some (.assemble (← soleOperand? arguments) (← value? "output" arguments))

def disassemble? (given : List String) : Option Command := do
  some (.disassemble (← soleOperand? (← arguments? [] none given)))

def demo? (given : List String) : Option Command := do
  let arguments ← arguments? [{ name := "cycles", letter? := some 'n', takesValue := true }] none given
  if operands arguments = [] then some (.demo (← countOption? "cycles" 12 arguments)) else none

def asksVersion (argument : String) : Bool :=
  argument == "--version" || "-V".toList.isPrefixOf argument.toList

/-- The command that arguments give, unless they do not fit the grammar. -/
def Command.ofArguments? : List String → Option Command
  | [] => some .banner
  | ["--"] => some .banner
  | command :: given =>
    if asksVersion command then some .version
    else if command = "run" then run? given
    else if command = "step" then step? given
    else if command = "debug" then debug? given
    else if command = "asm" then assemble? given
    else if command = "disasm" then disassemble? given
    else if command = "demo" then demo? given
    else none

end ControlUnit.CommandLine
