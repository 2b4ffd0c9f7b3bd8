/-!
# Settings

The settings of a run. What is not given has its standard value.
-/

namespace ControlUnit

/-- The settings of a run. -/
structure Settings where
  /-- The number of cycles after which the run ends. -/
  maxCycles : UInt64 := 1000
  /-- Whether every executed instruction is shown. -/
  trace : Bool := false
  /-- Addresses before which the run stops. -/
  breakpoints : List UInt8 := []
  /-- Whether the final report is JSON. -/
  json : Bool := false
  deriving DecidableEq, Repr

end ControlUnit
