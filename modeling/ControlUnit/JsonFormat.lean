import ControlUnit.Settings
import ControlUnit.Snapshot

/-!
# JSON texts

The settings of a run can be given as JSON, and a snapshot can be shown as JSON. How a
JSON text is read and how it is written is left to a format; what the program does
with the settings and with the text is the same for all of them.
-/

namespace ControlUnit

/-- A way to read settings and to write snapshots. A snapshot has numbers, texts and
lists in it and nothing else, so it can always be written. -/
structure JsonFormat where
  /-- The settings that a text gives, or what is wrong with it. -/
  readSettings : String → Except String Settings
  writeSnapshot : Snapshot → String

end ControlUnit
