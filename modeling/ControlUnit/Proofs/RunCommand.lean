import ControlUnit.CommandLine.Commands
import ControlUnit.Proofs.SourceLine

/-!
# The command for runs

What the command for runs prints is decided by two things that it reads from the files
around it: the settings, which a file can give in a JSON format and the options of the
command line change, and the program, which is a source file, an image file, or the sample.
If both can be read, and the program can be loaded, the command ends well, and the last it
prints are the lines of the run.

## Main results

* `Script.runFrom_withSettings`, `Script.runFrom_withProgram` — reading comes down to the
  settings and the program.
* `runScript_runIn` — what the command for runs prints.
-/

namespace ControlUnit.CommandLine

open Assembly (eq_ok_of_toOption)

/-- The settings that the options of a run give in a tree of files, for a JSON format. -/
def FileTree.settings? (tree : FileTree) (format : JsonFormat) (options : RunOptions) :
    Option Settings :=
  match options.settingsFile? with
  | none => some (options.applyTo {})
  | some path =>
    match tree.read path with
    | .ok text => (format.readSettings text).toOption.map options.applyTo
    | .error _ => none

/-- The program that a name stands for in a tree of files. -/
def FileTree.program? (tree : FileTree) (name : String) : Option Program :=
  if name = "sample" then some Sample.blink
  else
    match tree.read name with
    | .ok text =>
      if ".asm".toList.isSuffixOf name.toList then (assemble text).toOption
      else (Image.read text).toOption
    | .error _ => none

variable {tree : FileTree} {transcript : Transcript} {format : JsonFormat}

namespace Script

theorem runFrom_withSettings {options : RunOptions} {settings : Settings}
    (h : tree.settings? format options = some settings) (next : Settings → Script) :
    runFrom transcript tree (withSettings format options next)
      = runFrom transcript tree (next settings) := by
  rw [FileTree.settings?] at h
  rw [withSettings]
  cases hFile : options.settingsFile? with
  | none =>
      simp only [hFile, Option.some.injEq] at h
      simp only [h]
  | some path =>
      simp only [hFile] at h
      cases hRead : tree.read path with
      | error error => simp [hRead] at h
      | ok text =>
          simp only [hRead] at h
          cases hSettings : format.readSettings text with
          | error reason => simp [hSettings, Except.toOption] at h
          | ok given =>
              simp only [hSettings, Except.toOption, Option.map_some, Option.some.injEq] at h
              simp only [withText, runFrom, hRead, hSettings, h]

/-- Loading a program may print a line about it. -/
theorem runFrom_withProgram {name : String} {program : Program}
    (h : tree.program? name = some program) (next : Program → Script) :
    ∃ lines, runFrom transcript tree (withProgram name next)
      = runFrom { transcript with output := transcript.output ++ lines } tree (next program) := by
  rw [FileTree.program?] at h
  rw [withProgram]
  by_cases hSample : name = "sample"
  · rw [if_pos hSample, Option.some.injEq] at h
    rw [if_pos hSample, h]
    exact ⟨[], by rw [List.append_nil]⟩
  · rw [if_neg hSample] at h ⊢
    cases hRead : tree.read name with
    | error error => simp [hRead] at h
    | ok text =>
        simp only [hRead] at h
        by_cases hSource : ".asm".toList.isSuffixOf name.toList
        · rw [if_pos hSource] at h ⊢
          have hAssembled : assemble text = .ok program := eq_ok_of_toOption h
          simp only [withSource, withText, runFrom, hRead, hAssembled]
          exact ⟨_, rfl⟩
        · rw [if_neg hSource] at h ⊢
          have hImage : Image.read text = .ok program := eq_ok_of_toOption h
          simp only [withImage, withText, runFrom, hRead, hImage]
          exact ⟨_, rfl⟩

end Script

/-- The lines of a run tell how many cycles it had, and how many of them met a fault. -/
theorem counts_infix_runLines (format : JsonFormat) (settings : Settings) (machine : Machine) :
    ["━━━ Result ━━━", "Cycles: " ++ Text.decimal (Run.ofMachine settings machine).cycles,
      "Faults: " ++ Text.decimal (Run.ofMachine settings machine).faults]
        <:+: runLines format settings machine := by
  have hSummary : runSummary format settings (Run.ofMachine settings machine)
      <:+ runLines format settings machine := List.suffix_append _ _
  exact List.IsInfix.trans ⟨[""], _, rfl⟩ hSummary.isInfix

/-- The command for runs ends well, and the last it prints are the lines of the run. -/
theorem runScript_runIn {options : RunOptions} {settings : Settings} {program : Program}
    {machine : Machine} (hSettings : tree.settings? format options = some settings)
    (hProgram : tree.program? options.program = some program)
    (hMachine : Machine.ofProgram program = .ok machine) :
    ∃ loading, ((Command.run options).script format).runIn tree
      = ({ output := loading ++ runLines format settings machine }, tree) := by
  show ∃ loading, Script.runFrom {} tree (runScript format options) = _
  rw [runScript, Script.runFrom_withSettings hSettings, Script.runFrom]
  obtain ⟨lines, hLines⟩ := Script.runFrom_withProgram hProgram fun program =>
    withMachine program fun machine => .print (runLines format settings machine) .done
  rw [hLines]
  simp only [withMachine, hMachine, Script.runFrom]
  exact ⟨_, rfl⟩

end ControlUnit.CommandLine
