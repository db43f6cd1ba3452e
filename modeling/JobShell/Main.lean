/-
**The program.**

Runs the shell on a fresh machine: the input, the arguments and the environment are those of the
process, and what the shell writes is copied to its output and diagnostics.
-/

import JobShell.CommandLine
import JobShell.Installation

set_option autoImplicit false

open JobShell

/-- The variables that the shell reads itself. -/
def settingsVariables : List String := [Settings.promptVariable, Settings.maxLineVariable]

/-- Runs the shell. -/
def main (arguments : List String) : IO UInt32 := do
  let input ← (← IO.getStdin).readBinToEnd
  let values ← settingsVariables.mapM fun name => do return (name, ← IO.getEnv name)
  let environment := Installation.environment (some Installation.workingPath)
  let shell := Installation.shell [] environment input.data.toList
  let (ending, shell) :=
    CommandLine.run arguments (fun name => (values.lookup name).join) shell
  (← IO.getStdout).write ⟨shell.host.output.toArray⟩
  (← IO.getStderr).write ⟨shell.host.diagnostics.toArray⟩
  match ending with
  | .exited status => return status.toUInt32
  | .killed signal => return (128 + signal).toUInt32
  | .stuck => return 1
