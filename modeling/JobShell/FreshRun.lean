/-
**A command line on a fresh machine.**

The shell is started with arguments, some variables and an input, and runs to its end.  What its
processes write after that still belongs to its output.

Main definitions:

* `JobShell.FreshRun` — what the shell is started with;
* `JobShell.FreshRun.Result` — how it ends, and what was written;
* `JobShell.FreshRun.run` — the run, and the machine when every process has finished.
-/

import JobShell.CommandLine
import JobShell.Installation

set_option autoImplicit false

namespace JobShell

/-- What the shell is started with. -/
structure FreshRun where
  arguments : List Bytes
  /-- The variables that are set or changed. -/
  overrides : Environment := []
  input : Bytes := []
  deriving DecidableEq, Repr, Inhabited

namespace FreshRun

/-- How the shell ends, and what was written to its output and its diagnostics. -/
structure Result where
  ending : CommandLine.RunEnd
  output : Bytes
  diagnostics : Bytes
  deriving DecidableEq, Repr, Inhabited

/-- The variables that are there unless they are changed. -/
def usual : Environment :=
  (utf8 "PIPESH_LOG", utf8 "off") :: Installation.environment (some Installation.workingPath)

/-- The environment of the shell, by name. -/
def environment (r : FreshRun) : Environment :=
  let inherited := usual.filter fun v => (r.overrides.lookup v.1).isNone
  (inherited ++ r.overrides).mergeSort fun a b => Bytes.le a.1 b.1

/-- Runs the shell to its end, and then all other processes to theirs. -/
def run (r : FreshRun) (entries : List (Bytes × Installation.Entry)) : Result × Machine :=
  let start := Installation.shell entries r.environment r.input
  let (ending, s) := CommandLine.runBytes r.arguments r.environment start
  let m := s.host.settle {}
  (⟨ending, m.output, m.diagnostics⟩, m)

end FreshRun

end JobShell
