/-
**Lines that can be run.**

A pipeline that is one empty slot asks for nothing and is dropped.  Any other pipeline needs a
command in every slot; one that lacks it rejects the whole line.

Main definitions:

* `JobShell.Draft.isBlank`, `JobShell.Draft.runnable` — the two cases of a pipeline;
* `JobShell.Line.validate` — the pipelines of a line that can be run.
-/

import JobShell.Line.Basic

set_option autoImplicit false

namespace JobShell

/-- Whether a written pipeline is one empty slot. -/
def Draft.isBlank (d : Draft) : Bool := d.slots == [none]

/-- The commands of slots that all have one. -/
def commandsOf : List (Option Command) → Except LineError (List Command)
  | [] => .ok []
  | none :: _ => .error .emptyCommand
  | some c :: slots => do
    let commands ← commandsOf slots
    return c :: commands

/-- A written pipeline as one that can be run. -/
def Draft.runnable (d : Draft) : Except LineError Pipeline := do
  let commands ← commandsOf d.slots
  return ⟨commands, d.background⟩

/-- The pipelines of a line, without those that ask for nothing. -/
def Line.validate : Line → Except LineError (List Pipeline)
  | [] => .ok []
  | d :: line =>
    if d.isBlank then Line.validate line
    else do
      let p ← d.runnable
      let rest ← Line.validate line
      return p :: rest

end JobShell
