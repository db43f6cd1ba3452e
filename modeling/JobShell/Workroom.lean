/-
**The room in which shells are watched.**

One working directory serves one shell after another.  It is made empty for each, and when a shell
and all its processes are done its files are listed.  What cannot be read cannot be listed, and
what cannot be removed stays in the way of everybody who comes later.

Main definitions:

* `JobShell.Workroom` — the working directory between two uses;
* `JobShell.Workroom.use` — one use, and the files that it leaves.
-/

import JobShell.Installation
import JobShell.Machine.Inventory

set_option autoImplicit false

namespace JobShell

/-- The working directory between two uses. -/
structure Workroom where
  /-- Something lies in the directory that cannot be removed. -/
  obstructed : Bool := false
  deriving DecidableEq, Repr, Inhabited

namespace Workroom

/-- Uses the working directory of a machine for something: what came of it and the files that were
left, or `none` if the directory cannot be had empty or its files cannot be listed. -/
def use {α : Type} (room : Workroom) (body : Unit → α × Machine) :
    Option (α × List (Bytes × FileSystem.Node)) × Workroom :=
  if room.obstructed then (none, room)
  else
    let (result, m) := body ()
    let files := m.files
    let place := Installation.workingPlace
    (if files.isReadable place then some (result, files.listing place) else none,
      ⟨!files.isRemovable place⟩)

end Workroom

end JobShell
