/-
**Looking at the file tree and changing it.**

What programs have in common that make, remove, copy or list files.

Main definitions:

* `JobShell.Programs.statusOf?`, `JobShell.Programs.isDirectory` — what a path leads to;
* `JobShell.Programs.change`, `JobShell.Programs.changeAndTell` — changes that are complained about or
  told of;
* `JobShell.Programs.confirm` — asking before something is done.
-/

import JobShell.Programs.Request

set_option autoImplicit false

namespace JobShell.Programs

/-! ### Looking -/

/-- How deep a tree is that is walked. -/
def treeDepth : Nat := 2048

/-- A path of an entry of a directory. -/
def inDirectory (directory entry : Bytes) : Bytes :=
  if directory.getLast? = some slash then directory ++ entry else directory ++ slash :: entry

/-- A text without the slashes at its end. -/
def dropSlashes (path : Bytes) : Bytes := (path.reverse.dropWhile (· = slash)).reverse

/-- A path without the slashes at its end; the root directory keeps one. -/
def strippedPath (path : Bytes) : Bytes :=
  let stem := dropSlashes path
  if stem = [] then path.take 1 else stem

/-- The status of a path, if there is such a file. -/
def statusOf? (path : Bytes) (follow : Bool) : Prog (Option FileStatus) := do
  match ← Prog.ask (.status path follow) with
  | .ok status => return some status
  | .error _ => return none

/-- Whether a status is a directory's. -/
def isDirectoryStatus (status : FileStatus) : Bool :=
  match status.content with
  | .directory _ _ => true
  | _ => false

/-- Whether a path leads to a directory. -/
def isDirectory (path : Bytes) (follow : Bool) : Prog Bool := do
  return (← statusOf? path follow).any isDirectoryStatus

/-- Whether a file may be written. -/
def mayWrite (path : Bytes) : Prog Bool := do
  match ← Prog.ask (.access path .write) with
  | .ok () => return true
  | .error _ => return false

/-- The permissions that new files do not get. -/
def currentMask : Prog Nat := do
  let mask : Nat ← Prog.ask (.setMask 0)
  let _ ← Prog.ask (.setMask mask)
  return mask

/-! ### Changing -/

/-- A change of the tree; a failure is reported after the given words. -/
def change (r : Request) (what : Bytes) (c : FileSystem.Change) : Prog Bool := do
  match ← Prog.ask (.alter c) with
  | .ok () => return true
  | .error errno =>
    r.complainOf what errno
    return false

/-- Says what has been done, if that is asked for. -/
def tell (r : Request) (text : Bytes) : Prog Unit := do
  if r.has 'v' then say (text ++ [newline])

/-- A change of the tree that is told of. -/
def changeAndTell (r : Request) (what done : Bytes) (c : FileSystem.Change) : Prog Bool := do
  let ok ← change r what c
  if ok then tell r done
  return ok

/-- The words between two names. -/
def between (words : String) (a b : Bytes) : Bytes :=
  Quoted.forShell a ++ utf8 words ++ Quoted.forShell b

/-- The complaint about a missing file operand. -/
def missingFile (r : Request) : Prog Nat := r.refuse (utf8 "missing file operand")

/-- The first byte of the next line of the input. -/
def readAnswer : Prog (Option UInt8) :=
  Prog.repeatWhile
    (fun (first : Option UInt8) => do
      match ← Prog.ask (.read 0 1) with
      | .ok [c] => return if c = newline then .inr first else .inl (first.or (some c))
      | _ => return .inr first)
    id none

/-- Asks whether something is to be done. -/
def confirm (r : Request) (question : Bytes) : Prog Bool := do
  let _ ← emit 2 (r.name ++ utf8 ": " ++ question ++ utf8 "? ")
  let answer ← readAnswer
  return answer = some 121 || answer = some 89

end JobShell.Programs
