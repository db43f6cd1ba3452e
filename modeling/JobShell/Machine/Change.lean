/-
**Changes of the file tree.**

Names come and go: directories, links and fifos are made, files are removed and get other names.
A change happens in the directory of the name, which the user must be permitted to write and to
search.

Main definitions:

* `JobShell.FileSystem.Change` — a change;
* `JobShell.FileSystem.vacant`, `JobShell.FileSystem.occupied` — the place of a name that is to be
  made, or that is there;
* `JobShell.FileSystem.alter` — what a change does.
-/

import JobShell.Machine.FileSystem

set_option autoImplicit false

namespace JobShell.FileSystem

/-- A change of the tree. -/
inductive Change where
  | makeDirectory (path : Bytes) (mode : Nat)
  | removeDirectory (path : Bytes)
  | unlink (path : Bytes)
  | rename (old new : Bytes)
  | hardLink (old new : Bytes)
  | symbolicLink (target path : Bytes)
  | makeFifo (path : Bytes) (mode : Nat)
  | setMode (path : Bytes) (mode : Nat)
  deriving DecidableEq, Repr

/-- Demands that the names in a directory may be changed. -/
def demandChange (fs : FileSystem) (directory : Nat) : Except Errno Unit := do
  fs.demand directory .write
  fs.demand directory .execute

/-- The directory and the name for a new file.  A slash may follow only the name of a
directory. -/
def vacant (fs : FileSystem) (place : Nat) (path : Bytes) (directory : Bool) :
    Except Errno (Nat × Bytes) := do
  let spot ← fs.spot place path .name
  match spot.last, spot.node with
  | .name name, none =>
    if spot.slashed ∧ directory = false then throw Errno.noEntry
    fs.demandChange spot.directory
    return (spot.directory, name)
  | _, _ => throw Errno.alreadyExists

/-- Makes a file at a path to which no file belongs yet. -/
def place (fs : FileSystem) (start : Nat) (path : Bytes) (node : Node) :
    Except Errno FileSystem := do
  let (directory, name) ← fs.vacant start path false
  return (fs.make directory name node).2

/-- The spot of a name that is there.  `other` is the error for a path without a last name. -/
def occupied (fs : FileSystem) (start : Nat) (path : Bytes) (other : LastPart → Errno) :
    Except Errno (Spot × Bytes × Nat) := do
  let spot ← fs.spot start path .name
  match spot.last, spot.node with
  | .name name, some n => return (spot, name, n)
  | .name _, none => throw Errno.noEntry
  | last, _ => throw (other last)

/-- Whether a directory is another one or lies below it, on a climb of at most so many steps. -/
def liesIn (fs : FileSystem) (ancestor : Nat) : Nat → Nat → Bool
  | 0, n => n = ancestor
  | fuel + 1, n =>
    if n = ancestor then true
    else
      match fs.node? n with
      | some { content := .directory _ parent, .. } => n ≠ parent && liesIn fs ancestor fuel parent
      | _ => false

/-- Marks a directory as one to which no name leads any more. -/
def discard (fs : FileSystem) (n : Nat) : FileSystem :=
  match fs.node? n with
  | some node =>
    match node.content with
    | .directory _ _ => fs.setNode n { node with removed := true }
    | _ => fs
  | none => fs

/-- Whether a file may take the place of another one. -/
def mayReplace (fs : FileSystem) (n other : Nat) : Except Errno Unit := do
  match fs.isDirectory n, fs.isDirectory other with
  | false, true => throw Errno.isDirectory
  | true, false => throw Errno.notDirectory
  | _, _ => if fs.entries other ≠ [] then throw Errno.notEmpty

/-- Why a path without a last name is no name of a directory to be removed. -/
def notRemovable : LastPart → Errno
  | .dot => Errno.invalid
  | .dotDot => Errno.notEmpty
  | _ => Errno.busy

/-- Removes an empty directory. -/
def removeDirectory (fs : FileSystem) (start : Nat) (path : Bytes) : Except Errno FileSystem := do
  let (spot, name, n) ← fs.occupied start path notRemovable
  fs.demandChange spot.directory
  if fs.isDirectory n = false then throw Errno.notDirectory
  if fs.entries n ≠ [] then throw Errno.notEmpty
  return (fs.discard n).dropName spot.directory name

/-- Removes the name of a file that is no directory. -/
def unlink (fs : FileSystem) (start : Nat) (path : Bytes) : Except Errno FileSystem := do
  let (spot, name, n) ← fs.occupied start path fun _ => Errno.isDirectory
  if spot.slashed then
    throw (if fs.isDirectory n then Errno.isDirectory else Errno.notDirectory)
  fs.demandChange spot.directory
  if fs.isDirectory n then throw Errno.isDirectory
  return fs.dropName spot.directory name

/-- Lets a directory lie in another one. -/
def setParent (fs : FileSystem) (n parent : Nat) : FileSystem :=
  match fs.node? n with
  | some node =>
    match node.content with
    | .directory entries _ => fs.setNode n { node with content := .directory entries parent }
    | _ => fs
  | none => fs

/-- Gives a file another name, and takes it from the file that had it. -/
def rename (fs : FileSystem) (start : Nat) (old new : Bytes) : Except Errno FileSystem := do
  let (spot, name, n) ← fs.occupied start old fun _ => Errno.busy
  let target ← fs.spot start new .name
  match target.last with
  | .name newName =>
    let isDirectory := fs.isDirectory n
    if isDirectory = false ∧ (spot.slashed ∨ target.slashed) then throw Errno.notDirectory
    if isDirectory ∧ fs.liesIn n fs.nodes.length target.directory then throw Errno.invalid
    match target.node with
    | some other =>
      if other = n then return fs
      if fs.isDirectory other ∧ fs.liesIn other fs.nodes.length spot.directory then
        throw Errno.notEmpty
    | none => pure ()
    fs.demandChange spot.directory
    fs.demandChange target.directory
    match target.node with
    | some other => fs.mayReplace n other
    | none => pure ()
    if isDirectory ∧ spot.directory ≠ target.directory then fs.demand n .write
    let fs := match target.node with
      | some other => fs.discard other
      | none => fs
    let fs := (fs.dropName target.directory newName).dropName spot.directory name
    return (fs.addName target.directory newName n).setParent n target.directory
  | _ => throw Errno.busy

/-- Gives a file a second name. -/
def hardLink (fs : FileSystem) (start : Nat) (old new : Bytes) : Except Errno FileSystem := do
  let n ← fs.find start old false
  let (directory, name) ← fs.vacant start new false
  if fs.isDirectory n then throw Errno.notPermitted
  return fs.addName directory name n

/-- Changes a file of the user's. -/
def modifyOwn (fs : FileSystem) (n : Nat) (f : Node → Node) : Except Errno FileSystem :=
  match fs.node? n with
  | some node => if node.system then .error Errno.notPermitted else .ok (fs.setNode n (f node))
  | none => .error Errno.noEntry

/-- Changes the tree.  A new fifo gets the pipe of the given number. -/
def alter (fs : FileSystem) (start pipe : Nat) : Change → Except Errno FileSystem
  | .makeDirectory path mode => do
    let (directory, name) ← fs.vacant start path true
    return (fs.make directory name { content := .directory [] directory, mode := mode }).2
  | .removeDirectory path => fs.removeDirectory start path
  | .unlink path => fs.unlink start path
  | .rename old new => fs.rename start old new
  | .hardLink old new => fs.hardLink start old new
  | .symbolicLink target path =>
    if target = [] then .error Errno.noEntry
    else fs.place start path { content := .link target, mode := 0o777 }
  | .makeFifo path mode => fs.place start path { content := .fifo pipe, mode := mode }
  | .setMode path mode => do
    fs.modifyOwn (← fs.find start path true) fun node => { node with mode := mode }

end JobShell.FileSystem
