/-
**Changing permissions.**

Main definitions:

* `JobShell.Programs.chmodTree` — changing the permissions of files in a tree;
* `JobShell.Programs.chmod` — the program.
-/

import JobShell.Programs.Tree
import JobShell.Text.Permissions

set_option autoImplicit false

namespace JobShell.Programs

/-- A change of permissions, and what is said about it. -/
structure ModeChange where
  steps : List Permissions.Step
  mask : Nat
  /-- A change to something else than what it looks like is complained about. -/
  surprising : Bool := false
  /-- Whether nothing but changes is told of; nothing is told of without it. -/
  telling : Option Bool := none
  /-- Most complaints are left out. -/
  silent : Bool := false
  recursive : Bool := false

namespace ModeChange

/-- Permissions in digits and in letters. -/
def shown (mode : Nat) : Bytes :=
  Permissions.octal 4 mode ++ utf8 " (" ++ Permissions.letters mode ++ utf8 ")"

/-- Complains, unless that is left out. -/
def complain (m : ModeChange) (r : Request) (text : Bytes) : Prog Bool := do
  if m.silent = false then r.complain text
  return false

/-- Complains about an error, unless that is left out. -/
def complainOf (m : ModeChange) (r : Request) (text : Bytes) (e : Errno) : Prog Bool :=
  m.complain r (text ++ utf8 ": " ++ utf8 e.systemText)

/-- Complains about a file that cannot be looked at, and tells of it. -/
def missing (m : ModeChange) (r : Request) (name text : Bytes) : Prog Bool := do
  let _ ← m.complain r text
  if m.telling = some false then say (name ++ utf8 " could not be accessed\n")
  return false

/-- Changes the permissions of one file. -/
def single (m : ModeChange) (r : Request) (path : Bytes) (status : FileStatus) : Prog Bool := do
  let directory := isDirectoryStatus status
  let name := Quoted.forShell path
  let new := Permissions.apply directory m.mask m.steps status.mode
  let result ← Prog.ask (.alter (.setMode path new))
  match m.telling, result with
  | some onlyChanges, .ok () =>
    if status.mode ≠ new then
      say (utf8 "mode of " ++ name ++ utf8 " changed from " ++ shown status.mode ++ utf8 " to "
        ++ shown new ++ [newline])
    else if onlyChanges = false then
      say (utf8 "mode of " ++ name ++ utf8 " retained as " ++ shown new ++ [newline])
  | _, _ => pure ()
  match result with
  | .error errno =>
    let _ ← m.complainOf r (utf8 "changing permissions of " ++ name) errno
    if m.telling = some false then
      say (utf8 "failed to change mode of " ++ name ++ utf8 " from " ++ shown status.mode
        ++ utf8 " to " ++ shown new ++ [newline])
    return false
  | .ok () =>
    let expected := Permissions.apply directory 0 m.steps status.mode
    if m.surprising ∧ Permissions.without new expected ≠ 0 then
      r.complain (Quoted.plainForShell path ++ utf8 ": new permissions are "
        ++ Permissions.letters new ++ utf8 ", not " ++ Permissions.letters expected)
      return false
    else return true

/-- Changes the permissions of a file, and of what is below it if that is asked for, to some depth.
Links are followed only at the top. -/
def tree (m : ModeChange) (r : Request) : Nat → Bool → Bytes → Prog Bool
  | 0, _, _ => return false
  | depth + 1, top, path => do
    let name := Quoted.forShell path
    match ← Prog.ask (.status path false), ← Prog.ask (.status path true) with
    | .ok { content := .link _, .. }, .error errno =>
      if top = false then return true
      else if errno = Errno.noEntry then
        m.missing r name (utf8 "cannot operate on dangling symlink " ++ name)
      else m.missing r name (utf8 "cannot access " ++ name ++ utf8 (": " ++ errno.systemText))
    | .error errno, _ | _, .error errno =>
      m.missing r name (utf8 "cannot access " ++ name ++ utf8 (": " ++ errno.systemText))
    | .ok itself, .ok status =>
      if itself.number ≠ status.number ∧ top = false then
        if m.telling = some false then
          say (utf8 "neither symbolic link " ++ name
            ++ utf8 " nor referent has been changed\n")
        return true
      let changed ← m.single r path status
      if m.recursive ∧ isDirectoryStatus status ∧ itself.number = status.number then
        match ← Prog.ask (.list path) with
        | .ok names =>
          let below ← forEach names fun entry => tree m r depth false (inDirectory path entry)
          return changed && below
        | .error errno => m.complainOf r (utf8 "cannot read directory " ++ name) errno
      else return changed

end ModeChange

/-- The letters with which permissions begin that look like an option. -/
def modeLetters : String := "rwxXstugoa,+=01234567"

/-- The options of `chmod`, permissions among them. -/
def chmodOptions : OptionSet :=
  .ofText ("Rcfv" ++ String.join (modeLetters.toList.map fun c => c.toString ++ "::"))
    ["changes=c", "recursive=R", "no-preserve-root", "preserve-root", "quiet=f", "reference:",
      "silent=f", "verbose=v"]

/-- The permissions among the options. -/
def modesAmong (given : Given) : List Bytes :=
  given.filterMap fun o => match o with
    | (.letter c, rest) =>
      if modeLetters.toList.contains c then some (45 :: c.toUInt8 :: rest) else none
    | _ => none

/-- Changes the permissions of files. -/
def chmodFiles (r : Request) (m : ModeChange) (paths : List Bytes) : Prog Nat := do
  let telling := match r.lastOf "cv" with
    | some 'c' => some true
    | some _ => some false
    | none => none
  let m := { m with telling := telling, silent := r.has 'f', recursive := r.has 'R' }
  codeOf <$> forEach paths (m.tree r treeDepth true)

/-- Changes the permissions of files. -/
def chmod (r : Request) : Prog Nat := do
  match Request.read chmodOptions false (r.name :: r.operands) r.environment with
  | .error refusal => r.refuse refusal.message
  | .ok r =>
    let modes := modesAmong r.options
    let reference := r.wordArgument? "reference"
    if reference.isSome ∧ modes ≠ [] then
      r.refuse (utf8 "cannot combine mode and --reference options")
    else
      let (mode, paths) := match reference, modes, r.operands with
        | some _, _, paths => ([], paths)
        | none, [], mode :: paths => (mode, paths)
        | none, modes, paths => (Bytes.join 44 modes, paths)
      match paths, reference, modes, r.operands with
      | [], none, [], only :: _ => r.missingAfter only
      | [], _, _, _ => r.missingOperand
      | paths, some other, _, _ =>
        match ← Prog.ask (.status other true) with
        | .error errno =>
          r.complainOf (utf8 "failed to get attributes of " ++ Quoted.forShell other) errno
          return 1
        | .ok status =>
          let step : Permissions.Step :=
            { operator := 61, affected := Permissions.allBits, bits := status.mode
              mentioned := Permissions.allBits }
          chmodFiles r { steps := [step], mask := 0 } paths
      | paths, none, modes, _ =>
        match Permissions.read? mode with
        | none => r.refuse (utf8 "invalid mode: " ++ Quoted.escaped mode)
        | some steps =>
          chmodFiles r { steps := steps, mask := ← currentMask, surprising := modes ≠ [] } paths

end JobShell.Programs
