/-
**Programs that remove files.**

Main definitions:

* `JobShell.Programs.Removal` — what has become of a file that was to be removed;
* `JobShell.Programs.removeTree`, `JobShell.Programs.rm` — removing files and what is below them;
* `JobShell.Programs.rmdir` — removing empty directories;
* `JobShell.Programs.unlink` — removing one name.
-/

import JobShell.Programs.Paths

set_option autoImplicit false

namespace JobShell.Programs

/-! ### Files and trees -/

/-- What has become of a file that was to be removed. -/
inductive Removal where
  /-- Nothing more is to be done. -/
  | settled
  /-- A directory is not entered, so those that it lies in stay too. -/
  | barred
  | failed
  deriving DecidableEq, Repr, Inhabited

/-- When is asked before a file is removed. -/
inductive Asking where
  | never
  /-- Once, if there is much to remove. -/
  | once
  | always
  deriving DecidableEq, Repr, Inhabited

/-- When options want to be asked; nothing if they do not say. -/
def askingOf (r : Request) : Except Objection (Option Asking) :=
  let words := [("never", Asking.never), ("no", .never), ("none", .never), ("once", .once),
    ("always", .always), ("yes", .always)]
  r.options.foldlM (fun asking o =>
    match o with
    | (.letter 'f', _) => .ok (some .never)
    | (.letter 'i', _) => .ok (some .always)
    | (.letter 'I', _) => .ok (some .once)
    | (.word "interactive", text) =>
      if text = [] then .ok (some .always) else (chooseWord "--interactive" words text).map some
    | _ => .ok asking) none

/-- What to remove besides files. -/
structure Thoroughness where
  recursive : Bool
  /-- Directories without entries are removed. -/
  empty : Bool
  /-- Files that are not there are no failures. -/
  forgiving : Bool
  asking : Bool
  /-- The number of a directory that must stay. -/
  kept : Option Nat := none

namespace Thoroughness

/-- The words for the kind of a file. -/
def kindText (status : FileStatus) : String :=
  match status.content with
  | .file [] => "regular empty file"
  | .file _ | .program _ | .account _ _ => "regular file"
  | .directory _ _ => "directory"
  | .link _ => "symbolic link"
  | .fifo _ => "fifo"
  | .device _ => "character special file"

/-- Whether a file is to be removed, after asking if that is wanted. -/
def consents (t : Thoroughness) (r : Request) (path : Bytes) (status : FileStatus)
    (descending : Bool) : Prog Bool := do
  if t.asking = false then return true
  else
    let isLink := match status.content with
      | .link _ => true
      | _ => false
    let writable ← if isLink then pure true else mayWrite path
    let protection := if writable = false then "write-protected " else ""
    let verb := if descending then "descend into " else "remove "
    confirm r (utf8 (verb ++ protection ++ kindText status ++ " ") ++ Quoted.forShell path)

/-- Takes a name out of its directory. -/
def excise (t : Thoroughness) (r : Request) (path : Bytes) (directory : Bool)
    (unreadable : Option Errno) : Prog Removal := do
  let name := Quoted.forShell path
  let c : FileSystem.Change := if directory then .removeDirectory path else .unlink path
  match ← Prog.ask (.alter c) with
  | .ok () =>
    tell r (utf8 (if directory then "removed directory " else "removed ") ++ name)
    return .settled
  | .error errno =>
    if t.forgiving ∧ (errno = Errno.noEntry ∨ errno = Errno.notDirectory) then return .settled
    else
      let replaced := errno = Errno.notEmpty ∨ errno = Errno.isDirectory
        ∨ errno = Errno.notDirectory
      r.complainOf (utf8 "cannot remove " ++ name)
        (if replaced then unreadable.getD errno else errno)
      return .failed

/-- Runs a function on each element, and gives the worst that has become of one. -/
def worst {α : Type} (body : α → Prog Removal) : List α → Prog Removal
  | [] => return .settled
  | a :: rest => do
    let first ← body a
    let others ← worst body rest
    return if first = .failed ∨ others = .settled then first else others

/-- Why a directory that is an operand stays where it is, if it does. -/
def refusal (t : Thoroughness) (r : Request) (path : Bytes) (status : FileStatus) :
    Prog (Option Removal) := do
  let name := Quoted.forShell path
  if baseName path = FileSystem.dot ∨ baseName path = FileSystem.dotDot then
    r.complain (utf8 "refusing to remove '.' or '..' directory: skipping " ++ name)
    return some .failed
  else if t.kept = some status.number then
    let same := if path = [slash] then [] else utf8 " (same as '/')"
    r.complain (utf8 "it is dangerous to operate recursively on " ++ name ++ same)
    r.complain (utf8 "use --no-preserve-root to override this failsafe")
    return some .failed
  else return none

/-- Removes a file, and what is below it if that is asked for, to some depth. -/
def removeTree (t : Thoroughness) (r : Request) : Nat → Bool → Bytes → Prog Removal
  | 0, _, _ => return .failed
  | depth + 1, top, path => do
    let fail (errno : Errno) : Prog Removal := do
      r.complainOf (utf8 "cannot remove " ++ Quoted.forShell path) errno
      return .failed
    match ← Prog.ask (.status path false) with
    | .error errno =>
      if t.forgiving ∧ (errno = Errno.noEntry ∨ errno = Errno.notDirectory) then return .settled
      else fail errno
    | .ok status =>
      if isDirectoryStatus status = false then
        if ← t.consents r path status false then t.excise r path false none else return .settled
      else
        let (names, unreadable) := match ← Prog.ask (.list path) with
          | .ok names => (names, none)
          | .error errno => ([], some errno)
        if t.recursive = false ∧ t.empty = false then fail Errno.isDirectory
        else if t.recursive = false ∧ (names ≠ [] ∨ unreadable.isSome) then fail Errno.notEmpty
        else
          let refused ← if top then t.refusal r path status else pure none
          match refused with
          | some result => return result
          | none =>
            if names = [] then
              if ← t.consents r path status false then t.excise r path true unreadable
              else return .barred
            else if (← t.consents r path status true) = false then return .barred
            else
              match ← worst (fun entry => removeTree t r depth false (inDirectory path entry))
                  names with
              | .settled =>
                if ← t.consents r path status false then t.excise r path true none
                else return .settled
              | below => return below

end Thoroughness

/-- The question that is asked once. -/
def questionFor (count : Nat) (recursive : Bool) : Bytes :=
  utf8 "remove " ++ Bytes.ofNat count ++ utf8 (if count = 1 then " argument" else " arguments")
    ++ utf8 (if recursive then " recursively" else "")

/-- Removes files. -/
def rm (r : Request) : Prog Nat := do
  match askingOf r with
  | .error objection => r.object 1 objection
  | .ok asking =>
    let recursive := r.has 'r' || r.has 'R'
    let forgiving := r.lastOf "fiI" = some 'f'
    let count := r.operands.length
    if r.operands = [] then
      if forgiving then return 0 else r.missingOperand
    else
      let asked := asking = some .once && (recursive || 3 < count)
      let wanted ← if asked then confirm r (questionFor count recursive) else pure true
      if wanted = false then return 0
      else
        let root ← statusOf? [slash] true
        let t : Thoroughness :=
          { recursive := recursive, empty := r.has 'd', forgiving := forgiving
            asking := asking = some .always
            kept := if recursive ∧ r.hasWord "no-preserve-root" = false then root.map (·.number)
              else none }
        codeOf <$> forEach r.operands fun path => do
          return (← t.removeTree r treeDepth true path) ≠ .failed

/-! ### Empty directories -/

/-- The directories above a path, the nearest first. -/
def parentsOf : Nat → Bytes → List Bytes
  | 0, _ => []
  | n + 1, path =>
    if path.contains slash = false then []
    else
      let front := dropSlashes ((path.reverse.dropWhile (· ≠ slash)).reverse)
      if front = [] then [[slash]] else front :: parentsOf n front

/-- Whether a link was meant that a slash follows: it is not followed. -/
def isUnfollowed (path : Bytes) : Prog Bool := do
  if FileSystem.isSlashed path = false then return false
  else
    let reachable : Bool := match ← Prog.ask (.status path true) with
      | .ok status => isDirectoryStatus status
      | .error errno => errno ≠ Errno.notDirectory
    match reachable, ← statusOf? (strippedPath path) false with
    | true, some { content := .link _, .. } => return true
    | _, _ => return false

/-- Removes one empty directory that is an operand, or the parent of one; says whether it is gone, and
whether all went well. -/
def removeEmpty (r : Request) (isOperand : Bool) (path : Bytes) : Prog (Bool × Bool) := do
  let name := Quoted.forShell path
  tell r (r.name ++ utf8 ": removing directory, " ++ name)
  match ← Prog.ask (.alter (.removeDirectory path)) with
  | .ok () => return (true, true)
  | .error errno =>
    if r.hasWord "ignore-fail-on-non-empty" ∧ errno = Errno.notEmpty then return (false, true)
    else
      let noDirectory := errno = Errno.notDirectory
      let unfollowed ← if isOperand && noDirectory then isUnfollowed path else pure false
      if unfollowed then
        r.complain (utf8 "failed to remove " ++ name ++ utf8 ": Symbolic link not followed")
      else
        let kind := if isOperand || noDirectory then "" else "directory "
        r.complainOf (utf8 ("failed to remove " ++ kind) ++ name) errno
      return (false, false)

/-- Removes empty directories, and those above them if that is asked for. -/
def rmdir (r : Request) : Prog Nat := do
  if r.operands = [] then r.missingOperand
  else
    codeOf <$> forEach r.operands fun path => do
      let stem := strippedPath path
      let above := if r.has 'p' then parentsOf stem.length stem else []
      let (first, ok) ← removeEmpty r true path
      let (_, ok) ← above.foldlM (fun (going, ok) parent =>
        if going then removeEmpty r false parent else return (going, ok)) (first, ok)
      return ok

/-! ### Names -/

/-- Removes one name. -/
def unlink (r : Request) : Prog Nat := do
  match r.operands with
  | [] => r.missingOperand
  | [path] =>
    codeOf <$> change r (utf8 "cannot unlink " ++ Quoted.forShell path) (.unlink path)
  | _ :: extra :: _ => r.extraOperand extra

end JobShell.Programs
