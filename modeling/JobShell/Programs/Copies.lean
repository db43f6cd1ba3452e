/-
**Programs that copy and move files.**

Main definitions:

* `JobShell.Programs.Target` — where operands are to be put;
* `JobShell.Programs.Copying`, `JobShell.Programs.Copying.tree` — copying a file and what is below
  it;
* `JobShell.Programs.cp`, `JobShell.Programs.mv` — the programs.
-/

import JobShell.Programs.Making
import JobShell.Programs.Canonical

set_option autoImplicit false

namespace JobShell.Programs

/-! ### Where operands are put -/

/-- The operands of a program that puts some files somewhere. -/
structure Target where
  sources : List Bytes
  /-- A directory for the sources, or the path for a single one. -/
  place : Bytes
  isDirectory : Bool

namespace Target

/-- Complains about a place that is no directory. -/
def complainOf (r : Request) (kind : String) (place : Bytes) : Prog (Option Target) := do
  let errno := match ← Prog.ask (.status place true) with
    | .ok _ => Errno.notDirectory
    | .error errno => errno
  r.complainOf (utf8 (kind ++ " ") ++ Quoted.forShell place) errno
  return none

/-- Complains about too few operands. -/
def incomplete (r : Request) : Prog (Option Target) := do
  let _ ← match r.operands with
    | [] => missingFile r
    | operand :: _ =>
      r.refuse (utf8 "missing destination file operand after " ++ Quoted.forShell operand)
  return none

/-- Reads operands, or complains about them. -/
def read? (r : Request) : Prog (Option Target) := do
  match r.argument? 't', r.has 'T', r.operands with
  | some _, _, [] | none, _, [] | none, _, [_] => incomplete r
  | some _, true, _ =>
    r.complain (utf8 "cannot combine --target-directory (-t) and --no-target-directory (-T)")
    return none
  | some place, false, sources =>
    if ← Programs.isDirectory place true then
      return some { sources := sources, place := place, isDirectory := true }
    else complainOf r "target directory" place
  | none, true, _ :: _ :: extra :: _ =>
    let _ ← r.refuse (utf8 "extra operand " ++ Quoted.forShell extra)
    return none
  | none, unasked, operands =>
    let place := operands.getLastD []
    let found ← if unasked then pure false else Programs.isDirectory place true
    if found ∨ operands.length = 2 then
      return some { sources := operands.dropLast, place := place, isDirectory := found }
    else complainOf r "target" place

/-- The path for a source. -/
def pathFor (t : Target) (source : Bytes) : Bytes :=
  if t.isDirectory then inDirectory t.place (baseName source) else t.place

end Target

/-! ### What is done about a file in the way -/

/-- What is done about a file in the place of a copy. -/
inductive Collision where
  | replace
  | ask
  /-- The source is left out. -/
  | skip
  /-- That is a failure. -/
  | refuse
  deriving DecidableEq, Repr, Inhabited

/-- Permissions in digits and letters, as a question has them. -/
def questionMode (mode : Nat) (gap : String) : Bytes :=
  Permissions.octal 4 mode ++ utf8 gap ++ Permissions.letters mode

/-- Asks whether a file is to be replaced. -/
def confirmOver (r : Request) (moving : Bool) (path : Bytes) (status : FileStatus) :
    Prog Bool := do
  let name := Quoted.forShell path
  let isLink := match status.content with
    | .link _ => true
    | _ => false
  let writable ← if isLink then pure true else mayWrite path
  confirm r <|
    if writable then utf8 "overwrite " ++ name
    else if moving then
      utf8 "replace " ++ name ++ utf8 ", overriding mode " ++ questionMode status.mode " ("
        ++ utf8 ")"
    else
      utf8 "unwritable " ++ name ++ utf8 " (mode " ++ questionMode status.mode ", "
        ++ utf8 "); try anyway"

/-- The complaint about two names of one file. -/
def sameFile (r : Request) (source target : Bytes) : Prog Bool := do
  r.complain (between " and " source target ++ utf8 " are the same file")
  return false

/-- The complaint about a directory in the place of something else. -/
def overDirectory (r : Request) (target : Bytes) : Prog Bool := do
  r.complain (utf8 "cannot overwrite directory " ++ Quoted.forShell target
    ++ utf8 " with non-directory")
  return false

/-- The complaint about something else in the place of a directory. -/
def overOther (r : Request) (source target : Bytes) : Prog Bool := do
  r.complain (utf8 "cannot overwrite non-directory " ++ Quoted.forShell target
    ++ utf8 " with directory " ++ Quoted.forShell source)
  return false

/-! ### Copying -/

/-- What a copy is. -/
inductive CopyKind where
  | content
  | hardLink
  | symbolicLink
  deriving DecidableEq, Repr, Inhabited

/-- Which links among the sources are followed. -/
inductive Following where
  | nothing
  | operands
  | everything
  deriving DecidableEq, Repr, Inhabited

/-- How files are copied. -/
structure Copying where
  kind : CopyKind
  recursive : Bool
  following : Following
  collision : Collision
  /-- Files are removed that are in the way and cannot be written. -/
  forced : Bool
  /-- Files in the way are always removed. -/
  clearing : Bool
  /-- Copies have all permissions of their sources. -/
  exact : Bool
  /-- Copies have no content. -/
  hollow : Bool

namespace Copying

/-- What is done about files in the way, as options say. -/
def collisionOf (r : Request) : Except Objection Collision := do
  let words := [("all", Collision.replace), ("none", .skip), ("older", .replace)]
  let updates ← (r.argumentsOf (.word "update")).mapM fun text =>
    if text = [] then .ok .replace else chooseWord "--update" words text
  return match r.lastOf "in", updates.getLast? with
    | some 'i', _ => .ask
    | some _, _ => .skip
    | none, update => update.getD .replace

/-- How options want files to be copied. -/
def ofRequest (r : Request) : Except Objection Copying := do
  let collision ← collisionOf r
  let recursive := r.has 'r' || r.has 'R' || r.has 'a'
  return {
    kind := if r.has 'l' then .hardLink else if r.has 's' then .symbolicLink else .content
    recursive := recursive
    following := match r.lastOf "LPHda" with
      | some 'L' => .everything
      | some 'H' => .operands
      | some _ => .nothing
      | none => if recursive ∧ r.has 'l' = false then .nothing else .everything
    collision := collision
    forced := r.has 'f'
    clearing := r.hasWord "remove-destination"
    exact := r.has 'p' || r.has 'a' || r.hasWord "preserve"
    hollow := r.hasWord "attributes-only" }

/-- Whether links are followed to a source. -/
def follows (c : Copying) (top : Bool) : Bool :=
  match c.following with
  | .nothing => false
  | .operands => top
  | .everything => true

/-- Copies the content of one open file to another. -/
def content (r : Request) (source : Bytes) (input output : Nat) : Prog Bool := do
  match ← forEachBlock input copySize (fun _ bytes => do
      let ok ← emit output bytes
      return ((), !ok)) () with
  | .ok () => return true
  | .error errno =>
    r.complainOf (utf8 "error reading " ++ Quoted.forShell source) errno
    return false

/-- Opens the place of a copy for writing. -/
def openTarget (c : Copying) (r : Request) (target : Bytes) (exists' : Bool) (mode : Nat) :
    Prog (Except Errno Nat) := do
  let fresh : Prog (Except Errno Nat) :=
    Prog.ask (.openPath target { write := true, create := true, exclusive := true } mode)
  if exists' = false then fresh
  else
    match ← Prog.ask (.openPath target { write := true, truncate := !c.hollow } 0) with
    | .ok fd => return .ok fd
    | .error errno =>
      if c.forced then
        match ← Prog.ask (.alter (.unlink target)) with
        | .ok () =>
          tell r (utf8 "removed " ++ Quoted.forShell target)
          fresh
        | .error _ => return .error errno
      else return .error errno

/-- Copies one file by its content. -/
def file (c : Copying) (r : Request) (source target : Bytes) (exists' : Bool) (mode : Nat) :
    Prog Bool := do
  match ← Prog.ask (.openPath source { read := true } 0) with
  | .error errno =>
    r.complainOf (utf8 "cannot open " ++ Quoted.forShell source ++ utf8 " for reading") errno
    return false
  | .ok input =>
    match ← c.openTarget r target exists' mode with
    | .error errno =>
      let _ ← Prog.ask (.close input)
      let slashed := errno = Errno.isDirectory ∧ FileSystem.isSlashed target
      if errno = Errno.alreadyExists then
        r.complain (utf8 "not writing through dangling symlink " ++ Quoted.forShell target)
      else
        r.complainOf (utf8 "cannot create regular file " ++ Quoted.forShell target)
          (if slashed then Errno.notDirectory else errno)
      return false
    | .ok output =>
      let ok ← if c.hollow then pure true else content r source input output
      let _ ← Prog.ask (.close input)
      let _ ← Prog.ask (.close output)
      if c.exact then
        let _ ← Prog.ask (.alter (.setMode target mode))
      return ok

/-- Makes the copy of something that is no directory. -/
def single (c : Copying) (r : Request) (source target : Bytes) (exists' : Bool)
    (status : FileStatus) : Prog Bool := do
  match c.kind, status.content with
  | .symbolicLink, _ =>
    if FileSystem.isAbsolute source = false ∧ (baseName target ≠ target) then
      r.complain (Quoted.plainForShell target
        ++ utf8 ": can make relative symbolic links only in current directory")
      return false
    else
      change r (utf8 "cannot create symbolic link " ++ between " to " target source)
        (.symbolicLink source target)
  | .hardLink, _ =>
    if exists' ∧ (c.forced ∨ c.collision = .ask) then
      let _ ← Prog.ask (.alter (.unlink target))
    change r (utf8 "cannot create hard link " ++ between " to " target source)
      (.hardLink source target)
  | .content, .link link =>
    change r (utf8 "cannot create symbolic link " ++ Quoted.forShell target)
      (.symbolicLink link target)
  | .content, .fifo _ =>
    if c.recursive then
      change r (utf8 "cannot create fifo " ++ Quoted.forShell target)
        (.makeFifo target status.mode)
    else c.file r source target exists' status.mode
  | .content, _ => c.file r source target exists' status.mode

/-- What becomes of a file in the place of a copy: whether it is still there, and whether the copy is
made; there is nothing to do for a result. -/
def meet (c : Copying) (r : Request) (source target : Bytes) (status other : FileStatus) :
    Prog (Except Bool Bool) := do
  let directory := isDirectoryStatus status
  let refuse (p : Prog Bool) : Prog (Except Bool Bool) := do return .error (← p)
  if other.number = status.number then
    if c.kind = .hardLink then return .error true else refuse (sameFile r source target)
  else
    let wanted ← match directory, c.collision with
      | true, _ | _, .replace => pure true
      | _, .ask => confirmOver r false target other
      | _, _ => pure false
    if wanted = false then return .error (c.collision ≠ .ask)
    else
      match directory, isDirectoryStatus other with
      | true, false => refuse (overOther r source target)
      | false, true => refuse (overDirectory r target)
      | true, true => return .ok true
      | false, false =>
        let isLink : Bool := match status.content with
          | .link _ => true
          | _ => false
        if c.clearing ∨ (c.kind = .content ∧ isLink) then
          if ← change r (utf8 "cannot remove " ++ Quoted.forShell target) (.unlink target) then
            tell r (utf8 "removed " ++ Quoted.forShell target)
            return .ok false
          else return .error false
        else return .ok true

/-- Copies a file, and what is below it if that is asked for, to some depth.  `whole` holds the
paths and the number of the directory that all goes to, which is not copied into itself. -/
def tree (c : Copying) (r : Request) (whole : Option (Bytes × Bytes × Nat)) :
    Nat → Bytes → Bytes → Prog Bool
  | 0, _, _ => return false
  | depth + 1, source, target => do
    let fail (what : String) (path : Bytes) (errno : Errno) : Prog Bool := do
      r.complainOf (utf8 what ++ Quoted.forShell path) errno
      return false
    match ← Prog.ask (.status source (c.follows whole.isNone)) with
    | .error errno => fail "cannot stat " source errno
    | .ok status =>
      let directory := isDirectoryStatus status
      let regular := match status.content with
        | .file _ => true
        | .link _ => false
        | _ => !c.recursive
      let followed := !directory && regular && c.kind = .content && !c.clearing
      let looped := whole.filter fun w => w.2.2 = status.number
      if directory ∧ c.recursive = false then
        r.complain (utf8 "-r not specified; omitting directory " ++ Quoted.forShell source)
        return false
      else
        match ← Prog.ask (.status target followed), looped with
        | .ok _, some (source, target, _) | .error _, some (source, target, _) =>
          r.complain (utf8 "cannot copy a directory, "
            ++ between ", into itself, " source target)
          return false
        | other, none =>
          let refused (p : Prog Bool) : Prog (Except Bool Bool) := do return .error (← p)
          let met ← match other with
            | .ok other => c.meet r source target status other
            | .error errno =>
              if errno = Errno.noEntry then pure (.ok false)
              else refused (fail "cannot stat " target errno)
          match met with
          | .error result => return result
          | .ok exists' =>
            if directory = false then
              tell r (between " -> " source target)
              c.single r source target exists' status
            else
              let made ← if exists' then pure true
                else
                  changeAndTell r (utf8 "cannot create directory " ++ Quoted.forShell target)
                    (between " -> " source target)
                    (.makeDirectory target (status.mode ||| 0o700))
              if made = false then return false
              else
                let number := ((← statusOf? target true).map (·.number)).getD 0
                let whole := whole.getD (source, target, number)
                let copied ← match ← Prog.ask (.list source) with
                  | .error errno => fail "cannot access " source errno
                  | .ok names =>
                    forEach names fun entry =>
                      tree c r (some whole) depth (inDirectory source entry)
                        (inDirectory target entry)
                if exists' = false then
                  let mask ← currentMask
                  let mode := if c.exact then status.mode
                    else Permissions.without status.mode (mask ||| 0o7000)
                  let _ ← Prog.ask (.alter (.setMode target mode))
                return copied

end Copying

/-- Files that have been put somewhere: the sources and the places, with their numbers. -/
structure Handled where
  sources : List (Bytes × Nat) := []
  places : List (Bytes × Nat) := []

/-- Puts each source where it belongs.  A source is not taken twice, and no place is filled twice. -/
def putAll (r : Request) (t : Target) (follow : Bool) (pathFor : Bytes → Bytes)
    (put : Bytes → Bytes → Prog Bool) : Prog Nat := do
  let step (state : Handled × Bool) (source : Bytes) : Prog (Handled × Bool) := do
    let (h, ok) := state
    let path := pathFor source
    let status ← statusOf? source follow
    let key := (source, (status.map (·.number)).getD 0)
    let other ← statusOf? path false
    let directory := status.any isDirectoryStatus
    if status.isSome ∧ directory = false ∧ h.sources.contains key then
      r.complain (utf8 "warning: source file " ++ Quoted.forShell source
        ++ utf8 " specified more than once")
      return (h, ok)
    else if status.isSome ∧ other.any fun o =>
        !isDirectoryStatus o && h.places.contains (path, o.number) then
      r.complain (utf8 "will not overwrite just-created " ++ between " with " path source)
      return (h, false)
    else
      let done ← put source path
      let made ← statusOf? path false
      let places := (made.map fun m => (path, m.number)).toList ++ h.places
      return ({ sources := key :: h.sources, places := places }, ok && done)
  let (_, ok) ← t.sources.foldlM step ({}, true)
  return codeOf ok

/-- Makes the directories on the way to a source again below a place. -/
def copyAncestors (r : Request) (place source : Bytes) : Prog Bool :=
  (ancestors source).foldlM (fun ok part => do
    let path := inDirectory place part
    if ok = false then return false
    else if ← isDirectory path true then return true
    else
      let mode := ((← statusOf? part true).map (·.mode)).getD 0o777
      if ← change r (utf8 "cannot make directory " ++ Quoted.forShell path)
          (.makeDirectory path mode) then
        tell r (part ++ utf8 " -> " ++ path)
        return true
      else return false) true

/-- Copies files. -/
def cp (r : Request) : Prog Nat := do
  match Copying.ofRequest r with
  | .error objection => r.object 1 objection
  | .ok c =>
    if r.has 'n' then
      r.complain (utf8 "warning: behavior of -n is non-portable and may change in future; "
        ++ utf8 "use --update=none instead")
    match ← Target.read? r with
    | none => return 1
    | some t =>
      let parents := r.hasWord "parents"
      if parents ∧ t.isDirectory = false then
        r.refuse (utf8 "with --parents, the destination must be a directory")
      else
        let pathFor (source : Bytes) : Bytes :=
          if parents then inDirectory t.place source
          else if t.isDirectory ∧ baseName source = FileSystem.dotDot then
            inDirectory t.place FileSystem.dot
          else t.pathFor source
        putAll r t (c.follows true) pathFor fun source path => do
          let ready ← if parents then copyAncestors r t.place source else pure true
          if ready then c.tree r none treeDepth source path else return false

/-! ### Moving -/

/-- What is done about files in the way, as options say. -/
def movingCollision (r : Request) : Collision :=
  match r.lastOf "fin" with
  | some 'i' => .ask
  | some 'n' => .refuse
  | _ => .replace

/-- Whether a file may be moved to the place of another one, after complaints. -/
def mayMove (r : Request) (source target : Bytes) (status other : FileStatus) : Prog Bool := do
  let directory := isDirectoryStatus status
  if other.number = status.number ∧ movingCollision r ≠ .refuse then sameFile r source target
  else
    match movingCollision r, directory, isDirectoryStatus other with
    | .refuse, _, _ =>
      r.complain (utf8 "not replacing " ++ Quoted.forShell target)
      return false
    | collision, directory, otherDirectory =>
      let wanted ← if collision = .ask then confirmOver r true target other else pure true
      match wanted, directory, otherDirectory with
      | false, _, _ => return false
      | true, true, false => overOther r source target
      | true, false, true => overDirectory r target
      | true, _, _ => return true

/-- Moves one file. -/
def moveFile (r : Request) (source target : Bytes) : Prog Bool := do
  match ← Prog.ask (.status source false), ← Prog.ask (.status target false) with
  | .error errno, _ =>
    r.complainOf (utf8 "cannot stat " ++ Quoted.forShell source) errno
    return false
  | .ok status, other =>
    let allowed ← match other with
      | .ok other => mayMove r source target status other
      | .error errno =>
        if errno = Errno.noEntry then pure true
        else do
          r.complainOf (utf8 "cannot stat " ++ Quoted.forShell target) errno
          pure false
    if allowed = false then return false
    else
      match ← Prog.ask (.alter (.rename source target)) with
      | .ok () =>
        tell r (utf8 "renamed " ++ between " -> " source target)
        return true
      | .error errno =>
        let targetAlone := [Errno.alreadyExists, Errno.isDirectory, Errno.notEmpty,
          Errno.textBusy, Errno.noSpace].contains errno
        if errno = Errno.invalid then
          r.complain (utf8 "cannot move " ++ between " to a subdirectory of itself, " source target)
        else if targetAlone then
          r.complainOf (utf8 "cannot overwrite " ++ Quoted.forShell target) errno
        else r.complainOf (utf8 "cannot move " ++ between " to " source target) errno
        return false

/-- Moves files. -/
def mv (r : Request) : Prog Nat := do
  match ← Target.read? r with
  | none => return 1
  | some t =>
    let stripped (source : Bytes) : Bytes :=
      if r.hasWord "strip-trailing-slashes" then strippedPath source else source
    putAll r { t with sources := t.sources.map stripped } false t.pathFor (moveFile r)

end JobShell.Programs
