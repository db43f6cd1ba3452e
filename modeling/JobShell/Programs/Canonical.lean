/-
**Where paths lead.**

A canonical path starts at the root and has no links and no dots on it, so two such paths can be
compared part by part.

Main definitions:

* `JobShell.Programs.Missing`, `JobShell.Programs.canonicalPath` — the canonical path of a path;
* `JobShell.Programs.relativePath` — the way from one canonical path to another;
* `JobShell.Programs.readlink`, `JobShell.Programs.realpath` — writing the targets of links, and
  canonical paths.
-/

import JobShell.Programs.Paths

set_option autoImplicit false

namespace JobShell.Programs

/-! ### Canonical paths -/

/-- Which parts of a path may be missing. -/
inductive Missing where
  | none
  | last
  | any
  deriving DecidableEq, Repr, Inhabited

/-- The parts of a path; an empty one at the end stands for a slash there. -/
def slashedParts (path : Bytes) : List Bytes :=
  FileSystem.parts path ++ if FileSystem.isSlashed path then [[]] else []

/-- The canonical path that parts lead to from a canonical path. -/
def canonical (missing : Missing) : Nat → Bytes → List Bytes → Prog (Except Errno Bytes)
  | 0, _, _ => return .error Errno.tooManyLinks
  | _, place, [] => return .ok place
  | n + 1, place, part :: rest => do
    if part = [] ∨ part = FileSystem.dot then canonical missing n place rest
    else if part = FileSystem.dotDot then canonical missing n (parentPath place) rest
    else
      let path := inDirectory place part
      match ← Prog.ask (.status path false) with
      | .ok { content := .link target, .. } =>
        let start := if FileSystem.isAbsolute target then [slash] else place
        let looping : Bool := match ← Prog.ask (.status path true) with
          | .error errno => errno = Errno.tooManyLinks
          | .ok _ => false
        if looping = false then canonical missing n start (slashedParts target ++ rest)
        else if missing = .any then canonical missing n path rest
        else return .error Errno.tooManyLinks
      | .ok { content := .directory _ _, .. } => canonical missing n path rest
      | .ok _ =>
        if rest = [] ∨ missing = .any then canonical missing n path rest
        else return .error Errno.notDirectory
      | .error errno =>
        let last := rest.all (· = [])
        if missing = .any ∨ (errno = Errno.noEntry ∧ missing = .last ∧ last) then
          canonical missing n path rest
        else return .error errno

/-- How many parts of paths are followed. -/
def maxParts : Nat := 4096

/-- The canonical path of a path. -/
def canonicalPath (missing : Missing) (path : Bytes) : Prog (Except Errno Bytes) := do
  if FileSystem.isAbsolute path then canonical missing maxParts [slash] (slashedParts path)
  else if path = [] then return .error Errno.noEntry
  else
    match ← Prog.ask .workingDirectory with
    | .ok place => canonical missing maxParts place (slashedParts path)
    | .error errno => return .error errno

/-! ### Relative paths -/

/-- The parts of two paths after those that they begin with together. -/
def apart : List Bytes → List Bytes → List Bytes × List Bytes
  | a :: as, b :: bs => if a = b then apart as bs else (a :: as, b :: bs)
  | as, bs => (as, bs)

/-- The way from a canonical path of a directory to another one. -/
def relativePath (start path : Bytes) : Bytes :=
  let (up, down) := apart (FileSystem.parts start) (FileSystem.parts path)
  match up.map (fun _ => FileSystem.dotDot) ++ down with
  | [] => FileSystem.dot
  | ps => Bytes.join slash ps

/-- Whether a canonical path lies below another one, or is it. -/
def liesBelow (top path : Bytes) : Bool :=
  (FileSystem.parts top).isPrefixOf (FileSystem.parts path)

/-! ### The programs -/

/-- What follows each path that is written. -/
def pathEnd (r : Request) : Bytes := if r.has 'z' then [nul] else [newline]

/-- Which parts of a path may be missing, as options say. -/
def missingOf (r : Request) : Missing :=
  match r.lastOf "efm" with
  | some 'e' => .none
  | some 'm' => .any
  | _ => .last

/-- Writes the targets of links, or where paths lead. -/
def readlink (r : Request) : Prog Nat := do
  let several := 1 < r.operands.length
  if r.operands = [] then r.missingOperand
  else
    if r.has 'n' ∧ several then
      r.complain (utf8 "ignoring --no-newline with multiple arguments")
    let ending := if r.has 'n' ∧ several = false then [] else pathEnd r
    codeOf <$> forEach r.operands fun path => do
      let found ← if (r.lastOf "efm").isSome then canonicalPath (missingOf r) path
        else Prog.ask (.readLink path)
      match found with
      | .ok target =>
        say (target ++ ending)
        return true
      | .error errno =>
        if r.lastOf "qsv" = some 'v' then r.blame path errno
        return false

/-- A canonical path that others are told from, or the exit code. -/
def startingPlace (r : Request) (path : Bytes) : Prog (Except Nat Bytes) := do
  match ← canonicalPath (missingOf r) path with
  | .error errno =>
    r.blame path errno
    return .error 1
  | .ok place =>
    if r.lastOf "em" ≠ some 'e' ∨ (← isDirectory place true) then return .ok place
    else
      let errno := if (← statusOf? place true).isSome then Errno.notDirectory else Errno.noEntry
      r.blame path errno
      return .error 1

/-- From where paths are told, and below which directory they must lie for that. -/
def startingPlaces (r : Request) : Prog (Except Nat (Option Bytes × Option Bytes)) := do
  match r.wordArgument? "relative-to", r.wordArgument? "relative-base" with
  | none, none => return .ok (none, none)
  | some start, none => return (← startingPlace r start).map fun place => (some place, none)
  | start, some base =>
    match ← startingPlace r (start.getD base), ← startingPlace r base with
    | .error code, _ | _, .error code => return .error code
    | .ok place, .ok top =>
      return .ok (if liesBelow top place then (some place, some top) else (none, none))

/-- Writes canonical paths, or the ways to them. -/
def realpath (r : Request) : Prog Nat := do
  if r.operands = [] then r.missingOperand
  else
    match ← startingPlaces r with
    | .error code => return code
    | .ok (start, top) =>
      codeOf <$> forEach r.operands fun path => do
        match ← canonicalPath (missingOf r) path with
        | .error errno =>
          if r.has 'q' = false then r.blame path errno
          return false
        | .ok found =>
          let near := top.all fun top => liesBelow top found
          let shown := match start with
            | some start => if near then relativePath start found else found
            | none => found
          say (shown ++ pathEnd r)
          return true

end JobShell.Programs
