/-
**Programs that give files more names.**

Main definitions:

* `JobShell.Programs.LinkStyle` — what kind of links is made, and what of the files in their places;
* `JobShell.Programs.ln` — making links, in a directory or at a path;
* `JobShell.Programs.link` — making one hard link.
-/

import JobShell.Programs.Canonical

set_option autoImplicit false

namespace JobShell.Programs

/-- What kind of links is made. -/
structure LinkStyle where
  symbolic : Bool
  /-- A symbolic link holds the way from its directory. -/
  relative : Bool
  /-- A hard link is made to what a symbolic one leads to. -/
  follows : Bool
  /-- Files are removed that are in the place of a link. -/
  forced : Bool
  /-- It is asked before that. -/
  asking : Bool

namespace LinkStyle

/-- The style that options ask for. -/
def ofRequest (r : Request) : LinkStyle :=
  { symbolic := r.has 's'
    relative := r.has 'r'
    follows := r.lastOf "LP" = some 'L'
    forced := r.lastOf "fi" = some 'f'
    asking := r.lastOf "fi" = some 'i' }

/-- Makes a link. -/
def make (s : LinkStyle) (source path : Bytes) : Prog (Except Errno Unit) := do
  if s.symbolic then Prog.ask (.alter (.symbolicLink source path))
  else if s.follows then
    match ← canonicalPath .none source with
    | .error errno => return .error errno
    | .ok found => Prog.ask (.alter (.hardLink found path))
  else Prog.ask (.alter (.hardLink source path))

/-- Says that a link has been made. -/
def report (s : LinkStyle) (r : Request) (source path : Bytes) : Prog Bool := do
  tell r (between (if s.symbolic then " -> " else " => ") path source)
  return true

/-- Complains that a link cannot be made. -/
def complain (s : LinkStyle) (r : Request) (source path : Bytes) (e : Errno) : Prog Bool := do
  let (what, both) :=
    if s.symbolic then
      ("failed to create symbolic link ",
        if e = Errno.nameTooLong ∨ source = [] then " -> " else "")
    else ("failed to create hard link ", if e = Errno.alreadyExists then "" else " => ")
  let names := if both = "" then Quoted.forShell path else between both path source
  r.complainOf (utf8 what ++ names) e
  return false

/-- Whether two paths are the same name in the same directory. -/
def isSameName (a b : Bytes) : Prog Bool := do
  if baseName a ≠ baseName b then return false
  else
    match ← statusOf? (parentPath a) true, ← statusOf? (parentPath b) true with
    | some one, some other => return one.number = other.number
    | _, _ => return false

/-- Whether the file of a path may be taken out of the way of a link; it has been complained about if
not. -/
def makeRoom (s : LinkStyle) (r : Request) (source path : Bytes) : Prog Bool := do
  let itself ← Prog.ask (.status path false)
  let origin ← statusOf? source (s.symbolic || s.follows)
  match itself with
  | .error errno =>
    if errno = Errno.noEntry then return true
    else
      r.complainOf (utf8 "failed to access " ++ Quoted.forShell path) errno
      return false
  | .ok status =>
    if isDirectoryStatus status then
      r.complain (Quoted.plainForShell path ++ utf8 ": cannot overwrite directory")
      return false
    else
      let same ← match origin with
        | some o =>
          if o.number = status.number then
            if o.links = 1 then pure true else isSameName source path
          else pure false
        | none => pure false
      if same then
        r.complain (between " and " source path ++ utf8 " are the same file")
        return false
      else if s.asking then confirm r (utf8 "replace " ++ Quoted.forShell path)
      else return true

/-- Makes a link, given why a first attempt has failed, if there was one. -/
def retry (s : LinkStyle) (r : Request) (source path : Bytes) (failure : Option Errno) :
    Prog Bool := do
  let origin ← Prog.ask (.status source s.follows)
  match s.symbolic, origin with
  | false, .error errno =>
    r.complainOf (utf8 "failed to access " ++ Quoted.forShell source) errno
    return false
  | false, .ok { content := .directory _ _, .. } =>
    if r.has 'd' ∨ r.has 'F' then s.complain r source path (failure.getD Errno.notPermitted)
    else
      r.complain (Quoted.plainForShell source ++ utf8 ": hard link not allowed for directory")
      return false
  | _, _ =>
    let source ← if s.relative then
        match ← canonicalPath .any (parentPath path), ← canonicalPath .any source with
        | .ok place, .ok found => pure (relativePath place found)
        | _, _ => pure source
      else pure source
    let attempt : Prog Bool := do
      match ← s.make source path with
      | .ok () => s.report r source path
      | .error errno => s.complain r source path errno
    if s.forced ∨ s.asking then
      if ← s.makeRoom r source path then
        if (← statusOf? path false).isSome then
          let _ ← Prog.ask (.alter (.unlink path))
        attempt
      else return false
    else
      match failure with
      | some errno => s.complain r source path errno
      | none => attempt

/-- Makes a link to a source. -/
def single (s : LinkStyle) (r : Request) (source path : Bytes) : Prog Bool := do
  if s.relative then s.retry r source path none
  else
    match ← s.make source path with
    | .ok () => s.report r source path
    | .error errno => s.retry r source path (some errno)

/-- Makes links in a directory, under the last names of their sources. -/
def inside (s : LinkStyle) (r : Request) (directory : Bytes) (sources : List Bytes) : Prog Nat :=
  codeOf <$> forEach sources fun source =>
    s.single r source (inDirectory directory (baseName source))

end LinkStyle

/-- Makes a link at a path, or in the directory that is there. -/
def linkAt (r : Request) (s : LinkStyle) (source path : Bytes) : Prog Nat := do
  let first ← if s.relative then pure none else some <$> s.make source path
  match first with
  | some (.ok ()) => codeOf <$> s.report r source path
  | _ =>
    let failure := match first with
      | some (.error errno) => some errno
      | _ => none
    let occupied := failure.all fun e =>
      e = Errno.alreadyExists ∨ e = Errno.notDirectory ∨ e = Errno.invalid
    if occupied ∧ (← isDirectory path (!r.has 'n')) then s.inside r path [source]
    else codeOf <$> s.retry r source path failure

/-- Makes links as the operands say, of which there is one at least. -/
def linkOperands (r : Request) (s : LinkStyle) : Prog Nat := do
  match r.argument? 't', r.operands with
  | some directory, sources => s.inside r directory sources
  | none, [source] => s.inside r FileSystem.dot [source]
  | none, [source, path] => linkAt r s source path
  | none, operands =>
    let place := operands.getLastD []
    match ← Prog.ask (.status place true) with
    | .ok { content := .directory _ _, .. } => s.inside r place operands.dropLast
    | .ok _ =>
      r.complainOf (utf8 "target " ++ Quoted.forShell place) Errno.notDirectory
      return 1
    | .error errno =>
      r.complainOf (utf8 "target " ++ Quoted.forShell place) errno
      return 1

/-- Complains about a directory for links that is none. -/
def missingPlace (r : Request) (place : Bytes) : Prog Bool := do
  match ← Prog.ask (.status place true) with
  | .ok { content := .directory _ _, .. } => return false
  | .ok _ =>
    r.complain (utf8 "target " ++ Quoted.forShell place ++ utf8 " is not a directory")
    return true
  | .error errno =>
    r.complainOf (utf8 "failed to access " ++ Quoted.forShell place) errno
    return true

/-- Makes links. -/
def ln (r : Request) : Prog Nat := do
  let s := LinkStyle.ofRequest r
  let place := r.argument? 't'
  let misplaced ← match place with
    | some place => missingPlace r place
    | none => pure false
  if misplaced then return 1
  else if r.operands = [] then missingFile r
  else if s.relative ∧ s.symbolic = false then
    r.complain (utf8 "cannot do --relative without --symbolic")
    return 1
  else
    match r.has 'T', place, r.operands with
    | false, _, _ => linkOperands r s
    | true, some _, _ =>
      r.complain (utf8 "cannot combine --target-directory and --no-target-directory")
      return 1
    | true, none, [source, path] => codeOf <$> s.single r source path
    | true, none, _ :: _ :: extra :: _ => r.refuse (utf8 "extra operand " ++ Quoted.forShell extra)
    | true, none, operands =>
      r.refuse (utf8 "missing destination file operand after "
        ++ Quoted.forShell (operands.headD []))

/-- Makes one hard link. -/
def link (r : Request) : Prog Nat := do
  match r.operands with
  | [] => r.missingOperand
  | [only] => r.missingAfter only
  | [source, path] =>
    codeOf <$> change r (utf8 "cannot create link " ++ between " to " path source)
      (.hardLink source path)
  | _ :: _ :: extra :: _ => r.extraOperand extra

end JobShell.Programs
