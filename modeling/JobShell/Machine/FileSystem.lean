/-
**The file tree.**

Files are numbered; a directory gives names to numbers and knows the directory it lies in.  A path
is followed part by part, through symbolic links, of which a path may meet only so many, and
through directories that may be searched.  What the last part means depends on what is wanted:
the file that it leads to, a file that may have to be made, or the name itself.

Main definitions:

* `JobShell.FileSystem.Node`, `JobShell.FileSystem` — a file, and all files;
* `JobShell.FileSystem.grants` — what the user may do with a file;
* `JobShell.FileSystem.walk`, `JobShell.FileSystem.spot`, `JobShell.FileSystem.find` — following a
  path;
* `JobShell.FileSystem.openNode` — the file that an opening finds or makes;
* `JobShell.FileSystem.enter`, `JobShell.FileSystem.pathOf` — directories as working directories.
-/

import JobShell.Errno
import JobShell.Number

set_option autoImplicit false

namespace JobShell

namespace FileSystem

/-- The files that are no storage. -/
inductive Device where
  /-- Empty to read, and takes everything. -/
  | null
  /-- Endless zeros to read, and takes everything. -/
  | zero
  /-- Endless zeros to read, and takes nothing. -/
  | full
  deriving DecidableEq, Repr, Inhabited

/-- What the system tells of a process. -/
inductive Account where
  | status
  | stat
  | name
  deriving DecidableEq, Repr, Inhabited

/-- What a file is. -/
inductive Content where
  | file (data : Bytes)
  | directory (entries : List (Bytes × Nat)) (parent : Nat)
  | link (target : Bytes)
  | fifo (pipe : Nat)
  | device (kind : Device)
  /-- An installed program. -/
  | program (name : Bytes)
  /-- What is told of a process, at the time when it is read. -/
  | account (process : Int) (item : Account)
  deriving DecidableEq, Repr, Inhabited

/-- What can be permitted. -/
inductive Permission where
  | read
  | write
  /-- Running a file, or following a path through a directory. -/
  | execute
  deriving DecidableEq, Repr, Inhabited

/-- The bit of a permission. -/
def Permission.bit : Permission → Nat
  | .read => 4
  | .write => 2
  | .execute => 1

/-- A file with its permissions. -/
structure Node where
  content : Content
  mode : Nat
  /-- The directory has been taken out of the tree. -/
  removed : Bool := false
  /-- The file belongs to the system and not to the user. -/
  system : Bool := false
  deriving DecidableEq, Repr, Inhabited

/-- Whether the user may do something with a file: as its owner, or as one of the others. -/
def Node.grants (node : Node) (p : Permission) : Bool :=
  (if node.system then node.mode else node.mode >>> 6) &&& p.bit ≠ 0

end FileSystem

/-- All files, by number.  The root directory has the number 0. -/
structure FileSystem where
  nodes : List FileSystem.Node
  deriving DecidableEq, Repr, Inhabited

/-- How a file is opened. -/
structure OpenMode where
  read : Bool := false
  write : Bool := false
  /-- Make the file if there is none. -/
  create : Bool := false
  /-- Fail if there is one. -/
  exclusive : Bool := false
  /-- Empty it. -/
  truncate : Bool := false
  /-- Write at its end. -/
  append : Bool := false
  deriving DecidableEq, Repr, Inhabited

namespace FileSystem

/-- The name of a directory in itself. -/
def dot : Bytes := [46]

/-- The name in a directory of the one it lies in. -/
def dotDot : Bytes := [46, 46]

/-- The greatest length of a name. -/
def maxName : Nat := 255

/-- A path is shorter than this. -/
def maxPath : Nat := 4096

/-- How many symbolic links a path may meet. -/
def maxLinks : Nat := 40

/-- The parts of a path. -/
def parts (path : Bytes) : List Bytes := (path.splitAt slash).filter (· ≠ [])

/-- Whether a path starts at the root. -/
def isAbsolute (path : Bytes) : Bool := path.head? = some slash

/-- Whether a path ends in a slash. -/
def isSlashed (path : Bytes) : Bool := path.getLast? = some slash

/-- The file of a number. -/
def node? (fs : FileSystem) (n : Nat) : Option Node := fs.nodes[n]?

/-- Replaces a file. -/
def setNode (fs : FileSystem) (n : Nat) (node : Node) : FileSystem := ⟨fs.nodes.set n node⟩

/-- Adds a file, to which no name leads yet. -/
def add (fs : FileSystem) (node : Node) : Nat × FileSystem :=
  (fs.nodes.length, ⟨fs.nodes ++ [node]⟩)

/-- Whether a number is a directory's. -/
def isDirectory (fs : FileSystem) (n : Nat) : Bool :=
  match fs.node? n with
  | some { content := .directory _ _, .. } => true
  | _ => false

/-- The names in a directory. -/
def entries (fs : FileSystem) (n : Nat) : List (Bytes × Nat) :=
  match fs.node? n with
  | some { content := .directory entries _, .. } => entries
  | _ => []

/-- How many names a file has; a directory is also a name of itself, and of those it lies in. -/
def names (fs : FileSystem) (n : Nat) : Nat :=
  if fs.isDirectory n then 2 + ((fs.entries n).filter fun e => fs.isDirectory e.2).length
  else total (fs.nodes.map fun node =>
    match node.content with
    | .directory entries _ => (entries.filter (·.2 = n)).length
    | _ => 0)

/-- Whether the user may do something with the file of a number. -/
def grants (fs : FileSystem) (n : Nat) (p : Permission) : Bool :=
  (fs.node? n).any (·.grants p)

/-- Demands a permission. -/
def demand (fs : FileSystem) (n : Nat) (p : Permission) : Except Errno Unit :=
  if fs.grants n p then .ok () else .error Errno.accessDenied

/-! ### Following a path -/

/-- The last part of a path. -/
inductive LastPart where
  | name (name : Bytes)
  /-- The directory itself. -/
  | dot
  /-- The directory that the directory lies in. -/
  | dotDot
  /-- There is none. -/
  | nothing
  deriving DecidableEq, Repr

/-- Where a path leads: the last directory on it, the last part, and the file of that. -/
structure Spot where
  directory : Nat
  last : LastPart
  node : Option Nat
  /-- A slash follows the last part. -/
  slashed : Bool
  deriving DecidableEq, Repr

/-- What the last part of a path is wanted for. -/
inductive Aim where
  /-- A file.  A link is followed if that is said, or if a slash follows, which demands a
  directory. -/
  | file (follow : Bool)
  /-- A file that is made if there is none, which cannot be if a slash follows. -/
  | making (follow : Bool)
  /-- The name itself, whatever it is the name of. -/
  | name
  deriving DecidableEq, Repr

/-- Whether a link is followed that is the last part of a path. -/
def Aim.follows (slashed : Bool) : Aim → Bool
  | .file follow => follow || slashed
  | .making follow => follow
  | .name => false

/-- The file of a name in a directory. -/
def lookup (fs : FileSystem) (directory : Nat) (name : Bytes) : Except Errno (Option Nat) :=
  match fs.node? directory with
  | some { content := .directory entries _, removed := removed, .. } =>
    if removed then .error Errno.noEntry
    else if maxName < name.length then .error Errno.nameTooLong
    else .ok (entries.lookup name)
  | _ => .error Errno.notDirectory

/-- Follows the parts of a path from a directory, and by `follow` a link that is met on it. -/
def walkParts (fs : FileSystem) (aim : Aim) (slashed : Bool)
    (follow : Bool → Nat → List Bytes → Except Errno Spot) :
    Nat → List Bytes → Except Errno Spot
  | directory, [] => .ok ⟨directory, .nothing, some directory, slashed⟩
  | directory, name :: rest =>
    match fs.node? directory with
    | some { content := .directory _ parent, .. } =>
      if fs.grants directory .execute = false then .error Errno.accessDenied
      else if name = dot then
        if rest = [] then .ok ⟨directory, .dot, some directory, slashed⟩
        else walkParts fs aim slashed follow directory rest
      else if name = dotDot then
        if rest = [] then .ok ⟨directory, .dotDot, some parent, slashed⟩
        else walkParts fs aim slashed follow parent rest
      else if rest = [] ∧ slashed ∧ aim matches .making _ then .error Errno.isDirectory
      else
        match fs.lookup directory name with
        | .error errno => .error errno
        | .ok none =>
          if rest = [] then .ok ⟨directory, .name name, none, slashed⟩ else .error Errno.noEntry
        | .ok (some n) =>
          match fs.node? n with
          | some { content := .link target, .. } =>
            if rest = [] ∧ aim.follows slashed = false then
              .ok ⟨directory, .name name, some n, slashed⟩
            else
              follow (slashed || (rest.isEmpty && isSlashed target))
                (if isAbsolute target then 0 else directory) (parts target ++ rest)
          | _ =>
            if rest = [] then .ok ⟨directory, .name name, some n, slashed⟩
            else walkParts fs aim slashed follow n rest
    | _ => .error Errno.notDirectory

/-- Follows the parts of a path from a directory; `budget` links may be met. -/
def walk (fs : FileSystem) (aim : Aim) :
    (budget : Nat) → (slashed : Bool) → (directory : Nat) → List Bytes → Except Errno Spot
  | 0, slashed => fs.walkParts aim slashed fun _ _ _ => .error Errno.tooManyLinks
  | budget + 1, slashed => fs.walkParts aim slashed (walk fs aim budget)

/-- Follows a path from a working directory. -/
def spot (fs : FileSystem) (place : Nat) (path : Bytes) (aim : Aim) : Except Errno Spot := do
  if path = [] then throw Errno.noEntry
  if maxPath ≤ path.length then throw Errno.nameTooLong
  fs.walk aim maxLinks (isSlashed path) (if isAbsolute path then 0 else place) (parts path)

/-- The file that a path leads to. -/
def find (fs : FileSystem) (place : Nat) (path : Bytes) (follow : Bool) : Except Errno Nat := do
  let spot ← fs.spot place path (.file follow)
  match spot.node with
  | some n => if spot.slashed ∧ fs.isDirectory n = false then throw Errno.notDirectory else return n
  | none => throw Errno.noEntry

/-- Puts a name into a directory. -/
def addName (fs : FileSystem) (directory : Nat) (name : Bytes) (n : Nat) : FileSystem :=
  match fs.node? directory with
  | some node =>
    match node.content with
    | .directory entries parent =>
      fs.setNode directory { node with content := .directory (entries ++ [(name, n)]) parent }
    | _ => fs
  | none => fs

/-- Takes a name out of a directory. -/
def dropName (fs : FileSystem) (directory : Nat) (name : Bytes) : FileSystem :=
  match fs.node? directory with
  | some node =>
    match node.content with
    | .directory entries parent =>
      fs.setNode directory
        { node with content := .directory (entries.filter (·.1 ≠ name)) parent }
    | _ => fs
  | none => fs

/-- Makes a file of a name in a directory. -/
def make (fs : FileSystem) (directory : Nat) (name : Bytes) (node : Node) : Nat × FileSystem :=
  let (n, fs) := fs.add node
  (n, fs.addName directory name n)

/-! ### Opening -/

/-- Cuts bytes off, or adds zeros, so that so many are there. -/
def resized (data : Bytes) (size : Nat) : Bytes :=
  data.take size ++ List.replicate (size - data.length) 0

/-- Gives a file another size; `none` if it is no storage. -/
def resize (fs : FileSystem) (n : Nat) (size : Nat) : Option FileSystem :=
  match fs.node? n with
  | some node =>
    match node.content with
    | .file data => some (fs.setNode n { node with content := .file (resized data size) })
    | _ => none
  | none => none

/-- Whether a file may be opened, and the files afterwards. -/
def allowOpen (fs : FileSystem) (n : Nat) (how : OpenMode) : Except Errno FileSystem := do
  if fs.isDirectory n ∧ (how.write ∨ how.create) then throw Errno.isDirectory
  if how.read then fs.demand n .read
  if how.write then fs.demand n .write
  return if how.truncate then (fs.resize n 0).getD fs else fs

/-- Finds or makes the file that a path leads to, as an opening asks for it. -/
def openNode (fs : FileSystem) (place : Nat) (path : Bytes) (how : OpenMode) (mode : Nat) :
    Except Errno (Nat × FileSystem) := do
  if how.create = false then
    let n ← fs.find place path true
    return (n, ← fs.allowOpen n how)
  let spot ← fs.spot place path (.making (!how.exclusive))
  match spot.node, spot.last with
  | none, .name name =>
    fs.demand spot.directory .write
    return fs.make spot.directory name { content := .file [], mode := mode }
  | none, _ => throw Errno.noEntry
  | some n, _ =>
    if how.exclusive then throw Errno.alreadyExists
    return (n, ← fs.allowOpen n how)

/-- Puts bytes into a file at an offset.  A gap before them is filled with zeros. -/
def splice (data : Bytes) (offset : Nat) (bytes : Bytes) : Bytes :=
  data.take offset ++ List.replicate (offset - data.length) 0 ++ bytes
    ++ data.drop (offset + bytes.length)

/-! ### Working directories -/

/-- The directory that a path leads to. -/
def enter (fs : FileSystem) (place : Nat) (path : Bytes) : Except Errno Nat := do
  let n ← fs.find place path true
  if fs.isDirectory n = false then throw Errno.notDirectory
  fs.demand n .execute
  return n

/-- The path of a directory, on a climb of at most so many steps. -/
def climb (fs : FileSystem) : Nat → Nat → Bytes → Except Errno Bytes
  | _, 0, path => .ok (if path = [] then [slash] else path)
  | 0, _, _ => .error Errno.noEntry
  | fuel + 1, n, path =>
    match fs.node? n with
    | some { content := .directory _ parent, removed := false, .. } =>
      match (fs.entries parent).find? (·.2 = n) with
      | some (name, _) => climb fs fuel parent (slash :: name ++ path)
      | none => .error Errno.noEntry
    | _ => .error Errno.noEntry

/-- The path of a directory. -/
def pathOf (fs : FileSystem) (n : Nat) : Except Errno Bytes := fs.climb fs.nodes.length n []

end FileSystem

end JobShell
