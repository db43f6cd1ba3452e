/-
**What lies below a directory.**

A whole part of the tree is put in place, listed, or cleared away.  Listing takes the permission to
read what is listed, and clearing away that of changing every directory that is not empty.

Main definitions:

* `JobShell.FileSystem.install` — putting a file into the tree;
* `JobShell.FileSystem.listing`, `JobShell.FileSystem.isReadable` — everything below a directory,
  and whether it can be listed;
* `JobShell.FileSystem.isRemovable` — whether everything below a directory can be removed.
-/

import JobShell.Machine.FileSystem

set_option autoImplicit false

namespace JobShell.FileSystem

/-! ### Putting in place -/

/-- The root directory alone. -/
def empty : FileSystem :=
  ⟨[{ content := .directory [] 0, mode := 0o755 }]⟩

/-- Makes the directories on the way to a path, and gives the last one. -/
def makeWay (fs : FileSystem) : Nat → List Bytes → Nat × FileSystem
  | n, [] => (n, fs)
  | n, name :: rest =>
    match (fs.entries n).lookup name with
    | some child => makeWay fs child rest
    | none =>
      let (child, fs) := fs.make n name { content := .directory [] n, mode := 0o755 }
      makeWay fs child rest

/-- Puts a file into the tree, with the directories on the way to it. -/
def install (fs : FileSystem) (n : Nat) (path : Bytes) (content : Nat → Content) (mode : Nat) :
    FileSystem :=
  match (parts path).getLast? with
  | none => fs
  | some name =>
    let (directory, fs) := fs.makeWay n (parts path).dropLast
    let node : Node := { content := content directory, mode := mode }
    match (fs.entries directory).lookup name with
    | some child => fs.setNode child node
    | none => (fs.make directory name node).2

/-- Lets all files belong to the system. -/
def handOver (fs : FileSystem) : FileSystem :=
  ⟨fs.nodes.map fun node => { node with system := true }⟩

/-! ### Listing and clearing away -/

/-- Everything below a directory, to a depth, with paths that start at it. -/
def below (fs : FileSystem) : Nat → Nat → Bytes → List (Bytes × Node)
  | 0, _, _ => []
  | depth + 1, n, start =>
    (fs.entries n).flatMap fun (name, child) =>
      match fs.node? child with
      | some node => (start ++ name, node) :: below fs depth child (start ++ name ++ [slash])
      | none => []

/-- Everything below a directory, in the order of the paths. -/
def listing (fs : FileSystem) (n : Nat) : List (Bytes × Node) :=
  (fs.below fs.nodes.length n []).mergeSort fun a b => Bytes.le a.1 b.1

/-- Whether a file can be shown in a listing. -/
def Node.isShowable (node : Node) : Bool :=
  match node.content with
  | .directory entries _ => node.grants .read && (entries.isEmpty || node.grants .execute)
  | .link _ => true
  | _ => node.grants .read

/-- Whether a file stands in nobody's way: of a directory the names must be such that they can be
read, and changed if there are any. -/
def Node.isClearable (node : Node) : Bool :=
  match node.content with
  | .directory entries _ =>
    node.grants .read && (entries.isEmpty || (node.grants .write && node.grants .execute))
  | _ => true

/-- A directory together with everything below it. -/
def within (fs : FileSystem) (n : Nat) : List Node :=
  (fs.node? n).toList ++ (fs.listing n).map (·.2)

/-- Whether everything below a directory can be listed. -/
def isReadable (fs : FileSystem) (n : Nat) : Bool := (fs.within n).all Node.isShowable

/-- Whether everything below a directory can be removed. -/
def isRemovable (fs : FileSystem) (n : Nat) : Bool := (fs.within n).all Node.isClearable

end JobShell.FileSystem
