/-
**Files that tell of processes.**

Some paths lead to no file of the tree.  They show the state of a process as text, or stand for the
descriptors of the process that opens them.

Main definitions:

* `JobShell.Machine.accountText` — what is told of a process;
* `JobShell.Machine.account?` — the process of which a path under `/proc` tells, and what;
* `JobShell.Machine.descriptorPath?` — the descriptor that a path stands for.
-/

import JobShell.Machine.Process
import JobShell.Number

set_option autoImplicit false

namespace JobShell.Machine

/-- A number in sixteen hexadecimal digits. -/
def hexMask (n : Nat) : String :=
  let digits := Nat.toDigits 16 n
  String.ofList (List.replicate (16 - digits.length) '0' ++ digits)

/-- The set of signals that a process ignores, as a number with one bit for each. -/
def ignoredMask (p : Process) : Nat :=
  ((List.range 64).filter fun i => p.disposition (i + 1) = .ignore).foldl
    (fun mask i => mask + twoTo i) 0

/-- The set of signals that a process blocks, as a number with one bit for each. -/
def blockedMask (p : Process) : Nat := if p.childBlocked then twoTo (Signal.child - 1) else 0

/-- The name of the shell's own program. -/
def shellName : Bytes := utf8 "pipesh"

/-- The short name of the program that a process runs. -/
def commandName (p : Process) : String :=
  Utf8.decodeLossy (((p.image.map (·.name)).getD shellName).take 15)

/-- The state of a process, one line for each item. -/
def statusText (p : Process) : String :=
  let pid := Int.repr p.pid
  String.join
    (["Name:\t" ++ commandName p,
      "Umask:\t0" ++ String.ofList (Nat.toDigits 8 p.mask),
      "State:\tR (running)",
      "Tgid:\t" ++ pid,
      "Ngid:\t0",
      "Pid:\t" ++ pid,
      "PPid:\t" ++ Int.repr p.parent,
      "TracerPid:\t0",
      "Uid:\t1000\t1000\t1000\t1000",
      "Gid:\t1000\t1000\t1000\t1000",
      "Threads:\t1",
      "SigPnd:\t" ++ hexMask 0,
      "ShdPnd:\t" ++ hexMask 0,
      "SigBlk:\t" ++ hexMask (blockedMask p),
      "SigIgn:\t" ++ hexMask (ignoredMask p),
      "SigCgt:\t" ++ hexMask 0].map fun line => line ++ "\n")

/-- The state of a process in one line: its id, name, state, parent, group, session, and more. -/
def statText (p : Process) : String :=
  let numbers := [p.parent, p.group, p.session].map Int.repr
  " ".intercalate
    ([Int.repr p.pid, "(" ++ commandName p ++ ")", "R"] ++ numbers
      ++ ["0", "-1"] ++ List.replicate 44 "0") ++ "\n"

/-- What is told of a process. -/
def accountText (p : Process) : FileSystem.Account → Bytes
  | .status => utf8 (statusText p)
  | .stat => utf8 (statText p)
  | .name => utf8 (commandName p ++ "\n")

/-- What the files of a process's directory tell. -/
def accountNamed? (name : Bytes) : Option FileSystem.Account :=
  if name = utf8 "status" then some .status
  else if name = utf8 "stat" then some .stat
  else if name = utf8 "comm" then some .name
  else none

/-- The process that a part of a path means, for a process that uses it. -/
def processNamed? (m : Machine) (user : Process) (name : Bytes) : Option Process :=
  if name = utf8 "self" then some user
  else (digits? name).bind fun n => m.process? n

/-- The process of which a path under `/proc` tells, and what. -/
def account? (m : Machine) (user : Process) (path : Bytes) : Option (Int × FileSystem.Account) :=
  match FileSystem.isAbsolute path && !FileSystem.isSlashed path, FileSystem.parts path with
  | true, [top, who, what] =>
    if top ≠ utf8 "proc" then none
    else (m.processNamed? user who).bind fun p => (accountNamed? what).map fun item => (p.pid, item)
  | _, _ => none

/-- The descriptor of its own that a process means by a path. -/
def descriptorPath? (path : Bytes) : Option Nat :=
  match FileSystem.isAbsolute path, FileSystem.parts path with
  | true, [top, name] =>
    if top ≠ utf8 "dev" then none
    else if name = utf8 "stdin" then some 0
    else if name = utf8 "stdout" then some 1
    else if name = utf8 "stderr" then some 2
    else none
  | true, [top, folder, name] =>
    if top = utf8 "dev" ∧ folder = utf8 "fd" then digits? name else none
  | true, [top, who, folder, name] =>
    if top = utf8 "proc" ∧ who = utf8 "self" ∧ folder = utf8 "fd" then digits? name else none
  | _, _ => none

/-- Whether a path is that of the directory of a process's own descriptors. -/
def isDescriptorDirectory (path : Bytes) : Bool :=
  let ps := FileSystem.parts path
  FileSystem.isAbsolute path &&
    (ps == [utf8 "proc", utf8 "self", utf8 "fd"] || ps == [utf8 "dev", utf8 "fd"])

end JobShell.Machine
