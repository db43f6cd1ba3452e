/-
**Patterns of file names.**

A pattern is a row of parts; each part stands for one byte of a set, or for any number of bytes.

Main definitions:

* `JobShell.Glob` — patterns;
* `JobShell.Glob.ofMarked` — the pattern that bytes write, of which some are quoted;
* `JobShell.Glob.accepts` — whether a text fits a pattern.
-/

import JobShell.Text.ByteClass

set_option autoImplicit false

namespace JobShell

/-- A part of a pattern. -/
inductive Glob.Part where
  | byte (c : UInt8)
  | any
  | oneOf (members : Bytes)
  | noneOf (members : Bytes)
  /-- Any number of bytes. -/
  | many
  deriving DecidableEq, Repr, Inhabited

/-- A pattern. -/
abbrev Glob := List Glob.Part

namespace Glob

/-- Whether a part stands for a byte. -/
def Part.accepts (p : Part) (c : UInt8) : Bool :=
  match p with
  | .byte d => c = d
  | .any | .many => true
  | .oneOf members => members.contains c
  | .noneOf members => !members.contains c

/-- Whether a text fits a pattern. -/
def accepts : Glob → Bytes → Bool
  | [], s => s = []
  | .many :: rest, [] => accepts rest []
  | .many :: rest, c :: s => accepts rest (c :: s) || accepts (.many :: rest) s
  | _ :: _, [] => false
  | p :: rest, c :: s => p.accepts c && accepts rest s
termination_by g s => (g.length, s.length)

/-- Reads a bracket after its opening; quoted bytes stand for themselves. -/
def bracket? (s : List (UInt8 × Bool)) : Option (Part × List (UInt8 × Bool)) :=
  let bytes := s.map (·.1)
  let (negated, body) := match bytes with
    | 33 :: rest => (true, rest)
    | 94 :: rest => (true, rest)
    | rest => (false, rest)
  (ByteClass.members? body).map fun (members, rest) =>
    (if negated then .noneOf members else .oneOf members, s.drop (s.length - rest.length))

/-- The pattern that bytes write.  A byte that is marked stands for itself. -/
def ofMarkedFor : Nat → List (UInt8 × Bool) → Glob
  | 0, _ => []
  | _, [] => []
  | n + 1, (c, true) :: s => .byte c :: ofMarkedFor n s
  | n + 1, (c, false) :: s =>
    if c = 42 then .many :: ofMarkedFor n s
    else if c = 63 then .any :: ofMarkedFor n s
    else if c = 91 then
      match bracket? s with
      | some (part, s) => part :: ofMarkedFor n s
      | none => .byte c :: ofMarkedFor n s
    else .byte c :: ofMarkedFor n s

/-- The pattern that bytes write.  A byte that is marked stands for itself. -/
def ofMarked (s : List (UInt8 × Bool)) : Glob := ofMarkedFor s.length s

/-- Whether a pattern stands for more than one text. -/
def isProper (g : Glob) : Bool :=
  g.any fun
    | .byte _ => false
    | _ => true

end Glob

end JobShell
