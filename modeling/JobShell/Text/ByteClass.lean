/-
**Sets of bytes.**

A set is written as bytes, ranges of bytes, and classes with a name.

Main definitions:

* `JobShell.ByteClass.range` — the bytes from one to another;
* `JobShell.ByteClass.named?` — the bytes of a class;
* `JobShell.ByteClass.members?` — the bytes of a set that is written between square brackets.
-/

import JobShell.Number

set_option autoImplicit false

namespace JobShell.ByteClass

/-- The bytes from one to another. -/
def range (lo hi : UInt8) : Bytes :=
  (List.range (hi.toNat + 1 - lo.toNat)).map fun i => UInt8.ofNat (lo.toNat + i)

/-- The bytes of a class. -/
def named? (name : Bytes) : Option Bytes :=
  let lower := range 97 122
  let upper := range 65 90
  let digit := range 48 57
  match Utf8.decodeLossy name with
  | "lower" => some lower
  | "upper" => some upper
  | "digit" => some digit
  | "alpha" => some (upper ++ lower)
  | "alnum" => some (digit ++ upper ++ lower)
  | "space" => some (range 9 13 ++ [32])
  | "blank" => some [9, 32]
  | "punct" => some (range 33 47 ++ range 58 64 ++ range 91 96 ++ range 123 126)
  | "graph" => some (range 33 126)
  | "print" => some (range 32 126)
  | "cntrl" => some (range 0 31 ++ [127])
  | "xdigit" => some (digit ++ range 65 70 ++ range 97 102)
  | _ => none

/-- Reads members up to a closing bracket, which is a member if it is the first one; nothing if
there is none.  The number bounds the steps. -/
def membersFor : Nat → Bool → Bytes → Option (Bytes × Bytes)
  | 0, _, _ => none
  | _, _, [] => none
  | n + 1, isFirst, c :: s =>
    if c = 93 ∧ isFirst = false then some ([], s)
    else
      match c, s with
      | 91, 58 :: s =>
        let name := s.takeWhile (· ≠ 58)
        (membersFor n false (s.drop (name.length + 2))).map fun (ms, rest) =>
          ((named? name).getD [] ++ ms, rest)
      | lo, 45 :: hi :: s =>
        if hi = 93 then
          (membersFor n false (45 :: hi :: s)).map fun (ms, rest) => (lo :: ms, rest)
        else (membersFor n false s).map fun (ms, rest) => (range lo hi ++ ms, rest)
      | c, s => (membersFor n false s).map fun (ms, rest) => (c :: ms, rest)

/-- Reads members up to a closing bracket, and gives what follows it. -/
def members? (s : Bytes) : Option (Bytes × Bytes) := membersFor (s.length + 1) true s

end JobShell.ByteClass
