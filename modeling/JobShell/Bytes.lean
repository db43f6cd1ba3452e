/-
**Byte strings.**

Lines, words, paths and what programs write are strings of bytes: no encoding is promised for any
of them.  This module fixes the type and the few ways in which the rest of the library makes byte
strings out of texts and numbers.

Main definitions:

* `JobShell.Bytes` — a string of bytes;
* `JobShell.utf8` — the bytes of a text;
* `JobShell.Bytes.cutAfter`, `JobShell.Bytes.lines` — cutting a string after bytes of a kind, or
  after each newline.
-/

set_option autoImplicit false

namespace JobShell

/-- A string of bytes. -/
abbrev Bytes := List UInt8

/-- The bytes of a text in UTF-8. -/
def utf8 (text : String) : Bytes := text.toUTF8.data.toList

/-- The byte that ends a line. -/
def newline : UInt8 := 10

/-- The byte that no path and no argument of a program may hold. -/
def nul : UInt8 := 0

/-- The byte between the parts of a path. -/
def slash : UInt8 := 47

namespace Bytes

/-- A natural number in decimal digits. -/
def ofNat (n : Nat) : Bytes := utf8 (Nat.repr n)

/-- Cuts a string at a byte, leaving the byte out: `n` cuts give `n + 1` parts. -/
def splitAt (mark : UInt8) : Bytes → List Bytes
  | [] => [[]]
  | c :: s =>
    match splitAt mark s with
    | [] => [[c]]
    | part :: parts => if c = mark then [] :: part :: parts else (c :: part) :: parts

/-- Cuts a string after each byte of a kind.  The pieces are never empty, and only the last one may
lack that byte. -/
def cutAfter (mark : UInt8) : Bytes → List Bytes
  | [] => []
  | c :: s =>
    if c = mark then [c] :: cutAfter mark s
    else
      match cutAfter mark s with
      | [] => [[c]]
      | piece :: pieces => (c :: piece) :: pieces

/-- Cuts a string after each newline. -/
def lines (s : Bytes) : List Bytes := cutAfter newline s

/-- Joins strings with a byte between each two. -/
def join (mark : UInt8) (parts : List Bytes) : Bytes :=
  List.intercalate [mark] parts

/-- Whether a string begins with another. -/
def startsWith (s start : Bytes) : Bool := start.isPrefixOf s

/-- The order of byte strings: by their first different byte, a beginning before the whole. -/
def le : Bytes → Bytes → Bool
  | [], _ => true
  | _ :: _, [] => false
  | a :: s, b :: t => if a = b then le s t else a ≤ b

end Bytes

end JobShell
