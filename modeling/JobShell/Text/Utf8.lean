/-
**Reading bytes as UTF-8.**

A byte string is read one character at a time.  Where the bytes do not form a character, the
longest beginning of one, or else a single byte, is one *fault*, and reading goes on after it.
Two readings are built on that: the strict one fails at a fault, and the forgiving one puts the
replacement character `U+FFFD` in its place.

Main definitions:

* `JobShell.Utf8.followers` — which bytes may follow a leading byte;
* `JobShell.Utf8.scan` — the characters and faults of a byte string;
* `JobShell.Utf8.decode?`, `JobShell.Utf8.decodeLossy` — the two readings.
-/

import JobShell.Bytes

set_option autoImplicit false

namespace JobShell.Utf8

/-- A character of which some bytes have been read: the value so far, and for each byte still to
come the least and the greatest value it may have. -/
structure Partial where
  value : Nat
  owed : List (UInt8 × UInt8)

/-- What may follow a leading byte: `none` for a byte that leads no character. -/
def followers (lead : UInt8) : Option (List (UInt8 × UInt8)) :=
  let any : UInt8 × UInt8 := (0x80, 0xBF)
  if lead < 0x80 then some []
  else if lead < 0xC2 then none
  else if lead < 0xE0 then some [any]
  else if lead = 0xE0 then some [(0xA0, 0xBF), any]
  else if lead = 0xED then some [(0x80, 0x9F), any]
  else if lead < 0xF0 then some [any, any]
  else if lead = 0xF0 then some [(0x90, 0xBF), any, any]
  else if lead < 0xF4 then some [any, any, any]
  else if lead = 0xF4 then some [(0x80, 0x8F), any, any]
  else none

/-- The bits of its character that a leading byte carries, by the number of bytes that follow. -/
def leadBits (lead : UInt8) : Nat → Nat
  | 0 => lead.toNat
  | 1 => lead.toNat - 0xC0
  | 2 => lead.toNat - 0xE0
  | _ => lead.toNat - 0xF0

/-- Starts a character at `lead`: what is complete at once (`none` for a fault), and what is not. -/
def lead (b : UInt8) : List (Option Char) × Option Partial :=
  match followers b with
  | none => ([none], none)
  | some [] => ([some (Char.ofNat b.toNat)], none)
  | some owed => ([], some ⟨leadBits b owed.length, owed⟩)

/-- Takes one more byte: the characters and faults it completes, and the character it leaves
open.  A byte that does not continue an open character ends it as a fault and starts anew. -/
def feed : Option Partial → UInt8 → List (Option Char) × Option Partial
  | none, b => lead b
  | some ⟨_, []⟩, b => lead b
  | some ⟨value, (lo, hi) :: owed⟩, b =>
    if lo ≤ b ∧ b ≤ hi then
      let value := value * 64 + (b.toNat - 0x80)
      match owed with
      | [] => ([some (Char.ofNat value)], none)
      | _ :: _ => ([], some ⟨value, owed⟩)
    else
      let (done, rest) := lead b
      (none :: done, rest)

/-- The characters (`some`) and faults (`none`) of a byte string, after what is open already. -/
def scanFrom : Option Partial → Bytes → List (Option Char)
  | none, [] => []
  | some _, [] => [none]
  | state, b :: s =>
    let (done, state) := feed state b
    done ++ scanFrom state s

/-- The characters (`some`) and faults (`none`) of a byte string, in order. -/
def scan (s : Bytes) : List (Option Char) := scanFrom none s

/-- The text that a byte string is, if it has no fault. -/
def decode? (s : Bytes) : Option String :=
  ((scan s).mapM id).map String.ofList

/-- The text of a byte string, with the replacement character for each fault. -/
def decodeLossy (s : Bytes) : String :=
  String.ofList ((scan s).map fun c => c.getD '\uFFFD')

end JobShell.Utf8
