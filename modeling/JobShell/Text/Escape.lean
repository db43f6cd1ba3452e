/-
**Escapes in texts.**

A backslash in a text begins an escape: a letter or a number after it stands for a byte.  What else
there is to escapes differs from place to place.

Main definitions:

* `JobShell.Escapes` — which escapes a text has;
* `JobShell.unescape` — replacing the escapes of a text;
* `JobShell.EscapeEnd` — why that ends before the text does.
-/

import JobShell.Number

set_option autoImplicit false

namespace JobShell

/-- Which escapes a text has besides those of single letters. -/
structure Escapes where
  /-- The digits of an octal number follow a zero that is none of them. -/
  zero : Bool := false
  /-- Octal numbers need no zero in front. -/
  bare : Bool := false
  /-- There are hexadecimal numbers. -/
  hex : Bool := false
  /-- Hexadecimal numbers must have digits, and there are numbers of characters. -/
  strict : Bool := false
  /-- A quotation mark can be escaped. -/
  quote : Bool := false
  /-- The text can be ended. -/
  cuts : Bool := false
  deriving DecidableEq, Repr, Inhabited

/-- Why the replacement of escapes ends before the text does. -/
inductive EscapeEnd where
  | cut
  | noDigits
  /-- A number that no character has, as it is written. -/
  | badCharacter (escape : Bytes)
  deriving DecidableEq, Repr, Inhabited

/-- The byte that a letter after a backslash stands for. -/
def escapeLetter? (c : UInt8) : Option UInt8 :=
  match Char.ofNat c.toNat with
  | 'a' => some 7
  | 'b' => some 8
  | 'e' => some 27
  | 'f' => some 12
  | 'n' => some 10
  | 'r' => some 13
  | 't' => some 9
  | 'v' => some 11
  | '\\' => some 92
  | _ => none

/-- A number in so many hexadecimal digits. -/
def hexDigits (capital : Bool) (length n : Nat) : Bytes :=
  let digits := String.ofList (Nat.toDigits 16 n)
  let digits := utf8 (if capital then digits.toUpper else digits)
  List.replicate (length - digits.length) 48 ++ digits

/-- What is written for the character of a number: itself if it is a byte of ASCII, else its escape. -/
def characterText (n : Nat) : Bytes :=
  if n < 128 then [UInt8.ofNat n]
  else if n < 65536 then utf8 "\\u" ++ hexDigits true 4 n
  else utf8 "\\U" ++ hexDigits true 8 n

/-- What the escape at the front of a text stands for, backslash left out, and how many bytes it has. -/
def readEscape (e : Escapes) (s : Bytes) : Except EscapeEnd (Bytes × Nat) :=
  match s with
  | [] => .ok ([92], 0)
  | c :: rest =>
    if c = 99 ∧ e.cuts then .error .cut
    else if c = 48 ∧ e.zero then
      let (value, used) := digitsInFront 8 octalDigit? 3 rest
      .ok ([UInt8.ofNat value], used + 1)
    else if e.bare ∧ isOctal c then
      let (value, used) := digitsInFront 8 octalDigit? 3 s
      .ok ([UInt8.ofNat value], used)
    else if c = 120 ∧ e.hex then
      let (value, used) := digitsInFront 16 hexDigit? 2 rest
      if 0 < used then .ok ([UInt8.ofNat value], used + 1)
      else if e.strict then .error .noDigits
      else .ok ([92, c], 1)
    else if e.strict ∧ (c = 117 ∨ c = 85) then
      let length := if c = 117 then 4 else 8
      let (value, used) := digitsInFront 16 hexDigit? length rest
      if used < length then .error .noDigits
      else if 0xd800 ≤ value ∧ value ≤ 0xdfff then
        .error (.badCharacter (92 :: c :: hexDigits false length value))
      else .ok (characterText value, length + 1)
    else
      match escapeLetter? c with
      | some byte => .ok ([byte], 1)
      | none => .ok (if c = 34 ∧ e.quote then [c] else [92, c], 1)

/-- Replaces the escapes of a text. -/
def unescape (e : Escapes) (s : Bytes) : Bytes × Option EscapeEnd :=
  match s with
  | [] => ([], none)
  | c :: rest =>
    if c = 92 then
      match readEscape e rest with
      | .error ending => ([], some ending)
      | .ok (bytes, used) =>
        let (out, ending) := unescape e (rest.drop used)
        (bytes ++ out, ending)
    else
      let (out, ending) := unescape e rest
      (c :: out, ending)
termination_by s.length
decreasing_by
  all_goals simp only [List.length_drop, List.length_cons]
  all_goals omega

end JobShell
