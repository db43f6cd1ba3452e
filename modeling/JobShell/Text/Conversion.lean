/-
**Texts and numbers in fields.**

A conversion says how a text, a whole number or a number with a point is laid out: in a field of a
width, with a sign, with zeros in front, and with so many digits.

Main definitions:

* `JobShell.Conversion` — how something is laid out;
* `JobShell.Conversion.text`, `JobShell.Conversion.whole`, `JobShell.Conversion.real` — laying it out;
* `JobShell.wholeInFront` — the whole number at the front of a text, in any base that it shows.
-/

import JobShell.Text.Decimal

set_option autoImplicit false

namespace JobShell

/-- How something is laid out. -/
structure Conversion where
  left : Bool := false
  zeros : Bool := false
  plus : Bool := false
  space : Bool := false
  alternative : Bool := false
  width : Nat := 0
  precision : Option Nat := none
  deriving DecidableEq, Repr, Inhabited

namespace Conversion

/-- Fills a field; zeros stand between the sign and the digits. -/
def fill (c : Conversion) (zeros : Bool) (sign digits : Bytes) : Bytes :=
  let room := c.width - (sign.length + digits.length)
  if c.left then sign ++ digits ++ List.replicate room 32
  else if zeros then sign ++ List.replicate room 48 ++ digits
  else List.replicate room 32 ++ sign ++ digits

/-- Lays out a text, of which the precision is the greatest length. -/
def text (c : Conversion) (s : Bytes) : Bytes :=
  c.fill false [] (match c.precision with
    | some n => s.take n
    | none => s)

/-- The sign of a number. -/
def sign (c : Conversion) (negative : Bool) : Bytes :=
  if negative then [45] else if c.plus then [43] else if c.space then [32] else []

/-- A number in digits of a base. -/
def inBase (base n : Nat) (capital : Bool) : Bytes :=
  let digits := String.ofList (Nat.toDigits base n)
  utf8 (if capital then digits.toUpper else digits)

/-- Lays out a whole number; its letter says in which digits.  A negative number stands for one of 64
bits if the letter knows no sign. -/
def whole (c : Conversion) (letter : UInt8) (n : Int) : Bytes :=
  let signed := letter = 100 || letter = 105
  let magnitude := if signed then n.natAbs else (n % twoTo 64).toNat
  let base := if letter = 111 then 8 else if letter = 120 ∨ letter = 88 then 16 else 10
  let digits := if c.precision = some 0 ∧ magnitude = 0 then []
    else inBase base magnitude (letter = 88)
  let digits := List.replicate (c.precision.getD 1 - digits.length) 48 ++ digits
  let digits :=
    if c.alternative ∧ base = 8 ∧ digits.head? ≠ some 48 then 48 :: digits else digits
  let sign :=
    if signed then c.sign (decide (n < 0))
    else if c.alternative ∧ base = 16 ∧ magnitude ≠ 0 then [48, letter]
    else []
  c.fill (c.zeros && c.precision.isNone) sign digits

/-- Lays out a number with a point, of which so much is kept; its letter says in which way. -/
def real (c : Conversion) (kept : Decimal.Precision) (letter : UInt8) (v : Decimal.Value) : Bytes :=
  let capital := 65 ≤ letter && letter ≤ 90
  let small := if capital then letter + 32 else letter
  let sign := c.sign v.isNegative
  let word (name : String) : Bytes :=
    c.fill false sign (utf8 (if capital then name.toUpper else name))
  match v with
  | .infinite _ => word "inf"
  | .notNumber _ => word "nan"
  | .finite _ x =>
    let places := c.precision.getD 6
    let exponent : UInt8 := if capital then 69 else 101
    if small = 97 then
      let digits := Decimal.hexadecimal kept c.precision c.alternative capital x
      c.fill c.zeros (sign ++ digits.take 2) (digits.drop 2)
    else
      c.fill c.zeros sign
        (if small = 102 then Decimal.fixed places c.alternative x
        else if small = 101 then Decimal.exponential places c.alternative exponent x
        else Decimal.general places c.alternative exponent x)

end Conversion

/-! ### Reading whole numbers -/

/-- The whole number at the front of a text, blanks before it left out, and the rest; without a number,
zero and the whole text.  Its base is told by what it begins with. -/
def wholeInFront (text : Bytes) : Int × Bytes :=
  let s := text.dropWhile fun c => c = 32 || (9 ≤ c && c ≤ 13)
  let (negative, s) := match s with
    | 45 :: s => (true, s)
    | 43 :: s => (false, s)
    | s => (false, s)
  let prefixed (base : Nat) (rest : Bytes) : Option (Nat × Bytes) :=
    let (value, used, rest) := Decimal.digitsOf base rest
    if used = 0 then none else some (value, rest)
  let found := match s with
    | 48 :: c :: rest =>
      let marked :=
        if c = 120 ∨ c = 88 then prefixed 16 rest
        else if c = 98 ∨ c = 66 then prefixed 2 rest
        else none
      marked.or (prefixed 8 s)
    | s => prefixed 10 s
  match found with
  | some (value, rest) => (if negative then -(value : Int) else value, rest)
  | none => (0, text)

end JobShell
