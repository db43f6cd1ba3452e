/-
**Numbers with a point.**

A number is read exactly, as a fraction; what a program keeps of it is the nearest number that has
so many binary digits.  It is written with so many decimal places, with an exponent, or in the
shorter of the two ways.  Rounding always goes to the nearest, and from the middle to the even
neighbour.

Main definitions:

* `JobShell.Decimal.Value` — numbers, and what else a calculation can give;
* `JobShell.Decimal.read` — the number at the front of a text;
* `JobShell.Decimal.Precision.keep` — what is kept of a number;
* `JobShell.Decimal.fixed`, `JobShell.Decimal.exponential`, `JobShell.Decimal.general`,
  `JobShell.Decimal.hexadecimal` — the ways to write a number.
-/

import JobShell.Number

set_option autoImplicit false

namespace JobShell.Decimal

/-- A number, or what else a calculation can give. -/
inductive Value where
  | finite (negative : Bool) (magnitude : Rat)
  | infinite (negative : Bool)
  | notNumber (negative : Bool)
  deriving DecidableEq, Repr, Inhabited

namespace Value

/-- Whether a number has a minus sign. -/
def isNegative : Value → Bool
  | finite negative _ | infinite negative | notNumber negative => negative

/-- The fraction that a number is. -/
def toRat : Value → Rat
  | finite true magnitude => -magnitude
  | finite false magnitude => magnitude
  | _ => 0

end Value

/-! ### Rounding -/

/-- The whole number nearest to a fraction. -/
def nearest (x : Rat) : Nat :=
  let below := x.floor.toNat
  let excess := x - below
  if excess < 1 / 2 then below
  else if 1 / 2 < excess then below + 1
  else if below % 2 = 0 then below else below + 1

/-- A power of a base with any exponent. -/
def power (base : Nat) (e : Int) : Rat :=
  if 0 ≤ e then (base.pow e.toNat : Rat) else 1 / (base.pow (-e).toNat : Rat)

/-- The greatest power of two that is not above a positive fraction, by its exponent. -/
def floorLog2 (x : Rat) : Int :=
  let e : Int := (x.num.natAbs.log2 : Int) - (x.den.log2 : Int)
  if x < power 2 e then e - 1 else e

/-- How many binary digits are kept of a number, and between which exponents. -/
structure Precision where
  digits : Nat
  least : Int
  most : Int
  /-- How many of the digits stand before the point of a hexadecimal number. -/
  leading : Nat
  deriving DecidableEq, Repr, Inhabited

/-- Numbers of 64 bits. -/
def Precision.double : Precision := { digits := 53, least := -1074, most := 1024, leading := 1 }

/-- Numbers of 80 bits. -/
def Precision.extended : Precision := { digits := 64, least := -16445, most := 16384, leading := 4 }

/-- What is kept of a number. -/
def Precision.keep (p : Precision) : Value → Value
  | .finite negative x =>
    if x = 0 then .finite negative 0
    else
      let unit := power 2 (max p.least (floorLog2 x + 1 - p.digits))
      let kept := (nearest (x / unit) : Rat) * unit
      if kept < power 2 p.most then .finite negative kept else .infinite negative
  | other => other

/-! ### Reading -/

/-- The digits of a base in front of a text: their value, how many there are, and the rest. -/
def digitsOf (base : Nat) (s : Bytes) : Nat × Nat × Bytes :=
  let digit (c : UInt8) : Option Nat := (hexDigit? c).filter (· < base)
  let (value, used) := digitsInFront base digit s.length s
  (value, used, s.drop used)

/-- The exponent in front of a text, after its letter. -/
def exponentOf? (letters : Bytes) (s : Bytes) : Option (Int × Bytes) :=
  match s with
  | c :: rest =>
    if letters.contains c then
      let (negative, rest) := match rest with
        | 45 :: rest => (true, rest)
        | 43 :: rest => (false, rest)
        | rest => (false, rest)
      let (value, used, rest) := digitsOf 10 rest
      if used = 0 then none else some (if negative then -(value : Int) else value, rest)
    else none
  | [] => none

/-- Greater exponents stand for numbers that no precision holds. -/
def exponentLimit : Int := 100000

/-- A number without its sign, in a base; the exponent counts powers of `scale`. -/
def unsigned? (base scale : Nat) (letters s : Bytes) : Option (Rat × Bytes) :=
  let (whole, n, s) := digitsOf base s
  let (value, places, s) := match s with
    | 46 :: rest =>
      let (part, places, rest) := digitsOf base rest
      if n + places = 0 then (whole, 0, s) else (whole * base.pow places + part, places, rest)
    | _ => (whole, 0, s)
  if n + places = 0 then none
  else
    let (e, s) := (exponentOf? letters s).getD (0, s)
    let e := max (-exponentLimit) (min exponentLimit e)
    some ((value : Rat) / (base.pow places : Rat) * (if value = 0 then 1 else power scale e), s)

/-- Whether a text begins with a word, in letters of either case. -/
def beginsWith (word : String) (s : Bytes) : Bool :=
  (s.take word.length).map (fun c => if 65 ≤ c ∧ c ≤ 90 then c + 32 else c) = utf8 word

/-- The number at the front of a text, blanks before it left out, and the rest; without a number,
zero and the whole text. -/
def read (text : Bytes) : Value × Bytes :=
  let s := text.dropWhile fun c => c = 32 || (9 ≤ c && c ≤ 13)
  let (negative, s) := match s with
    | 45 :: s => (true, s)
    | 43 :: s => (false, s)
    | s => (false, s)
  if beginsWith "infinity" s then (.infinite negative, s.drop 8)
  else if beginsWith "inf" s then (.infinite negative, s.drop 3)
  else if beginsWith "nan" s then (.notNumber negative, s.drop 3)
  else
    let hexadecimal := if beginsWith "0x" s then unsigned? 16 2 (utf8 "pP") (s.drop 2) else none
    match hexadecimal, unsigned? 10 10 (utf8 "eE") s with
    | some (x, rest), _ | none, some (x, rest) => (.finite negative x, rest)
    | none, none => (.finite false 0, text)

/-! ### Writing -/

/-- The digits of a number, with zeros in front up to a length. -/
def padded (length n : Nat) : Bytes :=
  let digits := Bytes.ofNat n
  List.replicate (length - digits.length) 48 ++ digits

/-- Digits with a point before the last so many. -/
def pointed (places : Nat) (always : Bool) (digits : Bytes) : Bytes :=
  let whole := digits.take (digits.length - places)
  if places = 0 ∧ always = false then whole else whole ++ 46 :: digits.drop whole.length

/-- A number with so many places. -/
def fixed (places : Nat) (always : Bool) (x : Rat) : Bytes :=
  pointed places always (padded (places + 1) (nearest (x * power 10 places)))

/-- The exponent of the first decimal digit of a positive fraction. -/
def exponent10 (x : Rat) : Int :=
  let guess := floorLog2 x * 30103 / 100000
  let candidates := [guess + 2, guess + 1, guess, guess - 1, guess - 2]
  (candidates.find? fun e => power 10 e ≤ x).getD guess

/-- The first digits of a number, one more than there are places, and its exponent. -/
def leadingDigits (places : Nat) (x : Rat) : Nat × Int :=
  if x = 0 then (0, 0)
  else
    let e := exponent10 x
    let digits := nearest (x * power 10 (places - e))
    if digits < Nat.pow 10 (places + 1) then (digits, e) else (digits / 10, e + 1)

/-- An exponent with its sign and two digits at least. -/
def exponentText (letter : UInt8) (e : Int) : Bytes :=
  letter :: (if e < 0 then 45 else 43) :: padded 2 e.natAbs

/-- A number with an exponent and so many places. -/
def exponential (places : Nat) (always : Bool) (letter : UInt8) (x : Rat) : Bytes :=
  let (digits, e) := leadingDigits places x
  pointed places always (padded (places + 1) digits) ++ exponentText letter e

/-- Digits with a point, without the zeros at their end. -/
def dropZeros (s : Bytes) : Bytes :=
  if s.contains 46 then
    let kept := (s.reverse.dropWhile (· = 48)).reverse
    if kept.getLast? = some 46 then kept.dropLast else kept
  else s

/-- A number with so many digits: with an exponent if that is too small or too great for the
digits.  Zeros at the end are left out unless the point is always written. -/
def general (digits : Nat) (always : Bool) (letter : UInt8) (x : Rat) : Bytes :=
  let digits := max 1 digits
  let (kept, e) := leadingDigits (digits - 1) x
  let trim (s : Bytes) : Bytes := if always then s else dropZeros s
  if e < -4 ∨ (digits : Int) ≤ e then
    trim (pointed (digits - 1) always (padded digits kept)) ++ exponentText letter e
  else trim (fixed (digits - 1 - e).toNat always x)

/-- A number in hexadecimal digits, with a power of two. -/
def hexadecimal (p : Precision) (places : Option Nat) (always capital : Bool) (x : Rat) : Bytes :=
  let e : Int := if x = 0 then 0 else floorLog2 x + 1 - p.leading
  let all := (p.digits - p.leading + 3) / 4
  let count := places.getD all
  let scaled := nearest (x / power 2 e * power 16 count)
  let digits := (Nat.toDigits 16 scaled).map fun c => c.toUInt8
  let digits := List.replicate (count + 1 - digits.length) 48 ++ digits
  let text := pointed count always digits
  let text := if places.isSome then text else dropZeros text
  let e := if x = 0 then 0 else e
  let text := utf8 "0x" ++ text ++ 112 :: (if e < 0 then 45 else 43) :: Bytes.ofNat e.natAbs
  if capital then text.map fun c => if 97 ≤ c ∧ c ≤ 122 then c - 32 else c else text

end JobShell.Decimal
