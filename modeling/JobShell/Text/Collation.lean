/-
**Ways to compare texts.**

Texts are compared byte by byte, or by what they say: a number, a size with a unit, a month, or a
version of something.  Each way gives an order in which different texts can be equal.

Main definitions:

* `JobShell.Collation.bytes` — byte by byte;
* `JobShell.Collation.numbers`, `JobShell.Collation.values`, `JobShell.Collation.sizes`,
  `JobShell.Collation.months` — by what texts begin with;
* `JobShell.Collation.versions` — numbers inside names by their values.
-/

import JobShell.Text.Decimal

set_option autoImplicit false

namespace JobShell.Collation

/-- Compares texts byte by byte. -/
def bytes (a b : Bytes) : Ordering :=
  if a = b then .eq else if Bytes.le a b then .lt else .gt

/-- Whether a byte is a blank. -/
def isBlank (c : UInt8) : Bool := c = 32 || c = 9

/-- Whether a byte is a digit. -/
def isDigit (c : UInt8) : Bool := 48 ≤ c && c ≤ 57

/-- Whether a byte is a letter. -/
def isLetter (c : UInt8) : Bool := (65 ≤ c && c ≤ 90) || (97 ≤ c && c ≤ 122)

/-- A lower-case letter for an upper-case one. -/
def lower (c : UInt8) : UInt8 := if 65 ≤ c ∧ c ≤ 90 then c + 32 else c

/-- An upper-case letter for a lower-case one. -/
def upper (c : UInt8) : UInt8 := if 97 ≤ c ∧ c ≤ 122 then c - 32 else c

/-! ### Numbers -/

/-- A number at the start of a text: its sign, its digits, how many of them follow the point, and the
rest. -/
structure Leading where
  negative : Bool
  digits : Nat
  places : Nat
  rest : Bytes

/-- The number at the start of a text. -/
def leading (text : Bytes) : Leading :=
  let text := text.dropWhile isBlank
  let (negative, text) := match text with
    | 45 :: rest => (true, rest)
    | _ => (false, text)
  let whole := text.takeWhile isDigit
  let rest := text.drop whole.length
  let (fraction, rest) := match rest with
    | 46 :: more =>
      let fraction := more.takeWhile isDigit
      (fraction, more.drop fraction.length)
    | _ => ([], rest)
  { negative := negative
    digits := (digitsFrom 0 (whole ++ fraction)).getD 0
    places := fraction.length
    rest := rest }

/-- The number when all numbers have so many places. -/
def Leading.scaled (l : Leading) (places : Nat) : Int :=
  let n : Int := l.digits * Nat.pow 10 (places - l.places)
  if l.negative then -n else n

/-- Compares texts by the numbers at their starts. -/
def numbers (a b : Bytes) : Ordering :=
  let a := leading a
  let b := leading b
  let places := max a.places b.places
  Ord.compare (a.scaled places) (b.scaled places)

/-- The rank of the unit of a size; below zero for a negative size. -/
def unitRank (l : Leading) : Int :=
  let rank := match l.rest with
    | [] => 0
    | c :: _ =>
      (((utf8 "KkMGTPEZYRQ").zip [1, 1, 2, 3, 4, 5, 6, 7, 8, 9, 10]).lookup c).getD 0
  if l.digits = 0 then 0 else if l.negative then -rank else rank

/-- Compares texts by the sizes at their starts: by their units first. -/
def sizes (a b : Bytes) : Ordering :=
  (Ord.compare (unitRank (leading a)) (unitRank (leading b))).then (numbers a b)

/-- The place of a value: what is no number comes first, then what no calculation gives. -/
def valueRank (text : Bytes) : Nat × Decimal.Value :=
  let (value, rest) := Decimal.read text
  let value := Decimal.Precision.extended.keep value
  if rest.length = text.length then (0, value)
  else match value with
    | .notNumber _ => (1, value)
    | .infinite true => (2, value)
    | .finite _ _ => (3, value)
    | .infinite false => (4, value)

/-- Compares texts by the values at their starts. -/
def values (a b : Bytes) : Ordering :=
  let (m, x) := valueRank a
  let (n, y) := valueRank b
  (Ord.compare m n).then
    (if m = 3 then (if x.toRat < y.toRat then .lt else if y.toRat < x.toRat then .gt else .eq)
      else .eq)

/-- The number of the month at the start of a text, or zero. -/
def month (text : Bytes) : Nat :=
  let name := ((text.dropWhile isBlank).take 3).map upper
  let names := ["JAN", "FEB", "MAR", "APR", "MAY", "JUN", "JUL", "AUG", "SEP", "OCT", "NOV", "DEC"]
  ((names.findIdx? fun n => utf8 n = name).map (· + 1)).getD 0

/-- Compares texts by the months at their starts. -/
def months (a b : Bytes) : Ordering := Ord.compare (month a) (month b)

/-! ### Versions -/

/-- The rank of a byte that is no digit, or of the end of a text.  A tilde comes before everything,
and letters come before the rest. -/
def versionRank : Bytes → Int
  | [] => -1
  | c :: _ =>
    if isDigit c then 0
    else if isLetter c then c.toNat
    else if c = 126 then -2
    else c.toNat + 256

/-- Compares two texts, numbers in them by their values.  The number bounds the steps. -/
def versionsFor : Nat → Bytes → Bytes → Ordering
  | 0, _, _ => .eq
  | _, [], [] => .eq
  | n + 1, a, b =>
    let wordy (s : Bytes) : Bool := s.head?.any fun c => !isDigit c
    if wordy a ∨ wordy b then
      (Ord.compare (versionRank a) (versionRank b)).then (versionsFor n (a.drop 1) (b.drop 1))
    else
      let number (s : Bytes) : Bytes := s.takeWhile isDigit
      let value (s : Bytes) : Nat := (digitsFrom 0 (number s)).getD 0
      (Ord.compare (value a) (value b)).then
        (versionsFor n (a.drop (number a).length) (b.drop (number b).length))

/-- How many bytes at the end of a name, in reverse, are a part that begins with a dot and a letter;
zero if there is no such part. -/
def partLength (reversed : Bytes) : Nat :=
  let isInner (c : UInt8) : Bool := isLetter c || isDigit c || c = 126
  let inner := reversed.takeWhile isInner
  match inner.getLast?, reversed[inner.length]? with
  | some first, some 46 => if isDigit first then 0 else inner.length + 1
  | _, _ => 0

/-- The length of what comes before the endings of a name, given in reverse.  The first byte belongs
to no ending.  The number bounds the steps. -/
def stemLength : Nat → Bytes → Nat
  | 0, reversed => reversed.length
  | n + 1, reversed =>
    let k := partLength reversed
    if k = 0 ∨ reversed.length ≤ k then reversed.length
    else stemLength n (reversed.drop k)

/-- The rank of a name by the dots that it begins with. -/
def dotRank (name : Bytes) : Nat :=
  if name = [] then 0
  else if name = [46] then 1
  else if name = [46, 46] then 2
  else if name.head? = some 46 then 3
  else 4

/-- Compares names of versions, at first without their endings. -/
def versions (a b : Bytes) : Ordering :=
  let stem (s : Bytes) : Bytes := s.take (stemLength s.length s.reverse)
  let order := Ord.compare (dotRank a) (dotRank b)
  if dotRank a < 3 ∨ dotRank b < 3 then order
  else
    let steps := a.length + b.length + 1
    (order.then (versionsFor steps (stem a) (stem b))).then (versionsFor steps a b)

end JobShell.Collation
