/-
**Counting and repeating.**

Main definitions:

* `JobShell.Programs.Term` — a number as it is given, and how it would be written;
* `JobShell.Programs.NumberFormat` — how numbers are written;
* `JobShell.Programs.seq` — writing the numbers from one to another in steps;
* `JobShell.Programs.yes` — writing a line again and again.
-/

import JobShell.Programs.Request
import JobShell.Text.Conversion

set_option autoImplicit false

namespace JobShell.Programs

/-! ### Numbers as they are given -/

/-- A number as it is given. -/
structure Term where
  value : Decimal.Value
  /-- How many columns it takes when it is written with its places. -/
  width : Int := 0
  /-- How many places it is given with, if that can be told. -/
  places : Option Nat := none
  deriving Inhabited

namespace Term

/-- The number one. -/
def one : Term := { value := .finite false 1, width := 1, places := some 0 }

/-- The whole number after the letter of an exponent. -/
def exponentAfter (s : Bytes) : Int :=
  let (negative, digits) := match s with
    | 45 :: rest => (true, rest)
    | 43 :: rest => (false, rest)
    | rest => (false, rest)
  let (n, _) := digitsInFront 10 digit? digits.length digits
  if negative then -(n : Int) else n

/-- The width and the places of a number that is written in decimal digits. -/
def measure (text : Bytes) : Int × Option Nat :=
  let isExponent (c : UInt8) : Bool := c = 101 || c = 69
  let front := text.takeWhile (· ≠ 46)
  let after := (text.drop front.length).drop 1
  let hasPoint := front.length < text.length
  let fraction := (after.takeWhile fun c => !isExponent c).length
  let places : Nat := if hasPoint then fraction else 0
  let width : Int := text.length + if hasPoint = false then 0
    else if fraction = 0 then -1
    else if (front.getLast?.bind digit?).isNone then 1 else 0
  let mantissa := text.takeWhile fun c => !isExponent c
  if mantissa.length = text.length then (width, some places)
  else
    let exponent := exponentAfter (text.drop (mantissa.length + 1))
    let width := width - (text.length - mantissa.length : Int)
    if exponent < 0 then
      let width := if hasPoint then (if fraction = 0 then width + 1 else width) else width + 1
      (width - exponent, some (places + exponent.natAbs))
    else
      let left := places - exponent.toNat
      let width := if hasPoint ∧ left = 0 ∧ 0 < fraction then width - 1 else width
      (width + (exponent.toNat - fraction : Nat), some left)

/-- Reads a number. -/
def read (text : Bytes) : Except Objection Term := do
  let (value, rest) := Decimal.read text
  if text = [] ∨ rest ≠ [] then
    throw (.misuse (utf8 "invalid floating point argument: " ++ Quoted.escaped text))
  let value := Decimal.Precision.extended.keep value
  match value with
  | .notNumber _ =>
    throw (.misuse (utf8 "invalid 'not-a-number' argument: " ++ Quoted.escaped text))
  | .infinite _ => return { value := value, places := some 0 }
  | .finite _ _ =>
    let shown := text.dropWhile fun c => c = 32 || (9 ≤ c && c ≤ 13) || c = 43
    if shown.any fun c => c = 120 || c = 88 then
      let isWhole := !(shown.contains 46 || shown.contains 112)
      return { value := value, places := if isWhole then some 0 else none }
    else
      let (width, places) := measure shown
      return { value := value, width := width, places := places }

end Term

/-! ### How numbers are written -/

/-- How numbers are written. -/
structure NumberFormat where
  before : Bytes := []
  conversion : Conversion
  letter : UInt8
  after : Bytes := []
  deriving Inhabited

namespace NumberFormat

/-- What a number is written as, without what comes before and after it. -/
def core (f : NumberFormat) (v : Decimal.Value) : Bytes := f.conversion.real .extended f.letter v

/-- What is written for a number. -/
def apply (f : NumberFormat) (v : Decimal.Value) : Bytes := f.before ++ f.core v ++ f.after

/-- A text in which a percent sign is written twice, up to a single one: the text, and what follows
it if there is a single one. -/
def literal : Bytes → Bytes × Option Bytes
  | [] => ([], none)
  | 37 :: 37 :: s =>
    let (text, rest) := literal s
    (37 :: text, rest)
  | 37 :: s => ([], some s)
  | c :: s =>
    let (text, rest) := literal s
    (c :: text, rest)

/-- A conversion with a flag. -/
def addFlag (c : Conversion) (flag : UInt8) : Conversion :=
  match Char.ofNat flag.toNat with
  | '-' => { c with left := true }
  | '0' => { c with zeros := true }
  | '+' => { c with plus := true }
  | ' ' => { c with space := true }
  | '#' => { c with alternative := true }
  | _ => c

/-- Reads a format. -/
def read (text : Bytes) : Except Objection NumberFormat := do
  let fail {α : Type} (what : String) (more : Bytes) : Except Objection α :=
    .error (.plain (utf8 "format " ++ Quoted.escaped text ++ utf8 what ++ more))
  let (before, rest) := literal text
  match rest with
  | none => fail " has no % directive" []
  | some s =>
    let flags := s.takeWhile fun c => (utf8 "-+#0 '").contains c
    let s := s.drop flags.length
    let (width, used) := digitsInFront 10 digit? s.length s
    let c : Conversion := { flags.foldl addFlag {} with width := width }
    let (c, s) := match s.drop used with
      | 46 :: s =>
        let (precision, used) := digitsInFront 10 digit? s.length s
        ({ c with precision := some precision }, s.drop used)
      | s => (c, s)
    match (if s.head? = some 76 then s.drop 1 else s) with
    | [] => fail " ends in %" []
    | letter :: s =>
      if (utf8 "efgaEFGA").contains letter = false then
        fail " has unknown %" ([letter] ++ utf8 " directive")
      else
        match literal s with
        | (_, some _) => fail " has too many % directives" []
        | (after, none) => return { before := before, conversion := c, letter := letter, after := after }

/-- The format for numbers that are given in some way; `wide` says that all take the same width. -/
def standard (wide : Bool) (first step last : Term) : NumberFormat :=
  match first.places, step.places, last.places with
  | some p, some q, some s =>
    let places := max p q
    let firstWidth := first.width + (places - p : Int) + if p = 0 ∧ 0 < places then 1 else 0
    let lastWidth := last.width + (places - s : Int)
      + (if 0 < s ∧ places = 0 then -1 else 0) + (if s = 0 ∧ 0 < places then 1 else 0)
    { conversion :=
        { precision := some places
          zeros := wide
          width := if wide then (max firstWidth lastWidth).toNat else 0 }
      letter := 102 }
  | _, _, _ => { conversion := {}, letter := 103 }

end NumberFormat

/-! ### Numbers in steps -/

/-- What is kept of a fraction. -/
def keepFraction (x : Rat) : Rat :=
  (Decimal.Precision.extended.keep (.finite (decide (x < 0)) x.abs)).toRat

/-- A fraction as a value. -/
def valueOf (x : Rat) : Decimal.Value := .finite (decide (x < 0)) x.abs

/-- Whether a number is past the last one. -/
def isPast (step : Rat) (last : Decimal.Value) (x : Rat) : Bool :=
  match last with
  | .finite _ _ => if step < 0 then x < last.toRat else last.toRat < x
  | .infinite negative => negative != decide (step < 0)
  | .notNumber _ => true

/-- Whether a number past the last one is written after all: it looks like the last one, and not like
the one before it. -/
def looksLast (f : NumberFormat) (last : Decimal.Value) (before x : Rat) : Bool :=
  let text := f.core (valueOf x)
  let (value, rest) := Decimal.read text
  rest = [] && decide (keepFraction value.toRat = last.toRat) && f.core (valueOf before) ≠ text

/-- How many numbers are written at a time. -/
def batchSize : Nat := 256

/-- Some more numbers, after one that has just been written: what is written, and how many; fewer than
asked for if that is all. -/
def batch (f : NumberFormat) (separator : Bytes) (first step : Rat) (last : Decimal.Value) :
    Nat → Nat → Rat → List Bytes × Nat × Bool × Rat
  | 0, i, before => ([], i, true, before)
  | n + 1, i, before =>
    let x := keepFraction (first + keepFraction (step * i))
    if isPast step last x then
      (if looksLast f last before x then [separator, f.apply (valueOf x)] else [], i, false, x)
    else
      let (out, i, more, before) := batch f separator first step last n (i + 1) x
      (separator :: f.apply (valueOf x) :: out, i, more, before)

/-- Writes the numbers from one to another in steps. -/
def writeNumbers (f : NumberFormat) (separator : Bytes) (first step : Decimal.Value)
    (last : Decimal.Value) : Prog Nat := do
  let start := first.toRat
  let size := step.toRat
  let isWild := match first, step with
    | .finite _ _, .finite _ _ => false
    | _, _ => true
  if isWild then
    if isPast size last start = false then say (f.apply first ++ [newline])
    return 0
  if isPast size last start then return 0
  say (f.apply first)
  Prog.repeatWhile
    (fun (i, before) => do
      let (out, i, more, before) := batch f separator start size last batchSize i before
      say out.flatten
      if more then return .inl (i, before)
      else
        say [newline]
        return .inr 0)
    (fun _ => 0) (1, start)

/-! ### The programs -/

/-- The options of `seq`. -/
def seqOptions : OptionSet := .ofText "f:s:w" ["equal-width=w", "format:=f", "separator:=s"]

/-- Reads the words of `seq`, up to the first that is an operand; a number with a minus sign is one.
The number bounds the steps. -/
def readNumberWords : Nat → List Bytes → Except Refusal (Given × List Bytes)
  | 0, words => .ok ([], words)
  | n + 1, words =>
    let isNumber (word : Bytes) : Bool := match word with
      | 45 :: c :: _ => (digit? c).isSome || c = 46
      | _ => false
    let isOption (word : Bytes) : Bool := word.head? = some 45 && word.length ≠ 1
    match words with
    | [] => .ok ([], [])
    | [45, 45] :: rest => .ok ([], rest)
    | word :: rest =>
      if isNumber word ∨ isOption word = false then .ok ([], words)
      else do
        let alone ← match readWords seqOptions true [word] with
          | .error (.withoutArgument _) | .error (.wordWithoutArgument _) =>
            (readWords seqOptions true (word :: rest.take 1)).map fun (given, _) =>
              (given, rest.drop 1)
          | .error refusal => .error refusal
          | .ok (given, _) => .ok (given, rest)
        let (given, rest) := alone
        let (more, operands) ← readNumberWords n rest
        return (given ++ more, operands)

/-- The terms of a sequence. -/
def readTerms (words : List Bytes) : Except Objection (Term × Term × Term) := do
  let terms ← words.mapM Term.read
  match terms with
  | [first, last] => return (first, Term.one, last)
  | [first, step, last] =>
    if step.value.toRat = 0 ∧ step.value matches .finite _ _ then
      throw (.misuse (utf8 "invalid Zero increment value: " ++ Quoted.escaped (words.getD 1 [])))
    return (first, step, last)
  | terms => return (Term.one, Term.one, terms.headD Term.one)

/-- Numbers in plain digits, which are counted through without being rounded. -/
def plainNumbers? (words : List Bytes) : Option (Nat × Nat × Nat) := do
  let numbers ← words.mapM digits?
  match numbers with
  | [last] => some (1, 1, last)
  | [first, last] => some (first, 1, last)
  | [first, step, last] => if 0 < step ∧ step ≤ 200 then some (first, step, last) else none
  | _ => none

/-- Counts through plain numbers. -/
def writePlain (separator : Bytes) (first step last : Nat) : Prog Nat := do
  Prog.repeatWhile
    (fun next => do
      let count := min batchSize ((last - next) / step + 1)
      let numbers := (List.range count).map fun i => next + step * i
      let following := next + step * count
      if last < following then
        say (List.intercalate separator (numbers.map Bytes.ofNat) ++ [newline])
        return .inr 0
      else
        say (numbers.flatMap fun n => Bytes.ofNat n ++ separator)
        return .inl following)
    (fun _ => 0) first

/-- Writes numbers in order. -/
def seq (r : Request) : Prog Nat := do
  match readNumberWords (r.operands.length + 1) r.operands with
  | .error refusal => r.refuse refusal.message
  | .ok (given, words) =>
    let r := { r with options := given, operands := words }
    let separator := (r.argument? 's').getD [newline]
    match words, (r.argument? 'f').mapM NumberFormat.read with
    | [], _ => r.missingOperand
    | _ :: _ :: _ :: extra :: _, _ => r.extraOperand extra
    | _, .error objection => r.object 1 objection
    | words, .ok form =>
      if form.isSome ∧ r.has 'w' then
        r.refuse (utf8 "format string may not be specified when printing equal width strings")
      else
        let plain := if form.isNone ∧ r.has 'w' = false ∧ separator.length = 1
          then (plainNumbers? words).filter fun (first, _, last) => first ≤ last else none
        match plain, readTerms words with
        | some (first, step, last), _ => writePlain separator first step last
        | none, .error objection => r.object 1 objection
        | none, .ok (first, step, last) =>
          let form := form.getD (.standard (r.has 'w') first step last)
          writeNumbers form separator first.value step.value last.value

/-- Writes a line again and again, until nobody reads it. -/
def yes (r : Request) : Prog Nat := do
  let line := (if r.operands = [] then [121] else Bytes.join 32 r.operands) ++ [newline]
  let block := (List.replicate (max 1 (blockSize / line.length)) line).flatten
  Prog.repeatWhile
    (fun () => do
      match ← Prog.writeAll 1 block with
      | .ok () => return .inl ()
      | .error errno =>
        r.complainOf (utf8 "standard output") errno
        return .inr 1)
    (fun () => 1) ()

end JobShell.Programs
