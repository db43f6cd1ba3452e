/-
**Keys of lines.**

Lines are compared by keys: parts of a line that are named by the numbers of fields and bytes.
Lines that all keys take for equal are compared byte by byte.

Main definitions:

* `JobShell.Programs.Measure` — how the texts of a key are compared;
* `JobShell.Programs.Key`, `JobShell.Programs.Key.read` — keys;
* `JobShell.Programs.Sorting`, `JobShell.Programs.Sorting.before` — an order on lines.
-/

import JobShell.Programs.Request
import JobShell.Text.Collation

set_option autoImplicit false

namespace JobShell.Programs

open Collation (isBlank)

/-! ### Comparing texts -/

/-- How texts are compared. -/
structure Measure where
  /-- Only blanks, letters and digits count. -/
  wordsOnly : Bool := false
  /-- Only bytes that can be printed count. -/
  printableOnly : Bool := false
  /-- Small letters count as capitals. -/
  folded : Bool := false
  /-- Values with exponents. -/
  general : Bool := false
  /-- Sizes with units. -/
  human : Bool := false
  months : Bool := false
  numeric : Bool := false
  /-- No order that could be known. -/
  random : Bool := false
  versions : Bool := false
  reversed : Bool := false
  /-- Blanks at the beginning do not count. -/
  skipsBlanks : Bool := false
  /-- Blanks do not count where the end is looked for. -/
  skipsBlanksAtEnd : Bool := false
  deriving DecidableEq, Repr, Inhabited

namespace Measure

/-- The measure with one more letter. -/
def add (m : Measure) (letter : Char) : Measure :=
  match letter with
  | 'd' => { m with wordsOnly := true, printableOnly := false }
  | 'f' => { m with folded := true }
  | 'g' => { m with general := true }
  | 'h' => { m with human := true }
  | 'i' => { m with printableOnly := !m.wordsOnly }
  | 'M' => { m with months := true }
  | 'n' => { m with numeric := true }
  | 'R' => { m with random := true }
  | 'r' => { m with reversed := true }
  | 'V' => { m with versions := true }
  | _ => m

/-- The letters of measures. -/
def letters : List Char := "bdfghiMnRrV".toList

/-- Whether a measure has no letter. -/
def isPlain (m : Measure) : Bool := m = {}

/-- The letters that exclude each other, if a measure has too many of them. -/
def conflict? (m : Measure) : Option Bytes :=
  let groups := [m.numeric, m.general, m.human, m.months,
    m.versions || m.random || m.wordsOnly || m.printableOnly]
  if (groups.filter id).length ≤ 1 then none
  else
    let flags := [('d', m.wordsOnly), ('f', m.folded), ('g', m.general), ('h', m.human),
      ('i', m.printableOnly), ('M', m.months), ('n', m.numeric), ('R', m.random),
      ('V', m.versions)]
    some ((flags.filter (·.2)).map (·.1.toUInt8))

/-- A text with only the bytes that count. -/
def adapt (m : Measure) (text : Bytes) : Bytes :=
  let counts (c : UInt8) : Bool :=
    if m.wordsOnly then isBlank c || Collation.isDigit c || Collation.isLetter c
    else !m.printableOnly || Quoted.isPrintable c
  let text := text.filter counts
  if m.folded then text.map Collation.upper else text

/-- Compares texts. -/
def compare (m : Measure) (a b : Bytes) : Ordering :=
  let order :=
    if m.numeric then Collation.numbers a b
    else if m.general then Collation.values a b
    else if m.human then Collation.sizes a b
    else if m.months then Collation.months a b
    else if m.random then .eq
    else if m.versions then Collation.versions (m.adapt a) (m.adapt b)
    else Collation.bytes (m.adapt a) (m.adapt b)
  if m.reversed then order.swap else order

end Measure

/-! ### Fields -/

/-- How many bytes the first fields of a text take; `closing` says whether the delimiter after the
last of them is counted. -/
def fieldsLength (delimiter : Option UInt8) (closing : Bool) : Nat → Bytes → Nat
  | 0, _ => 0
  | n + 1, s =>
    match delimiter with
    | some d =>
      let field := s.takeWhile (· ≠ d)
      let rest := s.drop field.length
      if rest = [] then field.length
      else if n = 0 ∧ closing = false then field.length
      else field.length + 1 + fieldsLength delimiter closing n (rest.drop 1)
    | none =>
      let blanks := s.takeWhile isBlank
      let field := (s.drop blanks.length).takeWhile fun c => !isBlank c
      let length := blanks.length + field.length
      length + if length = 0 then 0 else fieldsLength delimiter closing n (s.drop length)

/-- A part of each line, and how it is compared. -/
structure Key where
  /-- How many fields, and how many bytes after them, come before the part. -/
  field : Nat := 0
  byte : Nat := 0
  /-- The last field, and the last byte of it if that is not its end. -/
  stop : Option (Nat × Nat) := none
  measure : Measure := {}
  deriving DecidableEq, Repr, Inhabited

namespace Key

/-- How many blanks are left out at the start of a text. -/
def skipped (skips : Bool) (text : Bytes) : Nat :=
  if skips then (text.takeWhile isBlank).length else 0

/-- Where the part begins. -/
def beginning (k : Key) (delimiter : Option UInt8) (line : Bytes) : Nat :=
  let fields := fieldsLength delimiter true k.field line
  min line.length (fields + skipped k.measure.skipsBlanks (line.drop fields) + k.byte)

/-- Where the part ends. -/
def ending (k : Key) (delimiter : Option UInt8) (line : Bytes) : Nat :=
  match k.stop with
  | none => line.length
  | some (field, 0) => fieldsLength delimiter false field line
  | some (field, byte) =>
    let fields := fieldsLength delimiter true (field - 1) line
    min line.length (fields + skipped k.measure.skipsBlanksAtEnd (line.drop fields) + byte)

/-- The part of a line that is compared. -/
def part (k : Key) (delimiter : Option UInt8) (line : Bytes) : Bytes :=
  (line.take (k.ending delimiter line)).drop (k.beginning delimiter line)

/-! ### Reading keys -/

/-- Reads a number of a key, or says why there is none. -/
def number (what : String) (text : Bytes) : Except Bytes (Nat × Bytes) :=
  let (n, used) := digitsInFront 10 digit? text.length text
  if used = 0 then
    .error (utf8 (what ++ ": invalid count at start of ") ++ Quoted.escaped text)
  else .ok (n, text.drop used)

/-- The complaint about a key. -/
def invalid (what : String) (text : Bytes) : Bytes :=
  utf8 (what ++ ": invalid field specification ") ++ Quoted.escaped text

/-- Reads the letters of a key, and gives the rest. -/
def letters (text : Bytes) : List Char × Bytes :=
  let front := text.takeWhile fun c => Measure.letters.contains (Char.ofNat c.toNat)
  (front.map fun c => Char.ofNat c.toNat, text.drop front.length)

/-- Reads the end of a key, if it has one. -/
def readStop (whole rest : Bytes) : Except Bytes (Option (Nat × Nat) × List Char) := do
  match rest with
  | [] => return (none, [])
  | 44 :: rest =>
    let (field, rest) ← number "invalid number after ','" rest
    if field = 0 then throw (invalid "field number is zero" whole)
    let (byte, rest) ← match rest with
      | 46 :: rest => number "invalid number after '.'" rest
      | rest => pure (0, rest)
    let (more, rest) := letters rest
    if rest = [] then return (some (field, byte), more)
    else throw (invalid "stray character in field spec" whole)
  | _ => throw (invalid "stray character in field spec" whole)

/-- Reads a key.  Without letters of its own it has the measure that is given. -/
def read (common : Measure) (text : Bytes) : Except Bytes Key := do
  let (field, rest) ← number "invalid number at field start" text
  if field = 0 then throw (invalid "field number is zero" text)
  let (byte, rest) ← match rest with
    | 46 :: rest => number "invalid number after '.'" rest
    | rest => pure (1, rest)
  if byte = 0 then throw (invalid "character offset is zero" text)
  let (first, rest) := letters rest
  let (stop, second) ← readStop text rest
  let own : Measure := (first ++ second).foldl Measure.add
    { skipsBlanks := first.contains 'b', skipsBlanksAtEnd := second.contains 'b' }
  return { field := field - 1
           byte := byte - 1
           stop := stop
           measure := if own.isPlain then common else own }

end Key

/-! ### The order of lines -/

/-- An order on lines. -/
structure Sorting where
  keys : List Key
  delimiter : Option UInt8
  /-- The order of lines that all keys take for equal is reversed. -/
  reversed : Bool
  /-- Lines that all keys take for equal are not compared further. -/
  keysOnly : Bool

namespace Sorting

/-- The words for the ways to compare. -/
def ways : List (String × Char) :=
  [("general-numeric", 'g'), ("human-numeric", 'h'), ("month", 'M'), ("numeric", 'n'),
    ("random", 'R'), ("version", 'V')]

/-- The measure that options ask for. -/
def commonMeasure (r : Request) : Except Objection Measure :=
  r.options.foldlM (fun m o =>
    match o with
    | (.letter 'b', _) => .ok { m with skipsBlanks := true, skipsBlanksAtEnd := true }
    | (.letter c, _) => .ok (m.add c)
    | (.word "sort", text) => (chooseWord "--sort" ways text).map m.add
    | _ => .ok m) {}

/-- Reads the byte between fields. -/
def readDelimiter (r : Request) : Except Objection (Option UInt8) :=
  (r.arguments 't').foldlM (fun before text =>
    let accept (c : UInt8) : Except Objection (Option UInt8) :=
      if before.all (· = c) then .ok (some c) else .error (.plain (utf8 "incompatible tabs"))
    match text with
    | [] => .error (.plain (utf8 "empty tab"))
    | [c] => accept c
    | [92, 48] => accept nul
    | _ => .error (.plain (utf8 "multi-character tab " ++ Quoted.escaped text))) none

/-- The complaint about letters that exclude each other. -/
def incompatible (letters : Bytes) : Objection :=
  .plain (utf8 "options '-" ++ letters ++ utf8 "' are incompatible")

/-- Reads the order that options ask for. -/
def ofRequest (r : Request) : Except Objection Sorting := do
  let common ← commonMeasure r
  let delimiter ← readDelimiter r
  let keys ← ((r.arguments 'k').mapM (Key.read common)).mapError Objection.plain
  let keys := if keys = [] ∧ common ≠ { reversed := common.reversed } then
      [({ measure := common } : Key)] else keys
  match keys.findSome? (·.measure.conflict?) with
  | some letters => throw (incompatible letters)
  | none =>
    return { keys := keys
             delimiter := delimiter
             reversed := common.reversed
             keysOnly := r.has 'u' || r.has 's' }

/-- Compares lines by their keys. -/
def compareKeys (s : Sorting) (a b : Bytes) : Ordering :=
  s.keys.foldl (fun order k =>
    order.then (k.measure.compare (k.part s.delimiter a) (k.part s.delimiter b))) .eq

/-- Compares lines. -/
def compare (s : Sorting) (a b : Bytes) : Ordering :=
  let whole := Collation.bytes a b
  let whole := if s.reversed then whole.swap else whole
  if s.keys = [] then whole
  else (s.compareKeys a b).then (if s.keysOnly then .eq else whole)

/-- Whether a line may stand before another. -/
def before (s : Sorting) (a b : Bytes) : Bool := s.compare a b != .gt

end Sorting

end JobShell.Programs
