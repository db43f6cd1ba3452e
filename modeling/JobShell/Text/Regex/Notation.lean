/-
**Regular expressions as they are written.**

An expression has a basic and an extended form.  The two differ in which marks need a backslash, so
the text is first cut into marks and then read in the same way.

Main definitions:

* `JobShell.Regex.Mistake` — why a text is no expression;
* `JobShell.Regex.readBracket` — sets of bytes between square brackets;
* `JobShell.Regex.ofBasic`, `JobShell.Regex.ofExtended` — reading an expression;
* `JobShell.Regex.idleCounts` — the counts that have nothing to repeat.
-/

import JobShell.Text.Quoted
import JobShell.Text.Regex

set_option autoImplicit false

namespace JobShell.Regex

/-- Why a text is no expression. -/
inductive Mistake where
  | openBracket
  | emptyBracket
  | badRange
  | badClass
  | badElement
  | openGroup
  | noGroup
  | openCount
  | badCount
  | bigCount
  | badReference
  | nothingAfterBackslash
  deriving DecidableEq, Repr, Inhabited

/-- The wording of a mistake. -/
def Mistake.message : Mistake → String
  | .openBracket => "Unmatched [, [^, [:, [., or [="
  | .emptyBracket => "Invalid regular expression"
  | .badRange => "Invalid range end"
  | .badClass => "Invalid character class name"
  | .badElement => "Invalid collation character"
  | .openGroup => "Unmatched ( or \\("
  | .noGroup => "Unmatched ) or \\)"
  | .openCount => "Unmatched \\\x7b"
  | .badCount => "Invalid content of \\\x7b\\\x7d"
  | .bigCount => "Regular expression too big"
  | .badReference => "Invalid back reference"
  | .nothingAfterBackslash => "Trailing backslash"

/-! ### Brackets -/

/-- An element of a bracket. -/
inductive Element where
  | byte (c : UInt8)
  /-- The bytes of a class, which cannot be the end of a range. -/
  | several (bytes : Bytes)
  deriving DecidableEq, Repr, Inhabited

/-- The bytes of an element. -/
def Element.bytes : Element → Bytes
  | .byte c => [c]
  | .several bytes => bytes

/-- Reads a name up to a byte that a closing bracket follows. -/
def symbol (delimiter : UInt8) : Bytes → Except Mistake (Bytes × Bytes)
  | [] => .error .openBracket
  | c :: s =>
    match s with
    | [] => .error .openBracket
    | 93 :: rest =>
      if c = delimiter then .ok ([], rest)
      else do
        let (name, rest) ← symbol delimiter s
        return (c :: name, rest)
    | _ => do
      let (name, rest) ← symbol delimiter s
      return (c :: name, rest)

/-- Reads an element.  A minus sign is one at the beginning and at the end. -/
def readElement (free : Bool) (s : Bytes) : Except Mistake (Element × Bytes) :=
  match s with
  | [] => .error .openBracket
  | 91 :: 58 :: s => do
    let (name, rest) ← symbol 58 s
    match ByteClass.named? name with
    | some bytes => return (.several bytes, rest)
    | none => throw .badClass
  | 91 :: 61 :: s => do
    let (name, rest) ← symbol 61 s
    match name with
    | [c] => return (.several [c], rest)
    | _ => throw .badElement
  | 91 :: 46 :: s => do
    let (name, rest) ← symbol 46 s
    match name with
    | [c] => return (.byte c, rest)
    | _ => throw .badElement
  | 45 :: rest => if free ∨ rest.head? = some 93 then .ok (.byte 45, rest) else .error .badRange
  | c :: rest => .ok (.byte c, rest)

/-- Reads an element, or a range from it to another one. -/
def readRange (free : Bool) (s : Bytes) : Except Mistake (Bytes × Bytes) := do
  let (first, rest) ← readElement free s
  match first, rest with
  | .byte _, [] => throw .openBracket
  | .byte _, [45] => throw .openBracket
  | .byte c, 45 :: 93 :: rest => return ([c], 45 :: 93 :: rest)
  | .byte lo, 45 :: rest =>
    match ← readElement true rest with
    | (.byte hi, rest) => if hi < lo then throw .badRange else return (ByteClass.range lo hi, rest)
    | _ => throw .badRange
  | element, rest => return (element.bytes, rest)

/-- Reads elements up to a closing bracket, which is one itself at the beginning.  The number bounds
the steps. -/
def readElements : Nat → Bool → Bytes → Except Mistake (Bytes × Bytes)
  | 0, _, _ => .error .openBracket
  | n + 1, free, s =>
    match free, s with
    | false, 93 :: rest => .ok ([], rest)
    | free, s => do
      let (bytes, rest) ← readRange free s
      let (others, rest) ← readElements n false rest
      return (bytes ++ others, rest)

/-- Reads a bracket after its opening. -/
def readBracket (s : Bytes) : Except Mistake (Regex × Bytes) :=
  match s with
  | [] | [94] => .error .emptyBracket
  | 94 :: s => do
    let (members, rest) ← readElements (s.length + 1) true s
    return (.noneOf members, rest)
  | s => do
    let (members, rest) ← readElements (s.length + 1) true s
    return (.oneOf members, rest)

/-- Whether a text has a class without a bracket around it. -/
def hasBareClass : Bytes → Bool
  | [] => false
  | 92 :: _ :: s => hasBareClass s
  | 91 :: 58 :: s =>
    let name := s.takeWhile (· ≠ 93)
    (name.length < s.length && name.getLast? = some 58 && name.any (· ≠ 58)) || hasBareClass s
  | 91 :: s =>
    match readBracket s with
    | .ok (_, rest) => if rest.length < s.length then hasBareClass rest else false
    | .error _ => false
  | _ :: s => hasBareClass s
termination_by s => s.length

/-! ### Marks -/

/-- A mark of a regular expression. -/
inductive Mark where
  | atom (r : Regex)
  /-- The beginning of a group with a number. -/
  | opening (number : Nat)
  | closing
  | alternative
  | count (least : Nat) (most : Option Nat)
  deriving Repr, Inhabited

/-- The greatest number in a count. -/
def greatestCount : Nat := 32767

/-- Reads the numbers of a count that is ended by some bytes, and gives what follows. -/
def readCount (ending s : Bytes) : Except Mistake (Nat × Option Nat × Bytes) :=
  let isDigit (c : UInt8) : Bool := (digit? c).isSome
  let least := s.takeWhile isDigit
  let (most, comma, rest) := match s.drop least.length with
    | 44 :: s =>
      let most := s.takeWhile isDigit
      (digits? most, true, s.drop most.length)
    | s => (digits? least, false, s)
  let lo := (digits? least).getD 0
  if ending.isPrefixOf rest = false then
    .error (if rest = [] ∨ rest = [Quoted.backslash] then .openCount else .badCount)
  else if least = [] ∧ comma = false then .error .badCount
  else if most.any (· < lo) then .error .badCount
  else if greatestCount < most.getD lo then .error .bigCount
  else .ok (lo, most, rest.drop ending.length)

/-- What a backslash makes of a byte in both forms. -/
def escaped (c : UInt8) : Regex :=
  let word := (ByteClass.named? (utf8 "alnum")).getD [] ++ [95]
  let space := (ByteClass.named? (utf8 "space")).getD []
  match Char.ofNat c.toNat with
  | 'w' => .oneOf word
  | 'W' => .noneOf word
  | 's' => .oneOf space
  | 'S' => .noneOf space
  | 'b' => .edge
  | '<' => .wordStart
  | '>' => .wordStop
  | _ => .byte c

/-- Where the reading of marks is. -/
structure Reading where
  extended : Bool
  /-- Nothing stands before that could be repeated. -/
  fresh : Bool := true
  /-- The groups that are open, the innermost first. -/
  opened : List Nat := []
  /-- The groups that are closed. -/
  closed : List Nat := []

namespace Reading

/-- Reads what the marks for groups, alternatives and counts mean, whether they have a backslash or
not; nothing if a byte is none of them.  A count is ended by the given bytes. -/
def special? (p : Reading) (ending : Bytes) (c : UInt8) (s : Bytes) :
    Except Mistake (Option (Mark × Bytes)) :=
  let idle := p.fresh && !p.extended
  match Char.ofNat c.toNat with
  | '(' => .ok (some (.opening (p.opened.length + p.closed.length + 1), s))
  | ')' =>
    if p.opened ≠ [] then .ok (some (.closing, s))
    else if p.extended then .ok none
    else .error .noGroup
  | '|' => .ok (some (.alternative, s))
  | '+' => .ok (if idle then none else some (.count 1 none, s))
  | '?' => .ok (if idle then none else some (.count 0 (some 1), s))
  | '{' =>
    match readCount ending s with
    | .ok (least, most, s) => .ok (if idle then none else some (.count least most, s))
    | .error .openCount => if p.extended then .ok none else .error .openCount
    | .error .badCount => if p.extended ∧ refuses s = false then .ok none else .error .badCount
    | .error mistake => .error mistake
  | _ => .ok none
where
  /-- Whether a count that makes no sense is not taken for a text. -/
  refuses (s : Bytes) : Bool :=
    let text := s.takeWhile (· ≠ 125)
    text = [] || (text.length < s.length && text.all fun c => c = 44 || (digit? c).isSome)

/-- Reads a mark. -/
def next (p : Reading) (c : UInt8) (s : Bytes) : Except Mistake (Mark × Bytes) := do
  let plain : Mark × Bytes := (.atom (.byte c), s)
  match Char.ofNat c.toNat with
  | '\\' =>
    match s with
    | [] => throw .nothingAfterBackslash
    | c :: s =>
      if 49 ≤ c ∧ c ≤ 57 then
        let number := c.toNat - 48
        if p.closed.contains number then return (.atom (.back number), s)
        else throw .badReference
      else
        let found ← if p.extended then pure none else p.special? [92, 125] c s
        return found.getD (.atom (escaped c), s)
  | '.' => return (.atom .any, s)
  | '[' =>
    let (r, s) ← readBracket s
    return (.atom r, s)
  | '*' => return if p.fresh ∧ p.extended = false then plain else (.count 0 none, s)
  | '^' => return if p.fresh ∨ p.extended then (.atom .start, s) else plain
  | '$' =>
    let last := s = [] || [92, 124].isPrefixOf s || [92, 41].isPrefixOf s
    return if last ∨ p.extended then (.atom .stop, s) else plain
  | _ =>
    let found ← if p.extended then p.special? [125] c s else pure none
    return found.getD plain

/-- The state after a mark with a first byte. -/
def after (p : Reading) (c : UInt8) : Mark → Reading
  | .opening number => { p with fresh := true, opened := number :: p.opened }
  | .closing =>
    { p with fresh := false, opened := p.opened.drop 1, closed := p.opened.take 1 ++ p.closed }
  | .alternative => { p with fresh := true }
  | .atom .start => p
  | .atom .stop | .atom .edge | .atom .wordStart | .atom .wordStop | .count _ _ =>
    { p with fresh := p.fresh && p.extended && c ≠ 123 }
  | .atom _ => { p with fresh := false }

/-- Cuts a text into marks.  The length of the text bounds the steps. -/
def run : Nat → Reading → Bytes → Except Mistake (List (Bool × UInt8 × Mark))
  | 0, _, _ => .ok []
  | _, p, [] => if p.opened = [] then .ok [] else .error .openGroup
  | n + 1, p, c :: s => do
    let (m, rest) ← p.next c s
    return (p.fresh, c, m) :: (← run n (p.after c m) rest)

end Reading

/-- The marks of a text, each with its first byte and whether there is nothing before it that could be
repeated. -/
def marks (extended : Bool) (text : Bytes) : Except Mistake (List (Bool × UInt8 × Mark)) :=
  Reading.run (text.length + 1) { extended := extended } text

/-- The first bytes of the counts that have nothing to repeat. -/
def idleCounts (text : Bytes) : Bytes :=
  match marks true text with
  | .error _ => []
  | .ok ms => ms.filterMap fun (fresh, c, m) => match m with
    | .count _ _ => if fresh then some c else none
    | _ => none

/-! ### Expressions -/

mutual

/-- Reads alternatives.  The groups with the given numbers are referred to. -/
def readEither (numbers : List Nat) : Nat → List Mark → Except Mistake (Regex × List Mark)
  | 0, _ => .error .openGroup
  | n + 1, ms => do
    let (r, ms) ← readBoth numbers n ms
    match ms with
    | .alternative :: ms =>
      let (s, ms) ← readEither numbers n ms
      return (.either r s, ms)
    | _ => return (r, ms)

/-- Reads expressions one after the other. -/
def readBoth (numbers : List Nat) : Nat → List Mark → Except Mistake (Regex × List Mark)
  | 0, _ => .error .openGroup
  | n + 1, ms =>
    match ms with
    | [] | .alternative :: _ | .closing :: _ => .ok (.nothing, ms)
    | _ => do
      let (r, rest) ← readOne numbers n ms
      let (s, after) ← readBoth numbers n (readCounts r rest).2
      return (.both (readCounts r rest).1 s, after)

/-- Reads one expression, without its counts. -/
def readOne (numbers : List Nat) : Nat → List Mark → Except Mistake (Regex × List Mark)
  | 0, _ => .error .openGroup
  | _, .atom r :: ms => .ok (r, ms)
  | n + 1, .opening number :: ms => do
    let (r, ms) ← readEither numbers n ms
    match ms with
    | .closing :: ms =>
      return (.group (if numbers.contains number then some number else none) r, ms)
    | _ => throw .openGroup
  | _, .count _ _ :: ms => .ok (.nothing, ms)
  | _, _ => .error .openGroup

/-- Applies the counts at the front to an expression. -/
def readCounts : Regex → List Mark → Regex × List Mark
  | r, .count least most :: ms => readCounts (.times r least most) ms
  | r, ms => (r, ms)

end

/-- Reads an expression from its marks. -/
def ofMarks (ms : List Mark) : Except Mistake Regex := do
  let numbers := ms.filterMap fun m => match m with
    | .atom (.back number) => some number
    | _ => none
  let (r, rest) ← readEither numbers (4 * ms.length + 4) ms
  if rest.isEmpty then return r else throw .noGroup

/-- Reads an expression in its basic form. -/
def ofBasic (text : Bytes) : Except Mistake Regex := do
  ofMarks ((← marks false text).map (·.2.2))

/-- Reads an expression in its extended form. -/
def ofExtended (text : Bytes) : Except Mistake Regex := do
  ofMarks ((← marks true text).map (·.2.2))

end JobShell.Regex
