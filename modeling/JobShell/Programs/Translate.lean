/-
**Replacing bytes by others.**

A set of bytes is written as bytes, ranges, classes and repetitions.  The place of a byte in the
first set says which byte of the second set replaces it.

Main definitions:

* `JobShell.Programs.ByteSet.Part` — the parts of a set;
* `JobShell.Programs.ByteSet.read`, `JobShell.Programs.ByteSet.expand` — reading a set, and its
  bytes;
* `JobShell.Programs.tr` — the program.
-/

import JobShell.Programs.Request
import JobShell.Text.ByteClass

set_option autoImplicit false

namespace JobShell.Programs

namespace ByteSet

/-- A part of a set. -/
inductive Part where
  /-- A byte, and whether it is written as itself. -/
  | one (c : UInt8) (plain : Bool)
  /-- A byte that is written as a class of its own. -/
  | alike (c : UInt8)
  /-- The bytes of a range. -/
  | many (bytes : Bytes)
  /-- The bytes of a class. -/
  | members (name bytes : Bytes)
  /-- A byte so many times, or as often as it takes to fill the set. -/
  | repeated (c : UInt8) (count : Option Nat)
  deriving DecidableEq, Repr, Inhabited

/-- Why a text is no set. -/
inductive Mistake where
  | unknownClass (name : Bytes)
  | reversed (lo hi : UInt8)
  deriving DecidableEq, Repr, Inhabited

/-- The wording of a mistake. -/
def Mistake.message : Mistake → Bytes
  | .unknownClass name => utf8 "invalid character class " ++ Quoted.escaped name
  | .reversed lo hi =>
    utf8 "range-endpoints of " ++ Quoted.escaped [lo, 45, hi]
      ++ utf8 " are in reverse collating sequence order"

/-- The value of a byte after a backslash. -/
def escapeByte (c : UInt8) : UInt8 :=
  (((utf8 "abtnvfr").zip [7, 8, 9, 10, 11, 12, 13]).lookup c).getD c

/-- Reads up to so many octal digits after a value. -/
def octal (value : Nat) : Nat → Bytes → Nat × Bytes
  | 0, s => (value, s)
  | _, [] => (value, [])
  | n + 1, c :: s =>
    if 48 ≤ c ∧ c ≤ 55 ∧ value * 8 + (c.toNat - 48) < 256 then
      octal (value * 8 + (c.toNat - 48)) n s
    else (value, c :: s)

/-- The part that a text in square brackets stands for, and what follows the brackets. -/
def bracketed? (s : Bytes) : Option (Except Mistake (Part × Bytes)) :=
  match s with
  | 58 :: s =>
    let name := s.takeWhile (· ≠ 58)
    match s.drop name.length with
    | 58 :: 93 :: rest => some (match ByteClass.named? name with
      | some bytes => .ok (.members name bytes, rest)
      | none => .error (.unknownClass name))
    | _ => none
  | 61 :: c :: 61 :: 93 :: rest => some (.ok (.alike c, rest))
  | c :: 42 :: s =>
    let digits := s.takeWhile (· ≠ 93)
    match s.drop digits.length with
    | _ :: rest =>
      if digits = [] then some (.ok (.repeated c none, rest))
      else (digits? digits).map fun n =>
        .ok (.repeated c (if n = 0 then none else some n), rest)
    | [] => none
  | _ => none

/-- Reads the parts of a set, ranges still in pieces.  The length of the text bounds the steps. -/
def parts : Nat → Bytes → Except Mistake (List Part)
  | 0, _ => .ok []
  | _, [] => .ok []
  | n + 1, 92 :: c :: s =>
    if 48 ≤ c ∧ c ≤ 55 then do
      let (value, rest) := octal 0 3 (c :: s)
      return .one (UInt8.ofNat value) false :: (← parts n rest)
    else return .one (escapeByte c) false :: (← parts n s)
  | n + 1, 91 :: s =>
    match bracketed? s with
    | some (.ok (part, rest)) => return part :: (← parts n rest)
    | some (.error mistake) => .error mistake
    | none => return .one 91 true :: (← parts n s)
  | n + 1, c :: s => return .one c true :: (← parts n s)

/-- Fills in ranges. -/
def ranges : List Part → Except Mistake (List Part)
  | .one lo _ :: .one 45 true :: .one hi _ :: rest =>
    if hi < lo then .error (.reversed lo hi)
    else return .many (ByteClass.range lo hi) :: (← ranges rest)
  | part :: rest => return part :: (← ranges rest)
  | [] => .ok []

/-- Reads a set. -/
def read (text : Bytes) : Except Mistake (List Part) := do
  ranges (← parts (text.length + 1) text)

/-- The bytes of a part, without those that fill the set. -/
def Part.bytes : Part → Bytes
  | .one c _ | .alike c => [c]
  | .many bytes | .members _ bytes => bytes
  | .repeated c count => List.replicate (count.getD 0) c

/-- Whether a part is a byte as often as it takes to fill the set. -/
def Part.fills : Part → Bool
  | .repeated _ none => true
  | _ => false

/-- Whether a part is the class of the letters of one case. -/
def Part.isCase : Part → Bool
  | .members name _ => name = utf8 "upper" || name = utf8 "lower"
  | _ => false

/-- The bytes of a set that is to have a length. -/
def expand (length : Nat) (parts : List Part) : Bytes :=
  let fixed := total (parts.map fun part => part.bytes.length)
  parts.flatMap fun part => match part with
    | .repeated c none => List.replicate (length - fixed) c
    | part => part.bytes

/-- The places in a set at which a class of letters of one case begins. -/
def caseStarts : Nat → List Part → List Nat
  | _, [] => []
  | n, part :: rest =>
    (if part.isCase then [n] else []) ++ caseStarts (n + part.bytes.length) rest

/-- Why two sets cannot be used together to replace bytes; `complemented` says that the first stands
for the bytes that it does not have. -/
def replacing? (first second : List Part) (complemented : Bool) : Option String :=
  let isClass (p : Part) : Bool := match p with
    | .members _ _ => true
    | _ => false
  let isAlike (p : Part) : Bool := match p with
    | .alike _ => true
    | _ => false
  let length (ps : List Part) : Nat := total (ps.map fun p => p.bytes.length)
  let starts := caseStarts 0 first
  if second.any isAlike then
    some "[=c=] expressions may not appear in string2 when translating"
  else if second.any fun p => isClass p && !p.isCase then
    some ("when translating, the only character classes that may appear in\n"
      ++ "string2 are 'upper' and 'lower'")
  else if complemented = false ∧ (caseStarts 0 second).any fun n => !starts.contains n then
    some "misaligned [:upper:] and/or [:lower:] construct"
  else if complemented = false ∧ length second < length first
      ∧ (second.getLast?).any isClass ∧ second.any Part.fills = false then
    some ("when translating with string1 longer than string2,\n"
      ++ "the latter string must not end with a character class")
  else if complemented ∧ first.any isClass ∧ 1 < (expand 256 second).eraseDups.length then
    some ("when translating with complemented character classes,\n"
      ++ "string2 must map all characters in the domain to one")
  else none

/-- Why sets cannot be used. -/
def problem? (first : List Part) (second : Option (List Part)) (replaces complemented : Bool) :
    Option String :=
  let fillers (ps : List Part) : Nat := (ps.filter Part.fills).length
  if 0 < fillers first then some "the [c*] repeat construct may not appear in string1"
  else
    second.bind fun second =>
      if 1 < fillers second then
        some "only one [c*] repeat construct may appear in string2"
      else if replaces then replacing? first second complemented
      else if 0 < fillers second then
        some "the [c*] construct may appear in string2 only when translating"
      else none

end ByteSet

/-- What becomes of a byte: the byte at the same place of the second set, whose last byte stands
for all that are missing. -/
def replaceByte (first second : Bytes) (c : UInt8) : UInt8 :=
  match (first.zip (List.range first.length)).reverse.find? (·.1 = c) with
  | some (_, i) => (second[min i (second.length - 1)]?).getD c
  | none => c

/-- Leaves out a byte that repeats the one before it, for bytes of a set. -/
def squeeze (set : Bytes) (before : Option UInt8) (bytes : Bytes) : Option UInt8 × Bytes :=
  let (last, out) := bytes.foldl (fun (last, out) c =>
    if last = some c ∧ set.contains c then (last, out) else (some c, c :: out)) (before, [])
  (last, out.reverse)

/-- Why operands do not fit the options; the second text is a line of advice. -/
def trProblem? (r : Request) : Option (Bytes × String) :=
  let deletes := r.has 'd'
  let squeezes := r.has 's'
  let least := if deletes = squeezes then 2 else 1
  let most := if deletes ∧ squeezes = false then 1 else 2
  match r.operands.getLast? with
  | none => some (utf8 "missing operand", "")
  | some last =>
    if r.operands.length < least then
      some (utf8 "missing operand after " ++ Quoted.escaped last,
        if squeezes then "Two strings must be given when both deleting and squeezing repeats.\n"
        else "Two strings must be given when translating.\n")
    else
      (r.operands[most]?).map fun extra =>
        (utf8 "extra operand " ++ Quoted.escaped extra,
          if r.operands.length = 2 then
            "Only one string may be given when deleting without squeezing repeats.\n"
          else "")

/-- Replaces, deletes or squeezes bytes of the input. -/
def translate (r : Request) (first : Bytes) (second : Option Bytes) : Prog Nat := do
  let deletes := r.has 'd'
  let last := second.getD first
  let table : Array UInt8 := match second with
    | some second => ((ByteClass.range 0 255).map (replaceByte first second)).toArray
    | none => #[]
  let change (bytes : Bytes) : Bytes :=
    if deletes then bytes.filter fun c => !first.contains c
    else bytes.map fun c => (table[c.toNat]?).getD c
  let result ← forEachBlock 0 blockSize (fun before bytes => do
      let changed := change bytes
      let (before, out) := if r.has 's' then squeeze last before changed else (before, changed)
      say out
      return (before, false)) none
  match result with
  | .ok _ => return 0
  | .error errno =>
    r.complainOf (utf8 "read error") errno
    return 1

/-- Replaces, deletes or squeezes bytes of the input. -/
def tr (r : Request) : Prog Nat := do
  match trProblem? r with
  | some (text, advice) =>
    r.complain text
    let _ ← emit 2 (utf8 advice)
    r.tryHelp
    return 1
  | none =>
    match r.operands.mapM ByteSet.read with
    | .error mistake =>
      r.complain mistake.message
      return 1
    | .ok sets =>
      let written := ByteSet.expand 0 (sets.headD [])
      let complemented := r.has 'c' || r.has 'C'
      let first := if complemented then
          (ByteClass.range 0 255).filter fun c => !written.contains c
        else written
      let second := sets[1]?.map (ByteSet.expand first.length)
      let first := match second with
        | some second => if r.has 't' then first.take second.length else first
        | none => first
      match ByteSet.problem? (sets.headD []) sets[1]? (!r.has 'd') complemented with
      | some text =>
        r.complain (utf8 text)
        return 1
      | none =>
        if second = some [] ∧ first ≠ [] ∧ r.has 'd' = false ∧ r.has 't' = false then
          r.complain (utf8 "when not truncating set1, string2 must be non-empty")
          return 1
        else translate r first second

end JobShell.Programs
