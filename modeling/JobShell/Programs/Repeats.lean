/-
**Repeated lines.**

Main definitions:

* `JobShell.Programs.Repetition` — how repetitions are told, and what is written of them;
* `JobShell.Programs.Repetition.shown` — what is written of a run of lines;
* `JobShell.Programs.uniq` — the program.
-/

import JobShell.Programs.Keys
import JobShell.Programs.Size

set_option autoImplicit false

namespace JobShell.Programs

/-- Where empty lines stand between runs. -/
inductive Spacing where
  | nowhere
  | before
  | after
  | between
  | around
  deriving DecidableEq, Repr, Inhabited

/-- How repetitions are told, and what is written of them. -/
structure Repetition where
  /-- How many fields, and how many bytes after them, do not count. -/
  fields : Nat := 0
  bytes : Nat := 0
  /-- How many bytes count at most. -/
  width : Option Nat := none
  folded : Bool := false
  counts : Bool := false
  /-- Lines that are not repeated are written. -/
  single : Bool := true
  /-- The first line of a run is written. -/
  first : Bool := true
  /-- All lines of a run are written. -/
  all : Bool := false
  spacing : Spacing := .nowhere
  /-- Runs of one line count as runs. -/
  grouped : Bool := false
  mark : UInt8 := newline
  deriving DecidableEq, Repr, Inhabited

namespace Repetition

/-- The part of a line by which repetitions are told. -/
def key (p : Repetition) (line : Bytes) : Bytes :=
  let rest := (line.drop (fieldsLength none true p.fields line)).drop p.bytes
  let rest := match p.width with
    | some width => rest.take width
    | none => rest
  if p.folded then rest.map Collation.lower else rest

/-- Runs of lines with the same key. -/
def runs (key : Bytes → Bytes) (lines : List Bytes) : List (List Bytes) :=
  (lines.map fun line => (key line, line)).splitBy (fun a b => a.1 == b.1) |>.map
    fun run => run.map (·.2)

/-- The lines of a run that are written. -/
def chosen (p : Repetition) (run : List Bytes) : List Bytes :=
  match run with
  | [] => []
  | [line] => if p.single then [line] else []
  | line :: _ =>
    if p.all then run.dropLast ++ (if p.first then (run.getLast?).toList else [])
    else if p.first then [line] else []

/-- What is written of a run. -/
def shown (p : Repetition) (run : List Bytes) : List Bytes :=
  (p.chosen run).map fun line =>
    if p.counts then padLeft 7 (Bytes.ofNat run.length) ++ 32 :: line else line

/-- Puts empty lines between runs. -/
def spaced (p : Repetition) (groups : List (List Bytes)) : List Bytes :=
  match p.spacing with
  | .nowhere => groups.flatten
  | .before => groups.flatMap fun g => [] :: g
  | .after => groups.flatMap fun g => g ++ [[]]
  | .between => List.intercalate [[]] groups
  | .around => if groups = [] then [] else [] :: groups.flatMap fun g => g ++ [[]]

/-- What is written of lines. -/
def apply (p : Repetition) (lines : List Bytes) : List Bytes :=
  p.spaced (((runs p.key lines).map p.shown).filter (· ≠ []))

/-- The argument of an option as a number. -/
def number (what : String) (text : Bytes) : Except Objection Nat :=
  match readSize "" text with
  | .ok n => .ok n
  | .error .overflow => .ok sizeLimit
  | .error .invalid => .error (.plain (text ++ utf8 (": " ++ what)))

/-- Takes one option into account.  Digits write the number of fields. -/
def add (p : Repetition) (o : OptionKey × Bytes) : Except Objection Repetition := do
  let groupings := [("prepend", Spacing.before), ("append", .after), ("separate", .between),
    ("both", .around)]
  match o with
  | (.letter 'f', text) =>
    return { p with fields := ← number "invalid number of fields to skip" text }
  | (.letter 's', text) =>
    return { p with bytes := ← number "invalid number of bytes to skip" text }
  | (.letter 'w', text) =>
    return { p with width := some (← number "invalid number of bytes to compare" text) }
  | (.letter 'i', _) => return { p with folded := true }
  | (.letter 'c', _) => return { p with counts := true }
  | (.letter 'd', _) => return { p with single := false }
  | (.letter 'u', _) => return { p with first := false }
  | (.letter 'D', text) =>
    let spacings := [("none", Spacing.nowhere), ("prepend", .before), ("separate", .between)]
    let spacing ← if text = [] then pure .nowhere else chooseWord "--all-repeated" spacings text
    return { p with single := false, all := true, spacing := spacing }
  | (.word "group", text) =>
    let spacing ← if text = [] then pure .between else chooseWord "--group" groupings text
    return { p with grouped := true, spacing := spacing }
  | (.letter 'z', _) => return { p with mark := nul }
  | (.letter c, _) =>
    return if c.isDigit then { p with fields := p.fields * 10 + (c.toNat - 48) } else p
  | _ => return p

/-- Reads the options of `uniq`. -/
def ofRequest (r : Request) : Except Objection Repetition := do
  let p ← r.options.foldlM add {}
  if p.grouped then
    if p.counts ∨ p.all ∨ p.single = false ∨ p.first = false then
      throw (.misuse (utf8 "--group is mutually exclusive with -c/-d/-D/-u"))
    return { p with all := true }
  if p.counts ∧ p.all then
    throw (.misuse (utf8
      "printing all duplicated lines and repeat counts is meaningless"))
  return p

end Repetition

/-- An operand of the form `+N` says how many bytes to skip. -/
def bytesToSkip? (operand : Bytes) : Option Nat :=
  match operand with
  | 43 :: digits => (digits? digits).filter (· < sizeLimit)
  | _ => none

/-- Writes lines, of repeated ones perhaps only one. -/
def uniqLines (r : Request) (p : Repetition) (input : Bytes) (output : Option Bytes) :
    Prog Nat := do
  let result ← withOperand input fun fd => do
    let target ← match output.filter (· ≠ dash) with
      | none => pure (.ok 1)
      | some path => openForWriting path false
    match target with
    | .error errno =>
      r.blame (output.getD []) errno
      return 1
    | .ok target =>
      match ← readAll fd with
      | .error errno =>
        r.complainOf (utf8 "error reading " ++ Quoted.forShell input) errno
        return 1
      | .ok text =>
        let lines := (text.cutAfter p.mark).map (chompAt p.mark)
        let _ ← emit target (endLines p.mark (p.apply lines))
        return 0
  match result with
  | .ok code => return code
  | .error errno =>
    r.blame input errno
    return 1

/-- Writes lines, of repeated ones perhaps only one. -/
def uniq (r : Request) : Prog Nat := do
  match Repetition.ofRequest r with
  | .error objection => r.object 1 objection
  | .ok p =>
    let p := match r.operands.filterMap bytesToSkip? with
      | [] => p
      | counts => { p with bytes := counts.getLastD 0 }
    match r.operands.filter fun w => (bytesToSkip? w).isNone with
    | _ :: _ :: extra :: _ => r.extraOperand extra
    | operands => uniqLines r p (operands.headD dash) operands[1]?

end JobShell.Programs
