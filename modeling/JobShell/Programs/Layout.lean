/-
**The layout of lines.**

Main definitions:

* `JobShell.Programs.fold` — breaking lines that are too long;
* `JobShell.Programs.TabStops` — the columns to which tabs lead;
* `JobShell.Programs.expand`, `JobShell.Programs.unexpand` — blanks for tabs, and tabs for blanks.
-/

import JobShell.Programs.Size
import JobShell.Text.Collation

set_option autoImplicit false

namespace JobShell.Programs

open Collation (isBlank)

/-! ### Breaking lines -/

/-- How lines are broken. -/
structure Folding where
  width : Nat
  /-- Each byte takes a column. -/
  bytes : Bool
  /-- Lines are broken after a blank if there is one. -/
  atBlanks : Bool

namespace Folding

/-- The column after a byte. -/
def advance (f : Folding) (column : Nat) (c : UInt8) : Nat :=
  if f.bytes then column + 1
  else if c = 8 then column - 1
  else if c = 13 then 0
  else if c = 9 then column + (8 - column % 8)
  else column + 1

/-- The column after some bytes. -/
def columnOf (f : Folding) (s : Bytes) : Nat := s.foldl f.advance 0

/-- A line in the making, in reverse, up to and with its last blank, and what comes after that. -/
def cutAtBlank (begun : Bytes) : Option (Bytes × Bytes) :=
  let after := begun.takeWhile fun c => !isBlank c
  match begun.drop after.length with
  | [] => none
  | front => some (front, after)

/-- Breaks a line.  What has been made of the current piece is given in reverse, with its column; the
number bounds the steps. -/
def line (f : Folding) : Nat → Bytes → Nat → Bytes → List Bytes
  | 0, begun, _, _ => [begun.reverse]
  | _, begun, _, [] => [begun.reverse]
  | n + 1, begun, column, c :: rest =>
    let next := f.advance column c
    if next ≤ f.width then line f n (c :: begun) next rest
    else
      match (if f.atBlanks then cutAtBlank begun else none) with
      | some (front, after) =>
        front.reverse :: line f n after (f.columnOf after.reverse) (c :: rest)
      | none =>
        if begun = [] then line f n [c] next rest
        else begun.reverse :: line f n [] 0 (c :: rest)

/-- Reads the options of `fold`. -/
def ofRequest (r : Request) : Except Objection Folding := do
  let most : Nat := twoTo 64 - 10
  let width ← r.options.foldlM (fun width o =>
    match o with
    | (.letter 'w', text) => countOr "" "invalid number of columns" 1 most text
    | (.letter c, more) =>
      if c.isDigit then countOr "" "invalid number of columns" 1 most (c.toUInt8 :: more)
      else .ok width
    | _ => .ok width) 80
  return { width := width, bytes := r.has 'b', atBlanks := r.has 's' }

end Folding

/-- Breaks lines that are too long. -/
def fold (r : Request) : Prog Nat := do
  match Folding.ofRequest r with
  | .error objection => r.object 1 objection
  | .ok f =>
    let (_, ok) ← r.forEachLine newline (fun () lines =>
      say (lines.flatMap fun line =>
        let text := chompAt newline line
        Bytes.join newline (f.line (3 * text.length + 3) [] 0 text)
          ++ if text.length < line.length then [newline] else [])) ()
    return codeOf ok

/-! ### Tab stops -/

/-- What stands after the last of some columns. -/
inductive FurtherStops where
  | nothing
  /-- Multiples of a number. -/
  | multiples (size : Nat)
  /-- Steps of a size from the last column on. -/
  | steps (size : Nat)
  deriving DecidableEq, Repr, Inhabited

/-- The columns to which tabs lead, and what comes after them. -/
structure TabStops where
  columns : List Nat := []
  further : FurtherStops := .nothing
  deriving DecidableEq, Repr, Inhabited

namespace TabStops

/-- What has been read of a list of tab stops. -/
structure Reading where
  stops : TabStops := {}
  /-- The number that is being read. -/
  number : Option Nat := none
  /-- The mark that stands before it. -/
  mark : Option UInt8 := none
  /-- Both marks have been used. -/
  mixed : Bool := false

/-- The complaint about a mark. -/
def markComplaint (mark : UInt8) (text : Bytes) : Bytes := Refusal.shown [mark] ++ text

/-- Takes a number that is complete to the tab stops. -/
def Reading.complete (s : Reading) : Except Bytes Reading := do
  match s.number with
  | none => return s
  | some n =>
    let used : Option UInt8 := match s.stops.further with
      | .multiples (_ + 1) => some 47
      | .steps (_ + 1) => some 43
      | _ => none
    match s.mark with
    | none =>
      return { s with stops := { s.stops with columns := s.stops.columns ++ [n] }, number := none }
    | some mark =>
      if used = some mark then
        throw (markComplaint mark (utf8 " specifier only allowed with the last value"))
      let further := if mark = 47 then .multiples n else .steps n
      return { s with
        stops := { s.stops with further := further }
        number := none
        mixed := s.mixed || used.isSome }

/-- Reads a list of tab stops. -/
def readOn : Reading → Bytes → Except Bytes Reading
  | s, [] => s.complete
  | s, c :: rest => do
    if c = 44 ∨ isBlank c then readOn (← s.complete) rest
    else if c = 47 ∨ c = 43 then
      if s.number.isSome then
        throw (markComplaint c (utf8 " specifier not at start of number: "
          ++ Quoted.escaped (c :: rest)))
      readOn { s with mark := some c } rest
    else
      match digit? c with
      | some d =>
        let n := s.number.getD 0 * 10 + d
        if sizeLimit ≤ n then
          let digits := Bytes.ofNat (s.number.getD 0)
            ++ (c :: rest).takeWhile fun c => (digit? c).isSome
          throw (utf8 "tab stop is too large " ++ Quoted.escaped digits)
        readOn { s with number := some n } rest
      | none =>
        throw (utf8 "tab size contains invalid character(s): " ++ Quoted.escaped (c :: rest))

/-- Demands that tab stops follow one another. -/
def validate (s : Reading) : Except Bytes TabStops := do
  let follows (before : Nat) (n : Nat) : Except Bytes Nat :=
    if n = 0 then .error (utf8 "tab size cannot be 0")
    else if n ≤ before then .error (utf8 "tab sizes must be ascending")
    else .ok n
  let _ ← s.stops.columns.foldlM follows 0
  if s.mixed then
    throw (utf8 "'/' specifier is mutually exclusive with '+'")
  return match s.stops with
    | { columns := [], further := .steps (n + 1) } => { columns := [], further := .multiples (n + 1) }
    | { columns := [], further := .multiples (n + 1) } =>
      { columns := [], further := .multiples (n + 1) }
    | { columns := [], .. } => { columns := [], further := .multiples 8 }
    | { columns := [n], further := .nothing } => { columns := [], further := .multiples n }
    | stops => stops

/-- The column to which a tab leads; nothing beyond the last tab stop. -/
def next? (t : TabStops) (column : Nat) : Option Nat :=
  match t.columns.find? (column < ·) with
  | some stop => some stop
  | none =>
    match t.further with
    | .multiples (n + 1) => some (column + (n + 1 - column % (n + 1)))
    | .steps (n + 1) =>
      some (column + (n + 1 - (column - t.columns.getLastD 0) % (n + 1)))
    | _ => none

end TabStops

/-! ### Blanks for tabs -/

/-- Where a text is that is copied with other blanks. -/
structure BlankState where
  column : Nat := 0
  /-- Tabs and blanks are still replaced on this line. -/
  active : Bool := true
  /-- Blanks that may be replaced. -/
  pending : Bytes := []
  /-- The first of these blanks stands just before a tab stop. -/
  beforeStop : Bool := false
  /-- The byte before is a blank, or there is none on the line. -/
  afterBlank : Bool := true

/-- What becomes of a byte when tabs are replaced by blanks. -/
def expandByte (t : TabStops) (whole : Bool) (s : BlankState) (c : UInt8) : BlankState × Bytes :=
  if c = newline then ({}, [c])
  else if s.active = false then (s, [c])
  else
    let active := whole || isBlank c
    if c = 9 then
      let stop := (t.next? s.column).getD (s.column + 1)
      ({ s with column := stop, active := active }, List.replicate (stop - s.column) 32)
    else if c = 8 then ({ s with column := s.column - 1, active := active }, [c])
    else ({ s with column := s.column + 1, active := active }, [c])

/-- The blanks that have been held back. -/
def BlankState.flush (s : BlankState) : Bytes :=
  match s.pending with
  | _ :: c :: rest => if s.beforeStop then 9 :: c :: rest else s.pending
  | pending => pending

/-- What becomes of a byte when blanks are replaced by tabs. -/
def unexpandByte (t : TabStops) (whole : Bool) (s : BlankState) (c : UInt8) :
    BlankState × Bytes :=
  let write (s : BlankState) (c : UInt8) (column : Nat) : BlankState × Bytes :=
    if c = newline then ({}, s.flush ++ [c])
    else
      ({ column := column
         active := s.active && (whole || isBlank c)
         afterBlank := isBlank c }, s.flush ++ [c])
  if s.active = false then if c = newline then ({}, [c]) else (s, [c])
  else if isBlank c then
    match t.next? s.column with
    | none => write { s with active := false } c s.column
    | some stop =>
      let kept := if s.beforeStop then [9] else []
      if c = 9 then write { s with pending := kept } 9 stop
      else
        let column := s.column + 1
        if s.afterBlank ∧ column = stop then
          write { s with pending := kept } 9 column
        else
          ({ s with
             column := column
             beforeStop := s.beforeStop || column = stop
             pending := s.pending ++ [c]
             afterBlank := true }, [])
  else if c = 8 then write s c (s.column - 1)
  else write s c (s.column + 1)

/-- Copies files byte by byte, with a state. -/
def copyBytes (r : Request) (step : BlankState → UInt8 → BlankState × Bytes) : Prog Nat := do
  let (s, ok) ← r.forEachInput (fun s fd => forEachBlock fd blockSize (fun s bytes => do
      let (s, out) := bytes.foldl (fun (s, out) c =>
        let (s, piece) := step s c
        (s, piece.reverse ++ out)) (s, [])
      say out.reverse
      return (s, false)) s) ({} : BlankState)
  say s.flush
  return codeOf ok

/-- Runs a function on the tab stops that texts list one after another. -/
def withTabStops (r : Request) (lists : List Bytes) (body : TabStops → Prog Nat) : Prog Nat := do
  let read := lists.foldlM (fun (s : TabStops.Reading) text =>
    TabStops.readOn { s with mark := none } text) {}
  match read >>= TabStops.validate with
  | .ok stops => body stops
  | .error text =>
    r.complain text
    return 1

/-- Copies files with blanks in place of tabs. -/
def expand (r : Request) : Prog Nat :=
  let lists := r.options.filterMap fun o => match o with
    | (.letter 't', text) => some text
    | (.letter c, more) => if c.isDigit then some (c.toUInt8 :: more) else none
    | _ => none
  withTabStops r lists fun stops => copyBytes r (expandByte stops (!r.has 'i'))

/-- Copies files with tabs in place of blanks. -/
def unexpand (r : Request) : Prog Nat :=
  let short := r.options.filterMap fun o => match o with
    | (.letter c, _) => if c.isDigit ∨ c = ',' then some c.toUInt8 else none
    | _ => none
  let whole := (r.has 'a' || r.has 't') && !r.hasWord "first-only"
  withTabStops r (r.arguments 't' ++ [short]) fun stops => copyBytes r (unexpandByte stops whole)

end JobShell.Programs
