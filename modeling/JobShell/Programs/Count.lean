/-
**Counting lines, words and bytes.**

Main definitions:

* `JobShell.Programs.Counts` — what is counted of a text;
* `JobShell.Programs.wc` — the program.
-/

import JobShell.Programs.Request

set_option autoImplicit false

namespace JobShell.Programs

/-- What is counted of a text. -/
structure Counts where
  lines : Nat := 0
  words : Nat := 0
  bytes : Nat := 0
  /-- The width of the widest line. -/
  widest : Nat := 0
  inWord : Bool := false
  /-- The width of the last line so far. -/
  column : Nat := 0

namespace Counts

/-- The column after a byte. -/
def nextColumn (column : Nat) (c : UInt8) : Nat :=
  if c = newline ∨ c = 12 ∨ c = 13 then 0
  else if c = 9 then column + (8 - column % 8)
  else if Quoted.isPrintable c then column + 1
  else column

/-- Counts one byte on.  A byte that cannot be printed neither begins nor ends a word. -/
def step (k : Counts) (c : UInt8) : Counts :=
  let gap := c = 32 || (9 ≤ c && c ≤ 13)
  let begins := !k.inWord && !gap && Quoted.isPrintable c
  let column := nextColumn k.column c
  { lines := if c = newline then k.lines + 1 else k.lines
    words := if begins then k.words + 1 else k.words
    bytes := k.bytes + 1
    widest := max k.widest column
    inWord := (k.inWord && !gap) || begins
    column := column }

/-- Counts on. -/
def add (k : Counts) (bytes : Bytes) : Counts := bytes.foldl step k

/-- The counts of two texts together. -/
def total (a b : Counts) : Counts :=
  { lines := a.lines + b.lines
    words := a.words + b.words
    bytes := a.bytes + b.bytes
    widest := max a.widest b.widest }

/-- The counts that options ask for, in their order. -/
def columns (r : Request) (k : Counts) : List Nat :=
  let all := !(r.has 'l' || r.has 'w' || r.has 'm' || r.has 'c' || r.has 'L')
  (if all || r.has 'l' then [k.lines] else [])
    ++ (if all || r.has 'w' then [k.words] else [])
    ++ (if r.has 'm' then [k.bytes] else [])
    ++ (if all || r.has 'c' then [k.bytes] else [])
    ++ (if r.has 'L' then [k.widest] else [])

/-- One line of counts. -/
def line (r : Request) (width : Nat) (label : Option Bytes) (k : Counts) : Bytes :=
  Bytes.join 32 ((k.columns r).map fun n => padLeft width (Bytes.ofNat n))
    ++ (match label with
      | some name => 32 :: name
      | none => []) ++ [newline]

end Counts

/-- When counts are added up. -/
inductive Totals where
  /-- For several files. -/
  | several
  | always
  /-- Nothing else is written. -/
  | only
  | never
  deriving DecidableEq, Repr, Inhabited

/-- When the options want counts to be added up. -/
def Totals.ofRequest (r : Request) : Except Objection Totals :=
  match r.wordArgument? "total" with
  | none => .ok .several
  | some text =>
    chooseWord "--total"
      [("auto", .several), ("always", .always), ("only", .only), ("never", .never)] text

/-- The size of the file of an operand: `none` in place of a file that has no size, and nothing for
one that is not there. -/
def sizeOf? (operand : Bytes) : Prog (Option (Option Nat)) := do
  let status ← if operand = dash then do
      match ← Prog.ask (.statusOf 0) with
      | .ok (some status) => pure (some (some status))
      | _ => pure (some none)
    else do
      match ← Prog.ask (.status operand true) with
      | .ok status => pure (some (some status))
      | .error _ => pure none
  return status.map fun status => status.bind fun status =>
    match status.content with
    | .file data => some data.length
    | _ => none

/-- The width of a column of counts: that of the sum of the sizes, but no less than 7 if some file
has no size.  A single number stands alone. -/
def countWidth (r : Request) : Prog Nat := do
  if r.operands.length ≤ 1 ∧ (Counts.columns r {}).length = 1 then return 1
  let sizes ← r.inputs.mapM sizeOf?
  let sizes := sizes.filterMap id
  let width := (Nat.repr (total (sizes.map (·.getD 0)))).length
  return if sizes.any (·.isNone) then max 7 width else width

/-- Counts lines, words and bytes. -/
def wc (r : Request) : Prog Nat := do
  match Totals.ofRequest r with
  | .error objection => r.object 1 objection
  | .ok totals =>
    let width ← if totals = .only then pure 1 else countWidth r
    let write (label : Option Bytes) (k : Counts) : Prog Unit := do
      if totals ≠ .only then say (k.line r width label)
    let count (state : Counts × Bool) (operand : Bytes) : Prog (Counts × Bool) := do
      let (total, ok) := state
      let result ← withOperand operand fun fd =>
        forEachBlock fd copySize (fun k bytes => return (k.add bytes, false)) ({} : Counts)
      let label := if r.operands = [] then none else some (Quoted.plainForShell operand)
      match result with
      | .ok (.ok k) =>
        write label k
        return (total.total k, ok)
      | .ok (.error errno) =>
        r.complainOf (label.getD (Quoted.forShell (utf8 "standard input"))) errno
        write label {}
        return (total, false)
      | .error errno =>
        r.blame operand errno
        return (total, false)
    let (total, ok) ← r.inputs.foldlM count ({}, true)
    match totals with
    | .several => if 1 < r.operands.length then write (some (utf8 "total")) total
    | .always => write (some (utf8 "total")) total
    | .only => say (total.line r width none)
    | .never => pure ()
    return codeOf ok

end JobShell.Programs
