/-
**Numbers of lines.**

A text has pages, each with a head, a body and a foot, which begin with lines that consist of marks.
Each of the three parts has a style that says which of its lines are numbered.

Main definitions:

* `JobShell.Programs.LineChoice` — which lines are numbered;
* `JobShell.Programs.Numbering` — how lines are numbered;
* `JobShell.Programs.Numbering.line` — what becomes of a line;
* `JobShell.Programs.nl` — the program.
-/

import JobShell.Programs.Size
import JobShell.Text.Regex.Notation

set_option autoImplicit false

namespace JobShell.Programs

/-- Which lines are numbered. -/
inductive LineChoice where
  | all
  /-- Those with text. -/
  | filled
  | none
  | matching (pattern : Regex)

/-- A part of a page. -/
inductive PagePart where
  | head
  | body
  | foot
  deriving DecidableEq, Repr, Inhabited

/-- How lines are numbered. -/
structure Numbering where
  choice : PagePart → LineChoice
  first : Int
  step : Int
  /-- Numbers start over with each page. -/
  restarts : Bool
  /-- Of so many lines without text one is numbered. -/
  joined : Nat
  separator : Bytes
  width : Nat
  /-- Lays out a number in a field of the width. -/
  layout : Nat → Int → Bytes
  /-- The two bytes of which marks consist. -/
  marks : Bytes

namespace Numbering

/-- Where the numbering is in a text. -/
structure Progress where
  part : PagePart := .body
  next : Int
  /-- How many lines without text wait for the one that is numbered. -/
  blanks : Nat := 0

/-- The part that a line of marks begins. -/
def partOf? (n : Numbering) (line : Bytes) : Option PagePart :=
  if n.marks.length < 2 then none
  else if line = n.marks ++ n.marks ++ n.marks then some .head
  else if line = n.marks ++ n.marks then some .body
  else if line = n.marks then some .foot
  else none

/-- Whether an expression has a match in a line. -/
def occurs (r : Regex) : Option UInt8 → Bytes → Bool
  | before, [] => (r.longest? { before := before, rest := [] }).isSome
  | before, c :: line => (r.longest? { before := before, rest := c :: line }).isSome || occurs r (some c) line

/-- Whether a line is numbered, and how many lines without text wait then. -/
def chooses (n : Numbering) (s : Progress) (line : Bytes) : Bool × Nat :=
  match n.choice s.part with
  | .all =>
    if n.joined ≤ 1 then (true, s.blanks)
    else if line ≠ [] ∨ s.blanks + 1 = n.joined then (true, 0)
    else (false, s.blanks + 1)
  | .filled => (line ≠ [], s.blanks)
  | .none => (false, s.blanks)
  | .matching r => (occurs r Option.none line, s.blanks)

/-- What becomes of a line. -/
def line (n : Numbering) (s : Progress) (line : Bytes) : Progress × Bytes :=
  match n.partOf? line with
  | some part =>
    ({ s with part := part, next := if part = .head ∧ n.restarts then n.first else s.next }, [])
  | Option.none =>
    let (numbered, blanks) := n.chooses s line
    if numbered then
      ({ s with next := s.next + n.step, blanks := blanks },
        n.layout n.width s.next ++ n.separator ++ line)
    else
      ({ s with blanks := blanks },
        List.replicate (n.width + n.separator.length) 32 ++ line)

/-- What becomes of several lines. -/
def lines (n : Numbering) : Progress → List Bytes → Progress × List Bytes
  | s, [] => (s, [])
  | s, text :: rest =>
    let (s, out) := n.line s text
    let (s, more) := n.lines s rest
    (s, out :: more)

/-- A number with zeros in front. -/
def zeroed (width : Nat) (n : Int) : Bytes :=
  let digits := Bytes.ofNat n.natAbs
  let sign : Bytes := if n < 0 then [45] else []
  sign ++ List.replicate (width - sign.length - digits.length) 48 ++ digits

/-- Reads the style of a part. -/
def readChoice (r : Request) (letter : Char) (part : String) (otherwise : LineChoice) :
    Except Objection LineChoice :=
  match r.argument? letter with
  | none => .ok otherwise
  | some text =>
    let bad : Except Objection LineChoice :=
      .error (.misuse (utf8 ("invalid " ++ part ++ " numbering style: ") ++ Quoted.escaped text))
    match text with
    | 112 :: pattern =>
      match Regex.ofBasic pattern with
      | .ok e => .ok (.matching e)
      | .error mistake => .error (.plain (utf8 mistake.message))
    | c :: _ =>
      if c = 97 then .ok .all
      else if c = 116 then .ok .filled
      else if c = 110 then .ok .none
      else bad
    | [] => bad

/-- Reads the layout of numbers. -/
def readLayout (text : Bytes) : Except Objection (Nat → Int → Bytes) :=
  if text = utf8 "ln" then .ok fun width n => padRight width (ofInt n)
  else if text = utf8 "rn" then .ok fun width n => padLeft width (ofInt n)
  else if text = utf8 "rz" then .ok zeroed
  else .error (.misuse (utf8 "invalid line numbering format: " ++ Quoted.escaped text))

/-- Reads the bytes of which marks consist.  A single byte replaces the first of them. -/
def readMarks (text : Bytes) : Bytes :=
  match text with
  | [c] => [c, 58]
  | text => text

/-- Reads the options of `nl`. -/
def ofRequest (r : Request) : Except Objection Numbering := do
  let whole (letter : Char) (what : String) (lo hi otherwise : Int) : Except Objection Int :=
    match r.argument? letter with
    | some text => wholeOr "" what lo hi text
    | none => .ok otherwise
  let most : Int := twoTo 63 - 1
  let head ← readChoice r 'h' "header" .none
  let body ← readChoice r 'b' "body" .filled
  let foot ← readChoice r 'f' "footer" .none
  let first ← whole 'v' "invalid starting line number" (-most - 1) most 1
  let step ← whole 'i' "invalid line number increment" (-most - 1) most 1
  let joined ← whole 'l' "invalid line number of blank lines" 1 most 1
  let width ← whole 'w' "invalid line number field width" 1 (twoTo 31 - 1) 6
  let layout ← readLayout ((r.argument? 'n').getD (utf8 "rn"))
  return { choice := fun part => match part with
             | .head => head
             | .body => body
             | .foot => foot
           first := first
           step := step
           restarts := !r.has 'p'
           joined := joined.toNat
           separator := (r.argument? 's').getD [9]
           width := width.toNat
           layout := layout
           marks := readMarks ((r.argument? 'd').getD (utf8 "\\:")) }

end Numbering

/-- Writes the lines of files with numbers. -/
def nl (r : Request) : Prog Nat := do
  match Numbering.ofRequest r with
  | .error objection => r.object 1 objection
  | .ok n =>
    let (_, ok) ← r.forEachLine newline (fun s lines => do
      let (s, out) := n.lines s (lines.map (chompAt newline))
      say (unlines out)
      return s) ({ next := n.first } : Numbering.Progress)
    return codeOf ok

end JobShell.Programs
