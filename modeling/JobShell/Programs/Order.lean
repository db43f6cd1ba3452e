/-
**Programs that change the order of lines.**

Main definitions:

* `JobShell.Programs.sort` — writing lines in order;
* `JobShell.Programs.tac` — writing them in the reverse order.
-/

import JobShell.Programs.Keys
import JobShell.Text.Regex.Notation

set_option autoImplicit false

namespace JobShell.Programs

/-! ### In order -/

/-- Leaves out elements that equal the one kept before them. -/
def dropRepeats {α : Type} (same : α → α → Bool) : List α → List α
  | [] => []
  | [a] => [a]
  | a :: b :: rest =>
    if same a b then dropRepeats same (a :: rest) else a :: dropRepeats same (b :: rest)
termination_by xs => xs.length

/-- The lines of each operand; `none` if one cannot be read. -/
def gatherLines (r : Request) (mark : UInt8) : List Bytes → Prog (Option (List (List Bytes)))
  | [] => return some []
  | operand :: rest => do
    let fail (what : String) (e : Errno) : Prog (Option (List (List Bytes))) := do
      r.complainOf (utf8 what ++ Quoted.plainForShell operand) e
      return none
    match ← withOperand operand readAll with
    | .ok (.ok text) =>
      match ← gatherLines r mark rest with
      | some files => return some ((text.cutAfter mark).map (chompAt mark) :: files)
      | none => return none
    | .ok (.error errno) => fail "read failed: " errno
    | .error errno => fail "open failed: " errno

/-- Whether all operands may be read; the first that may not is complained about. -/
def mayRead (r : Request) : List Bytes → Prog Bool
  | [] => return true
  | operand :: rest => do
    if operand = dash then mayRead r rest
    else
      match ← Prog.ask (.access operand .read) with
      | .ok () => mayRead r rest
      | .error errno =>
        r.complainOf (utf8 "cannot read: " ++ Quoted.plainForShell operand) errno
        return false

/-- The first line that must not follow the one before it, with its number. -/
def firstDisorder (fits : Bytes → Bytes → Bool) : Nat → List Bytes → Option (Nat × Bytes)
  | n, a :: b :: rest => if fits a b then firstDisorder fits (n + 1) (b :: rest) else some (n + 1, b)
  | _, _ => none

/-- Whether disorder is looked for, and whether it is told of. -/
def checking? (r : Request) : Except Objection (Option Bool) :=
  let words := [("quiet", false), ("silent", false), ("diagnose-first", true)]
  r.options.foldlM (fun before o => do
    let chosen ← match o with
      | (.letter 'c', _) | (.word "check", []) => pure (some true)
      | (.letter 'C', _) => pure (some false)
      | (.word "check", text) => (chooseWord "--check" words text).map some
      | _ => pure none
    match before, chosen with
    | some a, some b => if a = b then return before else throw (Sorting.incompatible (utf8 "cC"))
    | before, chosen => return chosen.or before) none

/-- Says whether a file is in order. -/
def checkOrder (r : Request) (s : Sorting) (mark : UInt8) (tells : Bool) (operand : Bytes) :
    Prog Nat := do
  let fits (a b : Bytes) : Bool :=
    if r.has 'u' then s.compare a b == .lt else s.before a b
  match ← gatherLines r mark [operand] with
  | none => return 2
  | some files =>
    match firstDisorder fits 1 files.flatten with
    | none => return 0
    | some (n, line) =>
      if tells then
        r.complain (operand ++ 58 :: Bytes.ofNat n ++ utf8 ": disorder: " ++ line)
      return 1

/-- Opens the file for the output without changing it yet. -/
def openTarget (path : Bytes) : Prog (Except Errno Nat) :=
  Prog.ask (.openPath path { write := true, create := true } 0o666)

/-- Writes the lines of files in order. -/
def sortFiles (r : Request) (s : Sorting) (mark : UInt8) (target : Option Bytes) : Prog Nat := do
  if (← mayRead r r.inputs) = false then return 2
  let fd : Except Errno Nat ← match target with
    | none => pure (.ok 1)
    | some path => openTarget path
  match fd with
  | .error errno =>
    r.complainOf (utf8 "open failed: " ++ Quoted.plainForShell (target.getD [])) errno
    return 2
  | .ok fd =>
    match ← gatherLines r mark r.inputs with
    | none => return 2
    | some files =>
      let sorted :=
        if r.has 'm' then files.foldl (fun done lines => List.merge done lines s.before) []
        else files.flatten.mergeSort s.before
      let kept :=
        if r.has 'u' then dropRepeats (fun a b => s.compare a b == .eq) sorted else sorted
      if target.isSome then
        let _ ← Prog.ask (.resize fd 0)
      let _ ← emit fd (endLines mark kept)
      return 0

/-- What makes the options of `sort` senseless together. -/
def sortObjection? (r : Request) (checks : Option Bool) : Option Objection :=
  let letter : UInt8 := if checks = some true then 99 else 67
  match r.arguments 'o', checks, r.operands with
  | first :: rest, none, _ =>
    if rest.any (· ≠ first) then some (.plain (utf8 "multiple output files specified")) else none
  | _, some _, _ :: extra :: _ =>
    some (.plain (utf8 "extra operand " ++ Quoted.escaped extra ++ utf8 " not allowed with -"
      ++ [letter]))
  | _ :: _, some _, _ => some (Sorting.incompatible [letter, 111])
  | _, _, _ => none

/-- Writes the lines of files in order, or checks their order. -/
def sort (r : Request) : Prog Nat := do
  let mark := if r.has 'z' then nul else newline
  match Sorting.ofRequest r, checking? r with
  | .error objection, _ | _, .error objection => r.object 2 objection
  | .ok s, .ok checks =>
    match sortObjection? r checks, checks with
    | some objection, _ => r.object 2 objection
    | none, some tells => checkOrder r s mark tells (r.inputs.headD dash)
    | none, none => sortFiles r s mark (r.argument? 'o')

/-! ### In the reverse order -/

/-- Finds the last match of an expression in a text that is given in reverse: how many bytes come
after it, and its length.  `after` counts the bytes that have been passed. -/
def lastMatch? (e : Regex) (after : Bytes) : Bytes → Option (Nat × Nat)
  | [] => none
  | c :: reversed =>
    let after := c :: after
    match (e.lengths { before := reversed.head?, rest := after }).max? with
    | some n => some (after.length - n, n)
    | none => lastMatch? e after reversed

/-- Cuts a text at the matches of an expression, from the end; `before` says that a piece begins with
a match, and does not end with it.  The pieces come from the last to the first.  The number bounds the
steps. -/
def cutAtMatches (e : Regex) (before : Bool) : Nat → Bytes → Bytes → List Bytes
  | 0, text, kept => [text ++ kept]
  | n + 1, text, kept =>
    match lastMatch? e [] text.reverse with
    | none => [text ++ kept]
    | some (after, length) =>
      let stop := text.length - after
      let start := stop - length
      let front := text.take start
      let separator := (text.take stop).drop start
      let piece := text.drop stop ++ kept
      if before then (separator ++ piece) :: cutAtMatches e before n front []
      else piece :: cutAtMatches e before n front separator

/-- The text with its pieces from the last to the first. -/
def turnedRound (e : Option Regex) (before : Bool) (text : Bytes) : Bytes :=
  match e with
  | none => (if before then
      (Bytes.cutAfter newline text.reverse).map List.reverse
    else text.lines.reverse).flatten
  | some e => (cutAtMatches e before (text.length + 1) text []).flatten

/-- Writes the lines of files from the last to the first. -/
def tac (r : Request) : Prog Nat := do
  let separator := (r.argument? 's').getD [newline]
  let expression : Except Regex.Mistake (Option Regex) :=
    if r.has 'r' then (Regex.ofBasic separator).map some
    else if separator = [newline] then .ok none
    else .ok (some (Regex.ofFixed (if separator = [] then [nul] else separator)))
  match expression with
  | .error mistake =>
    r.complain (utf8 mistake.message)
    return 1
  | .ok expression =>
    if r.has 'r' ∧ separator = [] then
      r.complain (utf8 "separator cannot be empty")
      return 1
    else
      codeOf <$> forEach r.inputs fun operand => do
        match ← withOperand operand readAll with
        | .ok (.ok text) =>
          say (turnedRound expression (r.has 'b') text)
          return true
        | .ok (.error errno) =>
          let label := if operand = dash then Quoted.forShell (utf8 "standard input")
            else Quoted.plainForShell operand
          r.complainOf (label ++ utf8 ": read error") errno
          return false
        | .error errno =>
          r.complainOf (utf8 "failed to open " ++ Quoted.forShell operand ++ utf8 " for reading")
            errno
          return false

end JobShell.Programs
