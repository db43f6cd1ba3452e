/-
**Parts of lines.**

Main definitions:

* `JobShell.Programs.Selection` — numbers that are chosen, as a list of ranges;
* `JobShell.Programs.cut` — keeping some bytes or fields of each line;
* `JobShell.Programs.paste` — joining lines.
-/

import JobShell.Programs.Request

set_option autoImplicit false

namespace JobShell.Programs

/-! ### Choosing -/

/-- Ranges of numbers, in order, each from one number on and perhaps up to another. -/
abbrev Selection := List (Nat × Option Nat)

namespace Selection

/-- Whether a number is chosen. -/
def covers (s : Selection) (n : Nat) : Bool :=
  s.any fun (lo, hi) => lo ≤ n && n ≤ hi.getD n

/-- Whether a range begins with a number. -/
def startsAt (s : Selection) (n : Nat) : Bool := s.any (·.1 = n)

/-- Chooses elements of a list by their numbers, counted from 1. -/
def pick {α : Type} (s : Selection) (xs : List α) : List α :=
  ((xs.zip (List.range xs.length)).filter fun (_, i) => s.covers (i + 1)).map (·.1)

/-- What the numbers are of. -/
structure Matter where
  /-- They are numbers of fields, and not of bytes. -/
  fields : Bool

namespace Matter

/-- The complaint about a zero. -/
def zero (m : Matter) : Bytes :=
  utf8 ((if m.fields then "fields" else "byte/character positions") ++ " are numbered from 1")

/-- The complaint about a number that is none. -/
def invalid (m : Matter) (text : Bytes) : Bytes :=
  utf8 (if m.fields then "invalid field value " else "invalid byte/character position ")
    ++ Quoted.escaped text

/-- The complaint about a number that does not fit. -/
def tooLarge (m : Matter) (digits : Bytes) : Bytes :=
  utf8 (if m.fields then "field number " else "byte/character offset ")
    ++ Quoted.escaped digits ++ utf8 " is too large"

/-- The complaint about a second dash. -/
def notRange (m : Matter) : Bytes :=
  utf8 (if m.fields then "invalid field range" else "invalid byte or character range")

end Matter

/-- Greater numbers do not fit. -/
def limit : Nat := twoTo 64 - 1

/-- Reads a number up to the end of a range, or to its dash. -/
def bound (m : Matter) (text : Bytes) : Except Bytes (Option Nat × Bytes) :=
  let (value, used) := digitsInFront 10 digit? text.length text
  if used = 0 then .ok (none, text)
  else if limit < value then .error (m.tooLarge (text.take used))
  else .ok (some value, text.drop used)

/-- Demands that nothing follows a number. -/
def atEnd (m : Matter) (rest : Bytes) : Except Bytes Unit :=
  match rest with
  | [] => .ok ()
  | 45 :: _ => .error m.notRange
  | _ => .error (m.invalid rest)

/-- Reads one range; `whole` is the text from there on. -/
def range (m : Matter) (text after : Bytes) : Except Bytes (Nat × Option Nat) := do
  let complete (e : Except Bytes Unit) (rest : Bytes) : Except Bytes Unit :=
    match e, rest with
    | .error _, c :: _ => if c = 45 then .error m.notRange else .error (m.invalid (rest ++ after))
    | e, _ => e
  let (lo, rest) ← bound m text
  match rest with
  | 45 :: rest =>
    if lo = some 0 then throw m.zero
    let (hi, rest) ← bound m rest
    complete (atEnd m rest) rest
    match lo, hi with
    | none, none => throw (utf8 "invalid range with no endpoint: -")
    | some lo, none => return (lo, none)
    | lo, some hi =>
      if hi < lo.getD 1 then throw (utf8 "invalid decreasing range")
      else return (lo.getD 1, some hi)
  | rest =>
    complete (atEnd m rest) rest
    match lo with
    | some (n + 1) => return (n + 1, some (n + 1))
    | _ => throw m.zero

/-- Reads ranges that stand apart by commas and blanks. -/
def readAll (m : Matter) : List Bytes → Except Bytes Selection
  | [] => .ok []
  | text :: rest => do
    let first ← range m text (rest.flatMap fun text => 44 :: text)
    return first :: (← readAll m rest)

/-- Unites ranges that overlap; they come in order of their beginnings. -/
def merge : Selection → Selection
  | (lo, hi) :: (lo', hi') :: rest =>
    if hi.all (lo' ≤ ·) then
      merge ((lo, hi.bind fun h => hi'.map (max h)) :: rest)
    else (lo, hi) :: merge ((lo', hi') :: rest)
  | s => s
termination_by s => s.length

/-- The numbers that are not chosen, from one on. -/
def complement : Nat → Selection → Selection
  | next, [] => [(next, none)]
  | next, (lo, hi) :: rest =>
    (if next < lo then [(next, some (lo - 1))] else []) ++ match hi with
      | none => []
      | some hi => complement (hi + 1) rest

/-- Reads the numbers that a text chooses, or does not choose. -/
def read (m : Matter) (inverted : Bool) (text : Bytes) : Except Bytes Selection := do
  let isGap (c : UInt8) : Bool := c = 44 || c = 32 || c = 9
  let ranges ← readAll m (Bytes.splitAt 44 (text.map fun c => if isGap c then 44 else c))
  let merged := merge (ranges.mergeSort fun a b => a.1 ≤ b.1)
  return if inverted then complement 1 merged else merged

end Selection

/-! ### Keeping some -/

/-- Which parts of lines are kept. -/
structure Cutting where
  chosen : Selection
  /-- The byte between fields, if fields are chosen and not bytes. -/
  delimiter : Option UInt8
  /-- What is written between the parts. -/
  between : Option Bytes
  /-- Lines without a delimiter are left out. -/
  onlyDelimited : Bool
  /-- The byte that ends lines. -/
  mark : UInt8

namespace Cutting

/-- The byte that a text of one byte is; none at all stands for a null byte. -/
def single? (text : Bytes) : Option UInt8 :=
  match text with
  | [] => some nul
  | [c] => some c
  | _ => none

/-- Reads the options of `cut`. -/
def ofRequest (r : Request) : Except Bytes Cutting := do
  let lists := r.options.filter fun o =>
    o.1 = .letter 'b' || o.1 = .letter 'c' || o.1 = .letter 'f'
  let delimiter ← match r.argument? 'd' with
    | none => pure none
    | some text => match single? text with
      | some c => pure (some c)
      | none => throw (utf8 "the delimiter must be a single character")
  if 1 < lists.length then throw (utf8 "only one list may be specified")
  let fields := r.has 'f'
  if fields = false ∧ lists ≠ [] then
    if delimiter.isSome then
      throw (utf8 "an input delimiter may be specified only when operating on fields")
    if r.has 's' then
      throw (utf8 "suppressing non-delimited lines makes sense\n\tonly when operating on fields")
  match lists with
  | [] => throw (utf8 "you must specify a list of bytes, characters, or fields")
  | (_, text) :: _ =>
    let chosen ← Selection.read { fields } (r.hasWord "complement") text
    return { chosen
             delimiter := if fields then some (delimiter.getD 9) else none
             between := (r.wordArgument? "output-delimiter").map fun text =>
               if text = [] then [nul] else text
             onlyDelimited := r.has 's'
             mark := if r.has 'z' then nul else newline }

/-- The chosen bytes of a line, with a text before each range but the first. -/
def bytesOf (c : Cutting) (line : Bytes) : Bytes :=
  match c.between with
  | none => c.chosen.pick line
  | some text =>
    let kept := c.chosen.pick (line.zip (List.range line.length))
    match kept with
    | [] => []
    | (b, _) :: rest =>
      b :: rest.flatMap fun (b, i) =>
        if c.chosen.startsAt (i + 1) then text ++ [b] else [b]

/-- What is kept of a line, if anything is written for it. -/
def apply (c : Cutting) (line : Bytes) : Option Bytes :=
  match c.delimiter with
  | none => some (c.bytesOf line)
  | some delimiter =>
    if line.contains delimiter then
      some (List.intercalate (c.between.getD [delimiter])
        (c.chosen.pick (Bytes.splitAt delimiter line)))
    else if c.onlyDelimited then none
    else some line

end Cutting

/-- Copies some bytes or fields of each line.  If the byte between fields is the one that ends lines,
a whole file is one line. -/
def cut (r : Request) : Prog Nat := do
  match Cutting.ofRequest r with
  | .error text => r.refuse text
  | .ok c =>
    if c.delimiter = some c.mark then
      r.forEachText fun text =>
        if text = [] then return ()
        else say (endLines c.mark (c.apply (chompAt c.mark text)).toList)
    else
      let (_, ok) ← r.forEachLine c.mark (fun () lines =>
        say (endLines c.mark (lines.filterMap fun line => c.apply (chompAt c.mark line)))) ()
      return codeOf ok

/-! ### Joining -/

/-- The bytes that a list of delimiters writes, `none` for no byte; nothing if a backslash stands at
its end. -/
def delimiters? : Bytes → Option (List (Option UInt8))
  | [92] => none
  | 92 :: c :: rest =>
    let byte := if c = 48 then none
      else some ((((utf8 "bfnrtv").zip [8, 12, 10, 13, 9, 11]).lookup c).getD c)
    (delimiters? rest).map (byte :: ·)
  | c :: rest => (delimiters? rest).map (some c :: ·)
  | [] => some []

/-- Joins texts with delimiters that are used in turn. -/
def joinInTurn (all : List (Option UInt8)) : List (Option UInt8) → List Bytes → Bytes
  | _, [] => []
  | _, [text] => text
  | [], text :: rest => text ++ (all.head?.join.toList) ++ joinInTurn all (all.drop 1) rest
  | d :: ds, text :: rest => text ++ d.toList ++ joinInTurn all ds rest

/-- The files of some operands, each with its content if it can be read; operands that name the
input share one content.  `none` if one cannot be opened. -/
def gatherTexts (r : Request) : List Bytes → Prog (Option (List (Except Errno Bytes)))
  | [] => return some []
  | operand :: rest => do
    let opened : Except Errno (Except Errno Bytes) ←
      if operand = dash then pure (.ok (.ok [])) else withOperand operand readAll
    match opened with
    | .error errno =>
      r.blame operand errno
      return none
    | .ok text =>
      match ← gatherTexts r rest with
      | some texts => return some (text :: texts)
      | none => return none

/-- The share of each of several operands in the lines of the input, which they take in turn. -/
def share (lines : List Bytes) (takers taker : Nat) : List Bytes :=
  ((lines.zip (List.range lines.length)).filter fun (_, i) => i % takers = taker).map (·.1)

/-- The columns of operands with their contents; those that could not be read are complained about
and empty. -/
def columnsOf (r : Request) (mark : UInt8) (input : Except Errno (List Bytes)) (takers : Nat) :
    Nat → List (Bytes × Except Errno Bytes) → Prog (List (List Bytes) × Bool)
  | _, [] => return ([], true)
  | taker, (operand, text) :: rest => do
    let isInput := operand = dash
    let lines := if isInput then input.map (share · takers taker)
      else text.map fun text => (text.cutAfter mark).map (chompAt mark)
    match lines with
    | .ok lines =>
      let (columns, ok) ← columnsOf r mark input takers (if isInput then taker + 1 else taker) rest
      return (lines :: columns, ok)
    | .error errno =>
      r.blame operand errno
      let (columns, _) ← columnsOf r mark input takers (if isInput then taker + 1 else taker) rest
      return ([] :: columns, false)

/-- Joins the lines at the same place of files. -/
def pasteAcross (r : Request) (mark : UInt8) (all : List (Option UInt8)) : Prog Nat := do
  match ← gatherTexts r r.inputs with
  | none => return 1
  | some texts =>
    let takers := (r.inputs.filter (· = dash)).length
    let input ← if takers = 0 then pure (.ok []) else readAll 0
    let input := input.map fun text => (text.cutAfter mark).map (chompAt mark)
    let (columns, ok) ← columnsOf r mark input takers 0 (r.inputs.zip texts)
    let height := (columns.map List.length).foldl max 0
    let rows := (List.range height).map fun i => columns.map fun column => (column[i]?).getD []
    say (endLines mark (rows.map (joinInTurn all all)))
    return codeOf ok

/-- Joins the lines of each file. -/
def pasteAlong (r : Request) (mark : UInt8) (all : List (Option UInt8)) : Prog Nat := do
  codeOf <$> forEach r.inputs fun operand => do
    match ← withOperand operand readAll with
    | .ok (.ok text) =>
      say (joinInTurn all all ((text.cutAfter mark).map (chompAt mark)) ++ [mark])
      return true
    | .ok (.error errno) =>
      say [mark]
      r.blame operand errno
      return false
    | .error errno =>
      r.blame operand errno
      return false

/-- Joins the lines of files: those at the same place, or all of one file. -/
def paste (r : Request) : Prog Nat := do
  let list := (r.argument? 'd').getD [9]
  match delimiters? (if list = [] then utf8 "\\0" else list) with
  | none =>
    r.complain (utf8 "delimiter list ends with an unescaped backslash: " ++ Quoted.besideColon list)
    return 1
  | some all =>
    let mark := if r.has 'z' then nul else newline
    if r.has 's' then pasteAlong r mark all else pasteAcross r mark all

end JobShell.Programs
