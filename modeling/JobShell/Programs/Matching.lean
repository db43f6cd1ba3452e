/-
**Files in order, side by side.**

Two files are in the same order, so that lines which belong together are found in one pass.  If they
turn out not to be in order, that is complained about once for each file; before some line has found no
partner, nothing is said about it.

Main definitions:

* `JobShell.Programs.OrderCheck` — whether the order of the files is checked;
* `JobShell.Programs.comm` — which lines are in one file, in the other, and in both;
* `JobShell.Programs.join` — lines put together that agree in a field.
-/

import JobShell.Programs.Keys
import JobShell.Programs.Size

set_option autoImplicit false

namespace JobShell.Programs

/-! ### The order of the files -/

/-- Whether the order of the files is checked. -/
inductive OrderCheck where
  /-- From the first line without a partner on, and without ending the program. -/
  | lenient
  | strict
  | none
  deriving DecidableEq, Repr, Inhabited

/-- The check that options ask for. -/
def OrderCheck.ofRequest (r : Request) : OrderCheck :=
  r.options.foldl (fun check o =>
    if o.1 = .word "check-order" then .strict
    else if o.1 = .word "nocheck-order" then .none
    else check) .lenient

/-- What is written about two files. -/
inductive Remark where
  | output (text : Bytes)
  | disorder (text : Bytes)
  deriving DecidableEq, Repr, Inhabited

/-- Writes remarks.  Disorder ends the program if the check is strict. -/
def writeRemarks (r : Request) (check : OrderCheck) (remarks : List Remark) : Prog Nat := do
  let (before, rest) := if check = .strict
    then remarks.span fun remark => !(remark matches .disorder _)
    else (remarks, [])
  let _ ← forEach (before ++ rest.take 1) fun remark => do
    match remark with
    | .output text => say text
    | .disorder text => r.complain text
    return true
  if check = .strict then return codeOf rest.isEmpty
  else if remarks.any (· matches .disorder _) then
    r.complain (utf8 "input is not in sorted order")
    return 1
  else return 0

/-- The lines of two operands, or nothing if one cannot be read. -/
def readBoth (r : Request) (mark : UInt8) (a b : Bytes) :
    Prog (Option (List Bytes × List Bytes)) := do
  let read (operand : Bytes) : Prog (Except Errno (List Bytes)) := do
    match ← readOperand operand with
    | .ok text => return .ok ((text.cutAfter mark).map (chompAt mark))
    | .error errno => return .error errno
  match ← read a with
  | .error errno =>
    r.blame a errno
    return none
  | .ok first =>
    match ← read b with
    | .error errno =>
      r.blame b errno
      return none
    | .ok second => return some (first, second)

/-- Runs a function on two operands, or complains about another number of them. -/
def withTwo (r : Request) (body : Bytes → Bytes → Prog Nat) : Prog Nat :=
  match r.operands with
  | [] => r.missingOperand
  | [only] => r.missingAfter only
  | [a, b] => body a b
  | _ :: _ :: extra :: _ => r.extraOperand extra

/-! ### Common lines -/

/-- A file that is gone through: the lines that are left, and those just passed, the last first. -/
structure Passing where
  left : List Bytes
  passed : List Bytes := []
  /-- Disorder has been complained about. -/
  blamed : Bool := false

/-- Passes a line.  At the end of a file the last two lines are looked at once more, since a line
without a partner may have been found since. -/
def Passing.advance (check : OrderCheck) (unpaired : Bool) (number : Nat) (p : Passing) :
    Passing × List Remark :=
  match p.left with
  | [] => (p, [])
  | line :: rest =>
    let pair := match rest, p.passed with
      | next :: _, _ => some (line, next)
      | [], before :: _ => some (before, line)
      | [], [] => none
    let checks := check = .strict || (check = .lenient && unpaired)
    let wrong := checks && !p.blamed && pair.any fun (a, b) => Collation.bytes a b == .gt
    ({ left := rest, passed := line :: p.passed.take 1, blamed := p.blamed || wrong },
      if wrong then
        [.disorder (utf8 "file " ++ Bytes.ofNat number ++ utf8 " is not in sorted order")]
      else [])

/-- Which columns are written, and what stands between them. -/
structure CommonStyle where
  first : Bool
  second : Bool
  both : Bool
  between : Bytes
  mark : UInt8

namespace CommonStyle

/-- A line in the column of lines that are only in the first file. -/
def inFirst (s : CommonStyle) (line : Bytes) : List Remark :=
  if s.first then [.output (line ++ [s.mark])] else []

/-- A line in the column of lines that are only in the second file. -/
def inSecond (s : CommonStyle) (line : Bytes) : List Remark :=
  if s.second then [.output ((if s.first then s.between else []) ++ line ++ [s.mark])] else []

/-- A line in the column of lines that are in both files. -/
def inBoth (s : CommonStyle) (line : Bytes) : List Remark :=
  if s.both then
    [.output ((if s.first then s.between else []) ++ (if s.second then s.between else []) ++ line
      ++ [s.mark])]
  else []

/-- What is written about two files, and the numbers of lines in the columns.  The first number
bounds the steps. -/
def compare (s : CommonStyle) (check : OrderCheck) :
    Nat → Bool → Nat × Nat × Nat → Passing → Passing → List Remark × Nat × Nat × Nat
  | 0, _, counts, _, _ => ([], counts)
  | n + 1, unpaired, (x, y, z), a, b =>
    let order : Option (Ordering × Bytes) := match a.left, b.left with
      | [], [] => none
      | line :: _, [] => some (.lt, line)
      | [], line :: _ => some (.gt, line)
      | first :: _, second :: _ => some (Collation.bytes first second, second)
    let go (unpaired : Bool) (counts : Nat × Nat × Nat) (out : List Remark) (one two : Bool) :
        List Remark × Nat × Nat × Nat :=
      let (a, remarks) := if one then a.advance check unpaired 1 else (a, [])
      let (b, remarks') := if two then b.advance check unpaired 2 else (b, [])
      let (rest, counts) := compare s check n unpaired counts a b
      (out ++ remarks ++ remarks' ++ rest, counts)
    match order with
    | none => ([], (x, y, z))
    | some (.lt, _) => go true (x + 1, y, z) (s.inFirst (a.left.headD [])) true false
    | some (.gt, line) => go true (x, y + 1, z) (s.inSecond line) false true
    | some (.eq, line) => go unpaired (x, y, z + 1) (s.inBoth line) true true

end CommonStyle

/-- Writes which lines are in one file, in the other, and in both. -/
def comm (r : Request) : Prog Nat :=
  withTwo r fun a b => do
    let mark := if r.has 'z' then nul else newline
    let delimiter := (r.wordArgument? "output-delimiter").getD [9]
    let style : CommonStyle :=
      { first := !r.has '1', second := !r.has '2', both := !r.has '3'
        between := if delimiter = [] then [nul] else delimiter
        mark := mark }
    if (r.argumentsOf (.word "output-delimiter")).any fun text => text ≠ delimiter then
      r.complain (utf8 "multiple output delimiters specified")
      return 1
    match ← readBoth r mark a b with
    | none => return 1
    | some (first, second) =>
      let check := OrderCheck.ofRequest r
      let (remarks, x, y, z) := style.compare check (first.length + second.length + 1) false
        (0, 0, 0) { left := first } { left := second }
      let total := List.intercalate style.between
        ([x, y, z].map Bytes.ofNat ++ [utf8 "total"]) ++ [mark]
      let remarks := if r.hasWord "total" then remarks ++ [.output total] else remarks
      writeRemarks r check remarks

/-! ### Lines with a common field -/

/-- What is written of a pair of lines. -/
inductive OutputField where
  /-- The field in which the lines agree. -/
  | common
  | first (field : Nat)
  | second (field : Nat)
  deriving DecidableEq, Repr, Inhabited

/-- How lines are put together. -/
structure Joining where
  /-- The numbers of the fields that must agree, from 0 on. -/
  first : Nat
  second : Nat
  delimiter : Option UInt8
  folded : Bool
  filler : Bytes
  /-- The fields that are written, if they are listed. -/
  format : Option (List OutputField)
  /-- As many fields are written of each line as the first lines have. -/
  auto : Bool
  paired : Bool
  unpairedFirst : Bool
  unpairedSecond : Bool
  /-- The first lines are put together without being compared. -/
  header : Bool
  check : OrderCheck
  mark : UInt8

/-- A line with its fields. -/
structure FieldLine where
  text : Bytes
  fields : List Bytes

namespace Joining

/-- The fields of a line in which any number of blanks stands between fields. -/
def blankFields : Nat → Bytes → List Bytes
  | 0, _ => []
  | n + 1, s =>
    let field := s.takeWhile fun c => !isGap c
    let rest := s.drop field.length
    if rest = [] then [field] else field :: blankFields n (rest.dropWhile isGap)
where
  /-- Whether a byte is a blank. -/
  isGap (c : UInt8) : Bool := c = 32 || c = 9 || c = newline

/-- A line with its fields. -/
def fieldLine (j : Joining) (text : Bytes) : FieldLine :=
  { text := text
    fields :=
      if text = [] then []
      else match j.delimiter with
        | some d => if d = newline then [text] else Bytes.splitAt d text
        | none =>
          let start := text.dropWhile blankFields.isGap
          if start = [] then [] else blankFields (text.length + 1) start }

/-- Compares fields. -/
def compareFields (j : Joining) (a b : Bytes) : Ordering :=
  if j.folded then Collation.bytes (a.map Collation.lower) (b.map Collation.lower)
  else Collation.bytes a b

/-- A field of a line. -/
def field (line : FieldLine) (i : Nat) : Bytes := line.fields.getD i []

/-- A field as it is written. -/
def shownField (j : Joining) (line : Option FieldLine) (i : Nat) : Bytes :=
  let text := (line.map (field · i)).getD []
  if text = [] then j.filler else text

/-- What is written of a pair, of which one may be missing.  `counts` are the numbers of fields if
they are given. -/
def pair (j : Joining) (counts : Option (Nat × Nat)) (a b : Option FieldLine) : List Remark :=
  let common := match a with
    | some _ => j.shownField a j.first
    | none => j.shownField b j.second
  let others (line : Option FieldLine) (key : Nat) (count : Option Nat) : List Bytes :=
    let count := count.getD ((line.map fun l => l.fields.length).getD 0)
    ((List.range count).filter (· ≠ key)).map (j.shownField line)
  let texts := match j.format with
    | some fields => fields.map fun f => match f with
      | .common => common
      | .first i => j.shownField a i
      | .second i => j.shownField b i
    | none => common :: others a j.first (counts.map (·.1)) ++ others b j.second (counts.map (·.2))
  [.output (Bytes.join (j.delimiter.getD 32) texts ++ [j.mark])]

/-- A file that is gone through. -/
structure Source where
  label : Bytes
  left : List FieldLine
  /-- The number of the first line that is left. -/
  number : Nat := 1
  blamed : Bool := false

/-- Passes a line, and looks whether the next one may follow it. -/
def advance (j : Joining) (key : Nat) (unpaired : Bool) (s : Source) : Source × List Remark :=
  match s.left with
  | line :: next :: rest =>
    let checks := j.check = .strict || (j.check = .lenient && unpaired)
    let wrong := checks && !s.blamed
      && j.compareFields (field line key) (field next key) == .gt
    ({ s with left := next :: rest, number := s.number + 1, blamed := s.blamed || wrong },
      if wrong then
        [.disorder (s.label ++ 58 :: Bytes.ofNat (s.number + 1) ++ utf8 ": is not sorted: "
          ++ next.text)]
      else [])
  | _ => ({ s with left := s.left.drop 1, number := s.number + 1 }, [])

/-- Passes all lines with a given field: these lines, and the rest. -/
def takeRun (j : Joining) (key : Nat) (unpaired : Bool) (value : Bytes) :
    Nat → Source → List FieldLine × Source × List Remark
  | 0, s => ([], s, [])
  | n + 1, s =>
    match s.left with
    | line :: _ =>
      if j.compareFields (field line key) value == .eq then
        let (s, remarks) := j.advance key unpaired s
        let (run, s, more) := takeRun j key unpaired value n s
        (line :: run, s, remarks ++ more)
      else ([], s, [])
    | [] => ([], s, [])

/-- Passes all lines that are left of one file; `unpaired` says that they have no partner, because the
other file has lines left. -/
def finish (j : Joining) (key : Nat) (unpaired : Bool) (write : FieldLine → List Remark) :
    Nat → Source → List Remark
  | 0, _ => []
  | n + 1, s =>
    match s.left with
    | [] => []
    | line :: _ =>
      let (s, remarks) := j.advance key unpaired s
      write line ++ remarks ++ finish j key unpaired write n s

/-- Goes through both files.  The number bounds the steps. -/
def merge (j : Joining) (counts : Option (Nat × Nat)) :
    Nat → Bool → Source → Source → List Remark
  | 0, _, _, _ => []
  | n + 1, unpaired, a, b =>
    let alone (wanted : Bool) (remarks : List Remark) : List Remark := if wanted then remarks else []
    let writeFirst (line : FieldLine) := alone j.unpairedFirst (j.pair counts (some line) none)
    let writeSecond (line : FieldLine) := alone j.unpairedSecond (j.pair counts none (some line))
    match a.left, b.left with
    | first :: _, second :: _ =>
      match j.compareFields (field first j.first) (field second j.second) with
      | .lt =>
        let (a, remarks) := j.advance j.first unpaired a
        writeFirst first ++ remarks ++ merge j counts n true a b
      | .gt =>
        let (b, remarks) := j.advance j.second unpaired b
        writeSecond second ++ remarks ++ merge j counts n true a b
      | .eq =>
        let (run, a, remarks) :=
          j.takeRun j.first unpaired (field second j.second) (a.left.length + 1) a
        let (run', b, remarks') :=
          j.takeRun j.second unpaired (field first j.first) (b.left.length + 1) b
        let pairs := alone j.paired
          (run.flatMap fun x => run'.flatMap fun y => j.pair counts (some x) (some y))
        remarks ++ remarks' ++ pairs ++ merge j counts n unpaired a b
    | _, _ =>
      j.finish j.first unpaired writeFirst (a.left.length + 1) a
        ++ j.finish j.second unpaired writeSecond (b.left.length + 1) b

/-- What is written of two files. -/
def apply (j : Joining) (a b : Source) : List Remark :=
  let count (s : Source) : Nat := (s.left.head?.map fun l => l.fields.length).getD 0
  let counts := if j.auto then some (count a, count b) else none
  let steps := a.left.length + b.left.length + 1
  if j.header ∧ (a.left ≠ [] ∨ b.left ≠ []) then
    let top := j.pair counts (a.left.head?.getD ⟨[], []⟩) (b.left.head?.getD ⟨[], []⟩)
    let rest (s : Source) : Source := { s with left := s.left.drop 1, number := 2 }
    top ++ j.merge counts steps false (rest a) (rest b)
  else j.merge counts steps false a b

/-- Reads the number of a field, which is given from 1 on. -/
def readField (text : Bytes) : Except Objection Nat :=
  match readSize "" text with
  | .ok (n + 1) => .ok n
  | .error .overflow => .ok sizeLimit
  | _ => .error (.plain (utf8 "invalid field number: " ++ Quoted.escaped text))

/-- Reads one field of a format. -/
def readOutputField (text : Bytes) : Except Objection OutputField :=
  let invalid : Except Objection OutputField :=
    .error (.plain (utf8 "invalid field specifier: " ++ Quoted.escaped text))
  match text with
  | 48 :: rest => if rest = [] then .ok .common else invalid
  | c :: 46 :: rest =>
    if c = 49 then (readField rest).map .first
    else if c = 50 then (readField rest).map .second
    else .error (.plain (utf8 "invalid file number in field spec: " ++ Quoted.escaped text))
  | c :: _ =>
    if c = 49 ∨ c = 50 then invalid
    else .error (.plain (utf8 "invalid file number in field spec: " ++ Quoted.escaped text))
  | [] => .error (.plain (utf8 "invalid file number in field spec: " ++ Quoted.escaped text))

/-- The one number that several options give for a field. -/
def agreedField (r : Request) (letter : Char) : Except Objection Nat := do
  let texts := r.options.filterMap fun o =>
    if o.1 = .letter letter ∨ o.1 = .letter 'j' then some o.2 else none
  let numbers ← texts.mapM readField
  match numbers with
  | [] => return 0
  | n :: rest =>
    match rest.find? (· ≠ n) with
    | none => return n
    | some m =>
      throw (.plain (utf8 "incompatible join fields " ++ Bytes.ofNat n ++ utf8 ", "
        ++ Bytes.ofNat m))

/-- Whether an option names the first or the second file. -/
def names (r : Request) (letter : Char) (file : Nat) : Except Objection Bool := do
  let numbers ← (r.arguments letter).mapM fun text =>
    match readSize "" text with
    | .ok 1 => .ok 1
    | .ok 2 => .ok 2
    | _ => .error (.plain (utf8 "invalid field number: " ++ Quoted.escaped text))
  return numbers.contains file

/-- Reads the byte between fields. -/
def readDelimiter (r : Request) : Except Objection (Option UInt8) :=
  (r.arguments 't').foldlM (fun before text =>
    let accept (c : UInt8) : Except Objection (Option UInt8) :=
      if before.all (· = c) then .ok (some c) else .error (.plain (utf8 "incompatible tabs"))
    match text with
    | [] => accept newline
    | [c] => accept c
    | [92, 48] => accept nul
    | _ => .error (.plain (utf8 "multi-character tab " ++ Quoted.escaped text))) none

/-- Reads the options of `join`. -/
def ofRequest (r : Request) : Except Objection Joining := do
  let first ← agreedField r '1'
  let second ← agreedField r '2'
  let delimiter ← readDelimiter r
  let fillers := r.arguments 'e'
  if fillers.any fun text => some text ≠ fillers.head? then
    throw (.plain (utf8 "conflicting empty-field replacement strings"))
  let formats := r.arguments 'o'
  let listed := formats.filter (· ≠ utf8 "auto")
  let fields ← (listed.flatMap fun text =>
    (Bytes.splitAt 44 (text.map fun c => if c = 32 ∨ c = 9 then 44 else c))).mapM readOutputField
  let onlyFirst ← names r 'v' 1
  let onlySecond ← names r 'v' 2
  return { first := first
           second := second
           delimiter := delimiter
           folded := r.has 'i'
           filler := fillers.headD []
           format := if listed = [] then none else some fields
           auto := formats.contains (utf8 "auto")
           paired := !r.has 'v'
           unpairedFirst := onlyFirst || (← names r 'a' 1)
           unpairedSecond := onlySecond || (← names r 'a' 2)
           header := r.hasWord "header"
           check := OrderCheck.ofRequest r
           mark := if r.has 'z' then nul else newline }

end Joining

/-- Writes lines of two files put together that agree in a field. -/
def join (r : Request) : Prog Nat := do
  match Joining.ofRequest r with
  | .error objection => r.object 1 objection
  | .ok j =>
    withTwo r fun a b => do
      if a = dash ∧ b = dash then
        r.complain (utf8 "both files cannot be standard input")
        return 1
      match ← readBoth r j.mark a b with
      | none => return 1
      | some (first, second) =>
        let source (label : Bytes) (lines : List Bytes) : Joining.Source :=
          { label := label, left := lines.map j.fieldLine }
        writeRemarks r j.check (j.apply (source a first) (source b second))

end JobShell.Programs
