/-
**Lines that match a pattern.**

Main definitions:

* `JobShell.Programs.Search` — what is searched for, and what is written about it;
* `JobShell.Programs.Search.selects`, `JobShell.Programs.Search.pieces` — the lines that are
  written, and the parts of a line that match;
* `JobShell.Programs.Search.report` — what is written about a text;
* `JobShell.Programs.grep` — the program.
-/

import JobShell.Programs.Tree
import JobShell.Text.Regex.Notation

set_option autoImplicit false

namespace JobShell.Programs

/-- What is searched for, and what is written about it. -/
structure Search where
  patterns : List Regex
  inverted : Bool
  wholeLine : Bool
  wholeWord : Bool
  /-- Only the number of lines is written. -/
  counting : Bool
  quiet : Bool
  onlyMatching : Bool
  numbered : Bool
  /-- Only the names of files with a match, or only those of files without one, are written. -/
  listing : Option Bool
  /-- The name of the file stands before each line. -/
  named : Bool
  most : Option Nat
  /-- Texts with zero bytes are texts too. -/
  onlyText : Bool
  /-- The byte that ends lines. -/
  mark : UInt8
  /-- The byte after the name of the file, if it is always the same. -/
  nameEnd : Option UInt8
  /-- What the input is called. -/
  inputName : Bytes
  /-- How many lines before and after a match are written too. -/
  before : Nat
  after : Nat

namespace Search

/-- The lengths of the matches at a place of a line that count. -/
def lengthsAt (s : Search) (p : Regex.Place) : List Nat :=
  (s.patterns.flatMap fun r => r.lengths p).filter fun n =>
    let after := (p.rest.drop n).head?
    (!s.wholeLine || (p.before.isNone && n = p.rest.length))
      && (!s.wholeWord
        || (!(p.before.map Regex.isWordByte).getD false
          && !(after.map Regex.isWordByte).getD false))

/-- The length of the longest match at a place. -/
def longestAt? (s : Search) (p : Regex.Place) : Option Nat := (s.lengthsAt p).max?

/-- Whether some place of a line has a match. -/
def occurs (s : Search) : Option UInt8 → Bytes → Bool
  | before, [] => (s.longestAt? { before := before, rest := [] }).isSome
  | before, c :: line => (s.longestAt? { before := before, rest := c :: line }).isSome || occurs s (some c) line

/-- Whether a line is written. -/
def selects (s : Search) (line : Bytes) : Bool := s.occurs none line != s.inverted

/-- The parts of a line that match, from the left, each as long as can be. -/
def pieces (s : Search) : Nat → Option UInt8 → Bytes → List Bytes
  | 0, _, _ => []
  | _, _, [] => []
  | n + 1, before, c :: line =>
    match s.longestAt? { before := before, rest := c :: line } with
    | some (k + 1) =>
      let piece := (c :: line).take (k + 1)
      piece :: pieces s n piece.getLast? ((c :: line).drop (k + 1))
    | _ => pieces s n (some c) line

/-- Numbers and texts of lines, and whether they are selected; of lines that are not, those near a
selected one are kept. -/
def withContext (s : Search) (chosen : List Nat) (lines : List (Bytes × Nat)) :
    List (Bytes × Nat × Bool) :=
  lines.filterMap fun (line, i) =>
    if chosen.contains i then some (line, i, true)
    else if chosen.any fun j => (i < j && j ≤ i + s.before) || (j < i && i ≤ j + s.after) then
      some (line, i, false)
    else none

/-- What is written of lines, with a mark between groups that are apart. -/
def sayLines (s : Search) (label : Bytes) : Option Nat → List (Bytes × Nat × Bool) → Bytes
  | _, [] => []
  | last, (line, i, selected) :: rest =>
    let apart := match last with
      | some j => j + 1 < i && 0 < s.before + s.after
      | none => false
    let mark : UInt8 := if selected then 58 else 45
    let start := (if s.named then label ++ [s.nameEnd.getD mark] else [])
      ++ if s.numbered then Bytes.ofNat (i + 1) ++ [mark] else []
    let text :=
      if s.onlyMatching then
        if s.inverted ∨ selected = false then []
        else endLines s.mark ((s.pieces (line.length + 1) none line).map (start ++ ·))
      else start ++ line ++ [s.mark]
    (if apart then utf8 "--\n" else []) ++ text ++ sayLines s label (some i) rest

/-- The lines of a text with their numbers, and those of them that are selected, up to the greatest
number of them. -/
def chosen (s : Search) (text : Bytes) : List (Bytes × Nat) × List (Bytes × Nat) :=
  let lines := (text.cutAfter s.mark).map (chompAt s.mark)
  let numbered := lines.zip (List.range lines.length)
  let selected := numbered.filter fun (line, _) => s.selects line
  (numbered, match s.most with
    | some most => selected.take most
    | none => selected)

/-- How many bytes of a text are not looked at, because enough lines before them are selected. -/
def unread (s : Search) (text : Bytes) : Nat :=
  let (_, chosen) := s.chosen text
  match chosen.getLast? with
  | some (_, last) =>
    if s.most = some chosen.length then
      total (((text.cutAfter s.mark).drop (last + 1)).map List.length)
    else 0
  | none => 0

/-- What is written about a text. -/
structure Report where
  out : Bytes := []
  /-- A line was selected. -/
  found : Bool
  /-- There are selected lines, which are not written because the text is none. -/
  withheld : Bool := false

/-- What is written about one text. -/
def report (s : Search) (label text : Bytes) : Report :=
  let (numbered, chosen) := s.chosen text
  let found := !chosen.isEmpty
  if s.quiet then { found := found }
  else match s.listing with
    | some wanted =>
      { out := if found = wanted then label ++ [s.nameEnd.getD newline] else [], found := found }
    | none =>
      if s.counting then
        { out := (if s.named then label ++ [s.nameEnd.getD 58] else [])
            ++ Bytes.ofNat chosen.length ++ [newline]
          found := found }
      else if text.contains nul ∧ s.mark ≠ nul ∧ s.onlyText = false then
        { found := found, withheld := found }
      else if s.before + s.after = 0 then
        { out := s.sayLines label none (chosen.map fun (line, i) => (line, i, true))
          found := found }
      else
        { out := s.sayLines label none (s.withContext (chosen.map (·.2)) numbered)
          found := found }

end Search

/-- The expressions of a pattern, which has one in each line. -/
def grepPatterns (r : Request) (pattern : Bytes) : Except Regex.Mistake (List Regex) :=
  let read (text : Bytes) : Except Regex.Mistake Regex :=
    if r.has 'F' then .ok (Regex.ofFixed text)
    else if r.has 'E' ∨ r.has 'P' then Regex.ofExtended text
    else Regex.ofBasic text
  let fold (e : Regex) : Regex := if r.has 'i' || r.has 'y' then e.foldCase else e
  (Bytes.splitAt newline pattern).mapM fun text => (read text).map fold

/-- What is wrong with patterns beyond their being no expressions: a text that is refused, and warnings
about counts that have nothing to repeat. -/
def remarks (r : Request) (patterns : List Bytes) : Option String × List String :=
  let lines := patterns.flatMap (Bytes.splitAt newline)
  let extended := r.has 'E'
  let words (c : UInt8) : String :=
    (if c = 123 then "\x7b...\x7d" else (Char.ofNat c.toNat).toString) ++ " at start of expression"
  if r.has 'F' ∨ r.has 'P' then (none, [])
  else
    (if lines.any Regex.hasBareClass then
        some "character class syntax is [[:space:]], not [:space:]" else none,
      if extended then (lines.flatMap Regex.idleCounts).map words else [])

/-- The lines of context that options ask for; digits among them are one number. -/
def contextOf (r : Request) (letter : Char) : Except Objection Nat :=
  let digits := r.letters.filter Char.isDigit
  let read (text : Bytes) : Except Objection Nat :=
    match digits? text with
    | some n => .ok n
    | none => .error (.plain (text ++ utf8 ": invalid context length argument"))
  match r.argument? letter, r.argument? 'C', digits with
  | some text, _, _ | none, some text, _ => read text
  | none, none, [] => .ok 0
  | none, none, digits => read (utf8 (String.ofList digits))

/-- The search that options ask for; `several` says that there is more than one file. -/
def searchOf (r : Request) (several : Bool) (patterns : List Regex) :
    Except Objection Search := do
  let most ← (r.argument? 'm').mapM fun text =>
    match int? text with
    | some n => .ok (if n < 0 then none else some n.toNat)
    | none => .error (.plain (utf8 "invalid max count"))
  return {
    patterns := patterns
    inverted := r.has 'v'
    wholeLine := r.has 'x'
    wholeWord := r.has 'w'
    counting := r.has 'c'
    quiet := r.has 'q'
    onlyMatching := r.has 'o'
    numbered := r.has 'n'
    listing := match r.lastOf "lL" with
      | some letter => some (letter = 'l')
      | none => none
    named := match r.lastOf "Hh" with
      | some letter => letter = 'H'
      | none => several
    most := most.join
    onlyText := r.has 'a' || r.wordArgument? "binary-files" = some (utf8 "text")
    mark := if r.has 'z' then nul else newline
    nameEnd := if r.has 'Z' then some nul else none
    inputName := (r.wordArgument? "label").getD (utf8 "(standard input)")
    before := ← contextOf r 'B'
    after := ← contextOf r 'A' }

/-- The files that a path stands for: the files below it if it is a directory.  Links below it
count only if they are followed. -/
def filesBelow (follow : Bool) : Nat → Bytes → Prog (List Bytes)
  | 0, path => return [path]
  | depth + 1, path => do
    if ← isDirectory path true then
      match ← Prog.ask (.list path) with
      | .ok names =>
        let paths := (names.mergeSort Bytes.le).map (inDirectory path)
        let kept ← paths.filterM fun path => do
          match ← statusOf? path false with
          | some { content := .link _, .. } => return follow
          | _ => return true
        let files ← kept.mapM (filesBelow follow depth)
        return files.flatten
      | .error _ => return [path]
    else return [path]

/-- The files to search. -/
def filesToSearch (r : Request) (operands : List Bytes) : Prog (List Bytes) := do
  if r.has 'r' ∨ r.has 'R' then
    let below := filesBelow (r.has 'R') treeDepth
    if operands = [] then return (← below FileSystem.dot).map (·.drop 2)
    else return (← operands.mapM below).flatten
  else return orInput operands

/-- Searches one file: whether a line was selected, and whether it could be read. -/
def searchFile (r : Request) (s : Search) (operand : Bytes) : Prog (Bool × Bool) := do
  let label := if operand = dash then s.inputName else operand
  let skipped := r.argument? 'd' = some (utf8 "skip")
  if s.most = some 0 then return (false, true)
  else if skipped && (← isDirectory operand true) then return (false, true)
  else
    let result ← withOperand operand fun fd => do
      let text ← readAll fd
      match text with
      | .ok text =>
        let rest := s.unread text
        if operand = dash ∧ 0 < rest then
          let _ ← Prog.ask (.seek fd .here (-(rest : Int)))
      | .error _ => pure ()
      return text
    match result with
    | .ok (.ok text) =>
      let result := s.report label text
      say result.out
      if result.withheld then r.complain (label ++ utf8 ": binary file matches")
      return (result.found, true)
    | .ok (.error errno) | .error errno =>
      if r.has 's' = false then r.complainOf label errno
      return (false, false)

/-- The patterns in a file; an empty file has none. -/
def patternsIn (file : Bytes × Except Errno Bytes) : Except (Bytes × Errno) (List Bytes) :=
  match file with
  | (_, .ok text) => .ok (if text = [] then [] else [chompAt newline text])
  | (path, .error errno) => .error (path, errno)

/-- The patterns in the files that options name, or the error of one that cannot be read. -/
def patternFiles (r : Request) : Prog (Except (Bytes × Errno) (List Bytes)) := do
  let files ← (r.arguments 'f').mapM fun path => do return (path, ← readOperand path)
  return (files.mapM patternsIn).map List.flatten

/-- Writes the lines that match, given the patterns. -/
def grepWith (r : Request) (patterns operands : List Bytes) : Prog Nat := do
  match patterns.mapM (grepPatterns r) with
  | .error mistake =>
    r.complain (utf8 mistake.message)
    return 2
  | .ok expressions =>
    let files ← filesToSearch r operands
    let several := 1 < operands.length || r.has 'r' || r.has 'R'
    let (refused, warnings) := remarks r patterns
    for warning in warnings do
      r.complain (utf8 ("warning: " ++ warning))
    match refused, searchOf r several expressions.flatten with
    | some text, _ =>
      r.complain (utf8 text)
      return 2
    | none, .error objection => r.object 2 objection
    | none, .ok s =>
      let (found, ok) ← files.foldlM (fun (state : Bool × Bool) file => do
        let (found, ok) ← searchFile r s file
        return (state.1 || found, state.2 && ok)) (false, true)
      return if ok = false ∧ (found = false ∨ s.quiet = false) then 2 else codeOf found

/-- Writes the lines that match. -/
def grep (r : Request) : Prog Nat := do
  let matchers := (r.letters.filter fun c => "EFGP".toList.contains c).eraseDups
  match ← patternFiles r, r.has 'e' || r.has 'f', r.operands with
  | .error (path, errno), _, _ =>
    r.complainOf path errno
    return 2
  | .ok [], false, [] =>
    let _ ← emit 2 (utf8 "Usage: " ++ r.name ++ utf8 " [OPTION]... PATTERNS [FILE]...\n")
    r.tryHelp
    return 2
  | .ok files, given, operands =>
    if 1 < matchers.length then
      r.complain (utf8 "conflicting matchers specified")
      return 2
    else
      let (patterns, operands) :=
        if given then (r.arguments 'e' ++ files, operands)
        else (operands.take 1, operands.drop 1)
      grepWith r patterns operands

end JobShell.Programs
