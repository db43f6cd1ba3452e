/-
**Names in directories.**

Main definitions:

* `JobShell.Programs.ListStyle` — which names are listed, in which order and how they are written;
* `JobShell.Programs.ListStyle.written` — names as they are written;
* `JobShell.Programs.listDirectory` — listing a directory;
* `JobShell.Programs.ls` — the program.
-/

import JobShell.Programs.Tree
import JobShell.Text.Collation
import JobShell.Text.Glob
import JobShell.Text.Permissions

set_option autoImplicit false

namespace JobShell.Programs

/-! ### Styles -/

/-- What names are ordered by. -/
inductive NameOrder where
  | name
  /-- As the directory has them. -/
  | nothing
  | size
  | ending
  | version
  /-- The shortest first. -/
  | width
  deriving DecidableEq, Repr, Inhabited

/-- Which kinds of files are marked after their names. -/
inductive KindMarks where
  | none
  | directories
  | kinds
  /-- Kinds, and files that may be run. -/
  | all
  deriving DecidableEq, Repr, Inhabited

/-- How names are written. -/
inductive NameWriting where
  | plain
  /-- Between double marks. -/
  | doubled
  /-- With a backslash before what could be misread. -/
  | escaped
  deriving DecidableEq, Repr, Inhabited

/-- How names are arranged. -/
inductive Arrangement where
  | lines
  | commas
  /-- With what is known of the files. -/
  | long
  deriving DecidableEq, Repr, Inhabited

/-- Which names are listed, in which order and how they are written. -/
structure ListStyle where
  order : NameOrder
  reversed : Bool
  directoriesFirst : Bool
  marks : KindMarks
  writing : NameWriting
  arrangement : Arrangement
  /-- The sizes in storage stand before the names. -/
  sized : Bool
  /-- The byte that ends lines. -/
  mark : UInt8
  /-- Names that begin with a dot are listed; so are those for the directory itself and the one it
  lies in, if that is said. -/
  hidden : Option Bool
  /-- Names that are left out. -/
  ignored : List Bytes
  /-- Directories are listed like other files. -/
  flat : Bool
  recursive : Bool
  /-- Links are followed, always or never; otherwise operands are followed to directories. -/
  follow : Option Bool

namespace ListStyle

/-- What an option makes of a style. -/
def withOption (s : ListStyle) (o : OptionKey × Bytes) : Except Objection ListStyle :=
  let orders := [("none", NameOrder.nothing), ("time", .name), ("size", .size),
    ("extension", .ending), ("version", .version), ("width", .width)]
  let formats := [("verbose", Arrangement.long), ("long", .long), ("commas", .commas),
    ("horizontal", .lines), ("across", .lines), ("vertical", .lines), ("single-column", .lines)]
  let indicators := [("none", KindMarks.none), ("slash", .directories), ("file-type", .kinds),
    ("classify", .all)]
  match o with
  | (.letter c, text) => .ok <|
    match c with
    | 'a' => { s with hidden := some true }
    | 'A' => { s with hidden := some false }
    | 'b' => { s with writing := .escaped }
    | 'B' => { s with ignored := s.ignored ++ [utf8 "*~", utf8 ".*~"] }
    | 'd' => { s with flat := true }
    | 'f' => { s with order := .nothing, hidden := some true }
    | 'F' => { s with marks := .all }
    | 'I' => { s with ignored := s.ignored ++ [text] }
    | 'l' | 'g' | 'n' | 'o' => { s with arrangement := .long }
    | 'L' => { s with follow := some true }
    | 'm' => { s with arrangement := .commas }
    | 'N' => { s with writing := .plain }
    | 'p' => { s with marks := .directories }
    | 'Q' => { s with writing := .doubled }
    | 'r' => { s with reversed := true }
    | 'R' => { s with recursive := true }
    | 's' => { s with sized := true }
    | 'S' => { s with order := .size }
    | 't' => { s with order := .name }
    | 'U' => { s with order := .nothing }
    | 'v' => { s with order := .version }
    | 'X' => { s with order := .ending }
    | '1' | 'C' | 'x' =>
      if s.arrangement = .long ∧ c = '1' then s else { s with arrangement := .lines }
    | _ => s
  | (.word "sort", text) =>
    (chooseWord "--sort" orders text).map fun order => { s with order := order }
  | (.word "format", text) =>
    (chooseWord "--format" formats text).map fun a => { s with arrangement := a }
  | (.word "indicator-style", text) =>
    (chooseWord "--indicator-style" indicators text).map fun m => { s with marks := m }
  | (.word "file-type", _) => .ok { s with marks := .kinds }
  | (.word "group-directories-first", _) => .ok { s with directoriesFirst := true }
  | (.word "hide", text) =>
    .ok (if s.hidden.isSome then s else { s with ignored := s.ignored ++ [text] })
  | (.word "zero", _) => .ok { s with mark := nul, arrangement := .lines, writing := .plain }
  | _ => .ok s

/-- The style that options ask for. -/
def ofRequest (r : Request) : Except Objection ListStyle := do
  let s ← r.options.foldlM withOption
    { order := .name, reversed := false, directoriesFirst := false, marks := .none
      writing := .plain, arrangement := .lines, sized := false, mark := newline, hidden := none
      ignored := [], flat := false, recursive := false, follow := none }
  let still := s.flat || s.marks = .all || s.arrangement = .long
  return { s with
    recursive := s.recursive && !s.flat
    follow := if s.follow.isNone ∧ still then some false else s.follow }

/-! ### Names -/

/-- The mark of a kind of file after its name. -/
def kindMark (s : ListStyle) (status : FileStatus) : Bytes :=
  let kinds := s.marks = .kinds || s.marks = .all
  match status.content with
  | .directory _ _ => if s.marks = .none then [] else [slash]
  | .link _ => if kinds ∧ s.arrangement ≠ .long then [64] else []
  | .fifo _ => if kinds then [124] else []
  | .device _ => []
  | _ => if s.marks = .all ∧ status.mode &&& 0o111 ≠ 0 then [42] else []

/-- A name as it is written. -/
def label (s : ListStyle) (name : Bytes) : Bytes :=
  match s.writing with
  | .plain => name
  | .doubled => Quoted.doubled name
  | .escaped =>
    name.flatMap fun c =>
      if c = 32 ∨ c = Quoted.backslash then [Quoted.backslash, c]
      else if Quoted.isPrintable c then [c] else Quoted.escape c

/-- The letter of a kind of file. -/
def kindLetter (status : FileStatus) : Char :=
  match status.content with
  | .directory _ _ => 'd'
  | .link _ => 'l'
  | .fifo _ => 'p'
  | .device _ => 'c'
  | .file _ | .program _ | .account _ _ => '-'

/-- The size of a file. -/
def size (status : FileStatus) : Nat :=
  match status.content with
  | .file data => data.length
  | .link target => target.length
  | .directory _ _ => 4096
  | _ => 0

/-- How much storage a file takes, in units of 1024. -/
def storage (status : FileStatus) : Nat :=
  match status.content with
  | .link _ => 0
  | _ => (size status + 4095) / 4096 * 4

/-- The parts of a line: those of which the greatest length counts, and the rest.  No file has a time
of its own. -/
def columns (s : ListStyle) (name : Bytes) (status : Option FileStatus) : List Bytes × Bytes :=
  let sized := if s.sized then [(status.map fun st => Bytes.ofNat (storage st)).getD [63]] else []
  match status, s.arrangement with
  | some status, .long =>
    let target := match status.content with
      | .link target => utf8 " -> " ++ s.label target
      | _ => []
    (sized ++ [utf8 (kindLetter status).toString ++ Permissions.letters status.mode,
        Bytes.ofNat status.links, utf8 "root root", Bytes.ofNat (size status)],
      utf8 "Jan  1  1970 " ++ s.label name ++ s.kindMark status ++ target)
  | some status, _ => (sized, s.label name ++ s.kindMark status)
  | none, _ => (sized, s.label name)

/-- Names between commas, broken where a line would be too long. -/
def withCommas (position : Nat) : List Bytes → Bytes
  | [] => []
  | [name] => name
  | name :: next :: rest =>
    let position := position + name.length
    let fits := position + next.length + 2 < 80
    name ++ [44, if fits then 32 else newline]
      ++ withCommas (if fits then position + 2 else 0) (next :: rest)

/-- Names as they are written. -/
def written (s : ListStyle) (files : List (Bytes × Option FileStatus)) : Bytes :=
  let rows := files.map fun (name, status) => s.columns name status
  let width (i : Nat) : Nat := (rows.map fun row => (row.1[i]?.getD []).length).foldl max 0
  let texts := rows.map fun (front, name) =>
    ((front.zip (List.range front.length)).flatMap fun (text, i) =>
      padLeft (width i) text ++ [32]) ++ name
  if s.arrangement = .commas then (if texts = [] then [] else withCommas 0 texts ++ [s.mark])
  else endLines s.mark texts

/-! ### Order -/

/-- The ending of a name, with its dot. -/
def endingOf (name : Bytes) : Bytes :=
  if name.contains 46 then 46 :: (name.reverse.takeWhile (· ≠ 46)).reverse else []

/-- Compares two files. -/
def compareFiles (s : ListStyle) (a b : Bytes × Option FileStatus) : Ordering :=
  let directory (f : Bytes × Option FileStatus) : Bool := f.2.any isDirectoryStatus
  let sizeOf (f : Bytes × Option FileStatus) : Nat := (f.2.map size).getD 0
  let names := Collation.bytes a.1 b.1
  let order := match s.order with
    | .name => names
    | .nothing => .eq
    | .size => (compare (sizeOf b) (sizeOf a)).then names
    | .ending => (Collation.bytes (endingOf a.1) (endingOf b.1)).then names
    | .version => (Collation.versions a.1 b.1).then names
    | .width => (compare a.1.length b.1.length).then names
  let groups := if s.directoriesFirst then compare (directory b) (directory a) else .eq
  groups.then (if s.reversed then order.swap else order)

/-- Files in order. -/
def sorted (s : ListStyle) (files : List (Bytes × Option FileStatus)) :
    List (Bytes × Option FileStatus) :=
  if s.order = .nothing then files
  else files.mergeSort fun a b => s.compareFiles a b ≠ .gt

/-- Whether a name in a directory is listed. -/
def shows (s : ListStyle) (name : Bytes) : Bool :=
  (s.hidden.isSome || name.head? ≠ some 46)
    && !s.ignored.any fun pattern => (Glob.ofMarked (pattern.map fun c => (c, false))).accepts name

end ListStyle

/-! ### Directories and operands -/

/-- The status of a file that is listed. -/
def listedStatus (s : ListStyle) (path : Bytes) : Prog (Option FileStatus) := do
  match s.follow with
  | some true => return (← statusOf? path true).or (← statusOf? path false)
  | _ => statusOf? path false

/-- Lists a directory, under a heading if that is asked for, and what is below it if that is asked
for, to some depth.  `first` says that nothing has been listed before it.  Gives the exit code. -/
def listDirectory (r : Request) (s : ListStyle) (headings : Bool) :
    Nat → Bool → Bool → Bytes → Prog Nat
  | 0, _, _, _ => return 1
  | depth + 1, top, first, path => do
    match ← Prog.ask (.list path) with
    | .error errno =>
      r.complainOf (utf8 "cannot open directory " ++ Quoted.forShell path) errno
      return if top then 2 else 1
    | .ok names =>
      let special := if s.hidden = some true then [FileSystem.dot, FileSystem.dotDot] else []
      let files ← ((special ++ names).filter s.shows).mapM fun name => do
        return (name, ← listedStatus s (inDirectory path name))
      let files := s.sorted files
      let heading := if headings then s.label path ++ utf8 ":\n" else []
      let gap := if first then [] else [newline]
      let total :=
        if s.sized ∨ s.arrangement = .long then
          let sum := total (files.map fun f => (f.2.map ListStyle.storage).getD 0)
          utf8 "total " ++ Bytes.ofNat sum ++ [newline]
        else []
      say (gap ++ heading ++ total ++ s.written files)
      if s.recursive then
        let below := files.filter fun f =>
          f.2.any isDirectoryStatus && f.1 ≠ FileSystem.dot && f.1 ≠ FileSystem.dotDot
        below.foldlM (fun code f => do
          return max code (← listDirectory r s headings depth false false (inDirectory path f.1))) 0
      else return 0

/-- The operands to list: files, directories, and whether all are there. -/
def sortOperands (r : Request) (s : ListStyle) :
    List Bytes → Prog (List (Bytes × Option FileStatus) × List Bytes × Bool)
  | [] => return ([], [], true)
  | path :: rest => do
    let itself ← Prog.ask (.status path false)
    let found ← match s.follow with
      | some true => Prog.ask (.status path true)
      | some false => pure itself
      | none =>
        match ← Prog.ask (.status path true) with
        | .ok status => if isDirectoryStatus status then pure (.ok status) else pure itself
        | .error _ => pure itself
    let (files, directories, ok) ← match found with
      | .error errno => do
        r.complainOf (utf8 "cannot access " ++ Quoted.forShell path) errno
        let (files, directories, _) ← sortOperands r s rest
        pure (files, directories, false)
      | .ok status => do
        let (files, directories, ok) ← sortOperands r s rest
        if isDirectoryStatus status ∧ s.flat = false then pure (files, path :: directories, ok)
        else pure ((path, some status) :: files, directories, ok)
    return (files, directories, ok)

/-- Lists files. -/
def ls (r : Request) : Prog Nat := do
  match ListStyle.ofRequest r with
  | .error objection => r.object 2 objection
  | .ok s =>
    let operands := if r.operands = [] then [FileSystem.dot] else r.operands
    let (files, directories, ok) ← sortOperands r s operands
    if files ≠ [] then say (s.written (s.sorted files))
    let headings := 1 < r.operands.length || s.recursive
    let statuses ← directories.mapM fun path => do return (path, ← statusOf? path true)
    let directories := (s.sorted statuses).map (·.1)
    let code ← (directories.zip (List.range directories.length)).foldlM (fun code (path, i) => do
      return max code (← listDirectory r s headings treeDepth true (i = 0 && files = []) path)) 0
    return if ok then code else 2

end JobShell.Programs
