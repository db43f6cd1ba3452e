/-
**Programs that copy their input.**

Main definitions:

* `JobShell.Programs.CopyStyle` — how what is copied is changed;
* `JobShell.Programs.cat` — copying files one after another;
* `JobShell.Programs.tee` — copying the input to several places.
-/

import JobShell.Programs.Request

set_option autoImplicit false

namespace JobShell.Programs

/-! ### One place -/

/-- Whether a descriptor is the very file that the output goes to, and is not empty. -/
def feedsItself (fd : Nat) : Prog Bool := do
  match ← Prog.ask (.statusOf 1), ← Prog.ask (.statusOf fd) with
  | .ok (some target), .ok (some source) =>
    match source.content with
    | .file (_ :: _) => return target.number = source.number
    | _ => return false
  | _, _ => return false

/-- Which changes are made to what is copied. -/
structure CopyStyle where
  numbered : Bool
  /-- Lines without text are not numbered. -/
  skipsBlank : Bool
  /-- The end of each line is marked. -/
  marksEnds : Bool
  /-- Tabs are shown. -/
  showsTabs : Bool
  /-- Bytes that cannot be printed are shown. -/
  showsOthers : Bool
  /-- Of several lines without text one is kept. -/
  squeezed : Bool

namespace CopyStyle

/-- The style that the options of `cat` ask for. -/
def ofRequest (r : Request) : CopyStyle :=
  let all := r.has 'A'
  { numbered := r.has 'n' || r.has 'b'
    skipsBlank := r.has 'b'
    marksEnds := all || r.has 'E' || r.has 'e'
    showsTabs := all || r.has 'T' || r.has 't'
    showsOthers := all || r.has 'v' || r.has 'e' || r.has 't'
    squeezed := r.has 's' }

/-- Whether a style changes anything. -/
def isPlain (s : CopyStyle) : Bool :=
  !(s.numbered || s.marksEnds || s.showsTabs || s.showsOthers || s.squeezed)

/-- A byte below 128 in printable letters. -/
def caret (c : UInt8) : Bytes :=
  if c < 32 then [94, c + 64] else if c = 127 then [94, 63] else [c]

/-- What is written for a byte that is no newline. -/
def shown (s : CopyStyle) (c : UInt8) : Bytes :=
  if c = 9 then if s.showsTabs then caret c else [c]
  else if s.showsOthers = false then [c]
  else if c < 128 then caret c
  else [77, 45] ++ caret (c - 128)

/-- Where a copy is in the text. -/
structure Progress where
  next : Nat := 1
  atStart : Bool := true
  /-- The line before this one has no text. -/
  afterBlank : Bool := false
  /-- A carriage return is held back, which is shown if the line ends after it. -/
  returning : Bool := false

/-- What becomes of one byte. -/
def step (style : CopyStyle) (s : Progress) (c : UInt8) : Progress × Bytes :=
  let blank := s.atStart && c = newline
  if blank ∧ s.afterBlank ∧ style.squeezed then (s, [])
  else
    let counts := style.numbered && s.atStart && !(blank && style.skipsBlank)
    let number := if counts then padLeft 6 (Bytes.ofNat s.next) ++ [9] else []
    let holds := c = 13 && style.marksEnds && !style.showsOthers
    let held := if s.returning = false then [] else if c = newline then caret 13 else [13]
    let text :=
      if holds then []
      else if c = newline then (if style.marksEnds then [36, newline] else [newline])
      else style.shown c
    ({ next := if counts then s.next + 1 else s.next
       atStart := c = newline
       afterBlank := blank
       returning := holds }, number ++ held ++ text)

/-- What becomes of a block. -/
def block (style : CopyStyle) (s : Progress) (bytes : Bytes) : Progress × Bytes :=
  if style.isPlain then (s, bytes)
  else
    let (s, out) := bytes.foldl (fun (s, out) c =>
      let (s, piece) := style.step s c
      (s, piece.reverse ++ out)) (s, [])
    (s, out.reverse)

end CopyStyle

/-- Copies one operand to the output. -/
def copyOperand (r : Request) (style : CopyStyle) (s : CopyStyle.Progress) (operand : Bytes) :
    Prog (CopyStyle.Progress × Bool) := do
  let result ← withOperand operand fun fd => do
    if ← feedsItself fd then
      r.complain (Quoted.plainForShell operand ++ utf8 ": input file is output file")
      return none
    else
      let copy (s : CopyStyle.Progress) (bytes : Bytes) : Prog (CopyStyle.Progress × Bool) := do
        let (s, out) := style.block s bytes
        let ok ← emit 1 out
        return (s, !ok)
      match ← forEachBlock fd copySize copy s with
      | .ok s => return some s
      | .error errno =>
        r.blame operand errno
        return none
  match result with
  | .ok (some s) => return (s, true)
  | .ok none => return (s, false)
  | .error errno =>
    r.blame operand errno
    return (s, false)

/-- Copies files to the output. -/
def cat (r : Request) : Prog Nat := do
  let style := CopyStyle.ofRequest r
  let (s, ok) ← r.inputs.foldlM (fun (s, ok) operand => do
    let (s, copied) ← copyOperand r style s operand
    return (s, ok && copied)) (({} : CopyStyle.Progress), true)
  if s.returning then say [13]
  return codeOf ok

/-! ### Several places -/

/-- What is done when something cannot be written. -/
structure Diligence where
  /-- A pipe that nobody reads is complained about too. -/
  minding : Bool := false
  /-- The program ends. -/
  ending : Bool := false
  deriving DecidableEq, Repr, Inhabited

/-- What `tee` is asked to do when something cannot be written; nothing if the signal for a pipe that
nobody reads is to end it. -/
def Diligence.ofRequest (r : Request) : Except Objection (Option Diligence) :=
  let careless : Diligence := {}
  let chosen := r.options.foldlM (fun chosen o =>
    match o with
    | (.letter 'p', _) | (.word "output-error", []) =>
      .ok (some (if o.1 = .letter 'p' then careless else { minding := true }))
    | (.word "output-error", text) => do
      let how ← chooseWord "--output-error"
        [("warn", ({ minding := true } : Diligence)), ("warn-nopipe", {}),
          ("exit", { minding := true, ending := true }), ("exit-nopipe", { ending := true })] text
      return some how
    | _ => .ok chosen) none
  chosen

/-- Opens files for writing, and complains about those that cannot be opened. -/
def openAll (r : Request) (append : Bool) : List Bytes → Prog (List (Nat × Bytes) × Bool)
  | [] => return ([], true)
  | path :: rest => do
    match ← openForWriting path append with
    | .ok fd =>
      let (places, ok) ← openAll r append rest
      return ((fd, path) :: places, ok)
    | .error errno =>
      r.blame path errno
      let (places, _) ← openAll r append rest
      return (places, false)

/-- Writes a block to several places: those to which it could be written, and whether nothing is to
be complained about. -/
def spread (r : Request) (how : Diligence) (bytes : Bytes) :
    List (Nat × Bytes) → Prog (List (Nat × Bytes) × Bool)
  | [] => return ([], true)
  | (fd, label) :: rest => do
    match ← Prog.writeAll fd bytes with
    | .ok () =>
      let (places, ok) ← spread r how bytes rest
      return ((fd, label) :: places, ok)
    | .error errno =>
      let minded := errno ≠ Errno.brokenPipe || how.minding
      if minded then r.blame label errno
      if minded && how.ending then Prog.exit 1
      else
        let (places, ok) ← spread r how bytes rest
        return (places, ok && !minded)

/-- Copies the input to the output and to files. -/
def tee (r : Request) : Prog Nat := do
  match Diligence.ofRequest r with
  | .error objection => r.object 1 objection
  | .ok how =>
    if how.isSome then
      let _ ← Prog.ask (.dispose Signal.pipe .ignore)
    if r.has 'i' then
      let _ ← Prog.ask (.dispose Signal.interrupt .ignore)
    let (files, ok) ← openAll r (r.has 'a') r.operands
    let start := ((1, utf8 "standard output") :: files, ok)
    let result ← forEachBlock 0 blockSize (fun (places, ok) bytes => do
        let (places, good) ← spread r (how.getD {}) bytes places
        return ((places, ok && good), places.isEmpty)) start
    match result with
    | .ok (_, ok) => return codeOf ok
    | .error errno =>
      r.complainOf (utf8 "read error") errno
      return 1

end JobShell.Programs
