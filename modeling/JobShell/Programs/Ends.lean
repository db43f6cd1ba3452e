/-
**The beginning and the end of a text.**

Main definitions:

* `JobShell.Programs.Extent` — how much of a text is meant;
* `JobShell.Programs.head` — copying the beginning of files;
* `JobShell.Programs.tail` — copying the end of files.
-/

import JobShell.Programs.Size
import JobShell.Programs.Status
import JobShell.Programs.Tree

set_option autoImplicit false

namespace JobShell.Programs

/-! ### Extents -/

/-- A part at one end of a text, by its size. -/
structure Extent where
  count : Nat := 10
  /-- The count is of bytes, and not of lines. -/
  bytes : Bool := false
  /-- The part is all but what the count would give. -/
  inverted : Bool := false
  /-- The byte that ends lines. -/
  mark : UInt8 := newline
  deriving Repr, Inhabited

namespace Extent

/-- The units of counts. -/
def units : String := "bkKmMGTPEZYRQ0"

/-- What a count is called that makes no sense. -/
def what (bytes : Bool) : String :=
  if bytes then "invalid number of bytes" else "invalid number of lines"

/-- The extent of a count. -/
def read (bytes inverted : Bool) (text : Bytes) : Except Bytes Extent :=
  match readSize units text with
  | .ok n => .ok { count := n, bytes := bytes, inverted := inverted }
  | .error e => .error (e.complaint (what bytes) text)

/-- The lines of a text. -/
def linesOf (e : Extent) (text : Bytes) : List Bytes := text.cutAfter e.mark

/-- All but the last bytes or lines of a text. -/
def dropEnd (e : Extent) (text : Bytes) : Bytes :=
  if e.bytes then text.take (text.length - e.count)
  else
    let lines := e.linesOf text
    (lines.take (lines.length - e.count)).flatten

/-- The last bytes or lines of a text, or those from the one with the number of the count on. -/
def takeEnd (e : Extent) (text : Bytes) : Bytes :=
  match e.bytes, e.inverted with
  | true, false => text.drop (text.length - e.count)
  | true, true => text.drop (e.count - 1)
  | false, false =>
    let lines := e.linesOf text
    (lines.drop (lines.length - e.count)).flatten
  | false, true => ((e.linesOf text).drop (e.count - 1)).flatten

end Extent

/-- Runs a function on each operand, with headings if there are several operands or if they are
asked for. -/
def forEachFile (r : Request) (heading : Option Bool) (body : Nat → Prog (Except Errno Unit)) :
    Prog Nat := do
  let headings := heading.getD (1 < r.operands.length)
  let visit (state : Bool × Bool) (operand : Bytes) : Prog (Bool × Bool) := do
    let (first, ok) := state
    let label := if operand = dash then utf8 "standard input" else operand
    let result ← withOperand operand fun fd => do
      if headings then
        say (utf8 ((if first then "" else "\n") ++ "==> ") ++ label ++ utf8 " <==\n")
      body fd
    match result with
    | .ok (.ok ()) => return (false, ok)
    | .ok (.error errno) =>
      r.complainOf (utf8 "error reading " ++ Quoted.forShell label) errno
      return (false, false)
    | .error errno =>
      r.complainOf (utf8 "cannot open " ++ Quoted.forShell operand ++ utf8 " for reading") errno
      return (first, false)
  let (_, ok) ← r.inputs.foldlM visit (true, true)
  return codeOf ok

/-- Whether headings are asked for, or refused. -/
def headingOf (r : Request) : Option Bool :=
  match r.lastOf "qv" with
  | some 'v' => some true
  | some _ => some false
  | none => none

/-- The digits at the front of a text, and the rest. -/
def splitDigits (text : Bytes) : Bytes × Bytes :=
  text.span fun c => (digit? c).isSome

/-! ### The beginning -/

/-- The first lines of a text up to a count, the rest, and how many lines are still missing. -/
def takeLines (mark : UInt8) : Nat → Bytes → Bytes × Bytes × Nat
  | 0, s => ([], s, 0)
  | n + 1, [] => ([], [], n + 1)
  | n + 1, c :: s =>
    let (front, rest, missing) := takeLines mark (if c = mark then n else n + 1) s
    (c :: front, rest, missing)

/-- Gives bytes back that were read too far, if the file has a position. -/
def giveBack (fd count : Nat) : Prog Unit := do
  if 0 < count then
    let _ ← Prog.ask (.seek fd .here (-(count : Int)))

/-- Copies the first bytes of a descriptor. -/
def headBytes (fd count : Nat) : Prog (Except Errno Unit) :=
  Prog.repeatWhile
    (fun left => do
      if left = 0 then return .inr (.ok ())
      else
        match ← Prog.ask (.read fd (min left blockSize)) with
        | .error errno => return .inr (.error errno)
        | .ok bytes =>
          if bytes = [] then return .inr (.ok ())
          else do
            say bytes
            return .inl (left - bytes.length))
    (fun _ => .ok ()) count

/-- Copies the first lines of a descriptor, and gives back what was read beyond them. -/
def headLines (e : Extent) (fd : Nat) : Prog (Except Errno Unit) := do
  if e.count = 0 then return .ok ()
  let result ← forEachBlock fd blockSize (fun left bytes => do
      let (front, rest, missing) := takeLines e.mark left bytes
      if missing = 0 then giveBack fd rest.length
      say front
      return (missing, missing = 0)) e.count
  match result with
  | .ok _ => return .ok ()
  | .error errno => return .error errno

/-- Copies all but the end of a descriptor, and gives the end back. -/
def headAllBut (e : Extent) (fd : Nat) : Prog (Except Errno Unit) := do
  match ← readAll fd with
  | .error errno => return .error errno
  | .ok text =>
    let kept := e.dropEnd text
    say kept
    giveBack fd (text.length - kept.length)
    return .ok ()

/-- Letters that may follow a number in the word of an option. -/
def applyTrailing (e : Extent) (heading : Option Bool) (digits : Bytes) :
    Bytes → Except Bytes (Extent × Option Bool)
  | [] => .ok (e, heading)
  | c :: rest =>
    match Char.ofNat c.toNat with
    | 'c' => applyTrailing { e with bytes := true } heading digits rest
    | 'b' | 'k' | 'm' => do
      let count := (readSize Extent.units (digits ++ [c])).toOption.getD 0
      applyTrailing { e with bytes := true, count := count } heading digits rest
    | 'l' => applyTrailing { e with bytes := false } heading digits rest
    | 'q' => applyTrailing e (some false) digits rest
    | 'v' => applyTrailing e (some true) digits rest
    | 'z' => applyTrailing { e with mark := nul } heading digits rest
    | _ => .error (utf8 "invalid trailing option -- " ++ [c])

/-- The extent that a first word with a number asks for. -/
def headAhead (words : List Bytes) : Except Bytes ((Extent × Option Bool) × List Bytes) :=
  match words with
  | (45 :: c :: text) :: rest =>
    if (digit? c).isSome then do
      let (digits, letters) := splitDigits (c :: text)
      let given ← applyTrailing { count := (digits? digits).getD 0 } none digits letters
      return (given, rest)
    else .ok (({}, none), words)
  | _ => .ok (({}, none), words)

/-- The options of `head`. -/
def headOptions : OptionSet :=
  .ofText "c:n:qvz0123456789"
    ["bytes:=c", "lines:=n", "-presume-input-pipe", "quiet=q", "silent=q", "verbose=v",
      "zero-terminated=z"]

/-- The extent that options ask for, after what a first word has asked for. -/
def headExtent (r : Request) (e : Extent) : Except Bytes Extent :=
  r.options.foldlM (fun e o =>
    match o with
    | (.letter 'z', _) => .ok { e with mark := nul }
    | (.letter letter, text) =>
      if letter = 'c' ∨ letter = 'n' then
        let inverted := text.head? = some 45
        (Extent.read (letter = 'c') inverted (if inverted then text.drop 1 else text)).map
          fun given => { given with mark := e.mark }
      else .ok e
    | _ => .ok e) e

/-- Copies the first part of files. -/
def head (r : Request) : Prog Nat := do
  match headAhead r.operands with
  | .error text => r.refuse text
  | .ok ((e, heading), words) =>
    match Request.read headOptions false (r.name :: words) r.environment with
    | .error refusal => r.refuse refusal.message
    | .ok r =>
      match r.letters.find? Char.isDigit, headExtent r e with
      | some c, _ => r.refuse (utf8 "invalid trailing option -- " ++ [c.toUInt8])
      | none, .error text =>
        r.complain text
        return 1
      | none, .ok e =>
        forEachFile r ((headingOf r).or heading) fun fd =>
          if e.inverted then headAllBut e fd
          else if e.bytes then headBytes fd e.count
          else headLines e fd

/-! ### The end -/

/-- Hands all of a descriptor to a function, and writes what it makes of it. -/
def sayPart (part : Bytes → Bytes) (fd : Nat) : Prog (Except Errno Unit) := do
  match ← readAll fd with
  | .ok text =>
    say (part text)
    return .ok ()
  | .error errno => return .error errno

/-- Whether words can hold a number in the first of them: at most one operand follows. -/
def allowsNumber (words : List Bytes) : Bool :=
  match words with
  | [_] => true
  | [_, operand] => operand = dash || operand.head? ≠ some 45 || operand = [45, 45]
  | [_, second, _] => second = [45, 45]
  | _ => false

/-- The extent that a first word with a number asks for. -/
def tailAhead (words : List Bytes) : Option (Except Bytes Extent × List Bytes) :=
  match words with
  | (sign :: text) :: rest =>
    let (digits, letters) := splitDigits text
    let unit := letters.headD 0
    let known := letters = [] || letters = [98] || letters = [99] || letters = [108]
    let named := if sign = 45 then text ≠ [] && text ≠ [99] else sign = 43
    if allowsNumber words ∧ named ∧ known then
      let factor := if unit = 98 then 512 else 1
      let count := if digits = [] then 10 else (digits? digits).getD 0
      let e : Extent :=
        { count := count * factor, bytes := unit = 98 || unit = 99, inverted := sign = 43 }
      let rest := if rest.head? = some [45, 45] then rest.drop 1 else rest
      some (.ok e, rest)
    else none
  | _ => none

/-- The options of `tail`. -/
def tailOptions : OptionSet :=
  .ofText "c:n:fFqs:vz0123456789"
    ["bytes:=c", "follow::", "lines:=n", "max-unchanged-stats:", "-disable-inotify",
      "-presume-input-pipe", "pid:", "quiet=q", "retry", "silent=q", "sleep-interval:=s",
      "verbose=v", "zero-terminated=z"]

/-- The extent that options ask for.  Once a count is from the start it stays so. -/
def tailExtent (r : Request) : Except Bytes Extent :=
  r.options.foldlM (fun e o =>
    match o with
    | (.letter 'z', _) => .ok { e with mark := nul }
    | (.letter letter, text) =>
      if letter = 'c' ∨ letter = 'n' then
        let inverted := e.inverted || text.head? = some 43
        let text := if text.head? = some 45 then text.drop 1 else text
        (Extent.read (letter = 'c') inverted text).map fun given => { given with mark := e.mark }
      else .ok e
    | _ => .ok e) {}

/-- Copies the end of files. -/
def tailFiles (r : Request) (e : Extent) : Prog Nat := do
  if r.hasWord "retry" ∧ (r.has 'f' || r.hasWord "follow") = false then
    r.complain (utf8 "warning: --retry ignored; --retry is useful only when following")
  if r.hasWord "pid" ∧ (r.has 'f' || r.has 'F' || r.hasWord "follow") = false then
    r.complain (utf8 "warning: PID ignored; --pid=PID is useful only when following")
  let follows := r.has 'f' || r.has 'F' || r.hasWord "follow"
  if e.count = 0 ∧ e.inverted = false ∧ follows = false then return 0
  else
    let code ← forEachFile r (headingOf r) (sayPart e.takeEnd)
    if follows = false ∨ (r.operands.all (· = dash)) then return code
    else
      let found ← r.operands.anyM fun path => do return (← statusOf? path true).isSome
      if found ∨ r.has 'F' ∨ r.hasWord "retry" then
        Prog.ask (.sleep endless)
        return code
      else
        r.complain (utf8 "no files remaining")
        return 1

/-- Copies the last part of files. -/
def tail (r : Request) : Prog Nat := do
  match tailAhead r.operands with
  | some (.error text, _) =>
    r.complain text
    return 1
  | some (.ok e, operands) => tailFiles { r with operands := operands } e
  | none =>
    match Request.read tailOptions false (r.name :: r.operands) r.environment with
    | .error refusal => r.refuse refusal.message
    | .ok r =>
      match r.letters.find? Char.isDigit, tailExtent r with
      | some c, _ =>
        r.complain (utf8 "option used in invalid context -- " ++ [c.toUInt8])
        return 1
      | none, .error text =>
        r.complain text
        return 1
      | none, .ok e => tailFiles r e

end JobShell.Programs
