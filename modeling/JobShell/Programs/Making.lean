/-
**Programs that make files.**

Main definitions:

* `JobShell.Programs.touch` — making files that are not there, and giving files another time;
* `JobShell.Programs.mkfifo`, `JobShell.Programs.mkdir` — making fifos and directories;
* `JobShell.Programs.Resizing`, `JobShell.Programs.truncate` — giving files another size.
-/

import JobShell.Programs.Tree
import JobShell.Programs.Size
import JobShell.Text.Permissions

set_option autoImplicit false

namespace JobShell.Programs

/-! ### Times -/

/-- The numbers that pairs of digits write. -/
def digitPairs? : Bytes → Option (List Nat)
  | [] => some []
  | a :: b :: rest => do return (← digits? [a, b]) :: (← digitPairs? rest)
  | _ => none

/-- How many days a month has in a year, which is given by its last pair of digits and the first. -/
def daysIn (month : Nat) (year : List Nat) : Nat :=
  let leap := match year with
    | [] => false
    | 0 :: century :: _ => century % 4 = 0
    | y :: _ => y % 4 = 0
  if month = 2 then (if leap then 29 else 28)
  else if [4, 6, 9, 11].contains month then 30
  else 31

/-- Whether a text writes a time: perhaps a year, then month, day, hour and minute in two digits
each, and perhaps seconds after a point. -/
def isStamp (text : Bytes) : Bool :=
  let (front, back) := text.span (· ≠ 46)
  let seconds := match back with
    | [] => true
    | _ :: digits => digits.length = 2 && (digits? digits).any (· ≤ 60)
  match (digitPairs? front).map List.reverse with
  | some (minute :: hour :: day :: month :: year) =>
    seconds && minute < 60 && hour < 24 && 1 ≤ month && month ≤ 12 && 1 ≤ day
      && day ≤ daysIn month year && year.length ≤ 2
  | _ => false

/-- Gives a file the time of now.  Its owner may do that, and those who may write it. -/
def stamp (path : Bytes) (follow : Bool) : Prog (Except Errno Unit) := do
  match ← Prog.ask (.status path follow) with
  | .error errno => return .error errno
  | .ok status =>
    if follow = false then return .ok ()
    else
      match ← Prog.ask (.alter (.setMode path status.mode)) with
      | .ok () => return .ok ()
      | .error _ => Prog.ask (.access path .write)

/-- Makes a file, unless it is there; gives the error if that fails.  Nothing is made of a fifo, which
would have to wait for a reader. -/
def makeSure (path : Bytes) : Prog (Option Errno) := do
  match ← statusOf? path true with
  | some { content := .fifo _, .. } => return none
  | _ =>
    match ← Prog.ask (.openPath path { write := true, create := true } 0o666) with
    | .ok fd =>
      let _ ← Prog.ask (.close fd)
      return none
    | .error errno => return some errno

/-- Gives one file another time, and makes it if that is to be done. -/
def touchFile (r : Request) (path : Bytes) : Prog Bool := do
  let asItIs := r.has 'c' || r.has 'h'
  let failed ← if asItIs then pure none else makeSure path
  match ← stamp path (!r.has 'h'), failed with
  | .ok (), _ => return true
  | .error errno, none => complainOfTime errno
  | .error errno, some other =>
    if other = Errno.isDirectory then complainOfTime errno
    else
      r.complainOf (utf8 "cannot touch " ++ Quoted.forShell path) other
      return false
where
  complainOfTime (errno : Errno) : Prog Bool := do
    if r.has 'c' ∧ errno = Errno.noEntry then return true
    else
      r.complainOf (utf8 "setting times of " ++ Quoted.forShell path) errno
      return false

/-- The complaint about a file whose time is wanted, if there is no such file. -/
def missingReference (r : Request) : Prog Bool := do
  match r.argument? 'r' with
  | none => return false
  | some path =>
    match ← Prog.ask (.status path (!r.has 'h')) with
    | .ok _ => return false
    | .error errno =>
      r.complainOf (utf8 "failed to get attributes of " ++ Quoted.forShell path) errno
      return true

/-- Gives files another time, and makes those that are not there. -/
def touch (r : Request) : Prog Nat := do
  let kinds := [("atime", 'a'), ("access", 'a'), ("use", 'a'), ("mtime", 'm'), ("modify", 'm')]
  match (r.argumentsOf (.word "time")).mapM (chooseWord "--time" kinds) with
  | .error objection => r.object 1 objection
  | .ok _ =>
    match (r.arguments 't').find? fun text => !isStamp text with
    | some text =>
      r.complain (utf8 "invalid date format " ++ Quoted.escaped text)
      return 1
    | none =>
      if r.has 't' ∧ (r.has 'r' ∨ r.has 'd') then
        r.refuse (utf8 "cannot specify times from more than one source")
      else if ← missingReference r then return 1
      else if r.operands = [] then missingFile r
      else
        codeOf <$> forEach r.operands fun path =>
          if path = dash then return true else touchFile r path

/-! ### Fifos and directories -/

/-- What the option `m` makes of permissions, if it stands there. -/
def givenMode (r : Request) (directory : Bool) (start : Nat) :
    Prog (Except Bytes (Option Nat)) := do
  match r.argument? 'm' with
  | none => return .ok none
  | some text =>
    match Permissions.read? text with
    | none => return .error text
    | some steps =>
      return .ok (some (Permissions.apply directory (← currentMask) steps start))

/-- Makes fifos. -/
def mkfifo (r : Request) : Prog Nat := do
  if r.operands = [] then r.missingOperand
  else
    match ← givenMode r false 0o666 with
    | .error _ =>
      r.complain (utf8 "invalid mode")
      return 1
    | .ok given =>
      if (given.getD 0) &&& 0o7000 ≠ 0 then
        r.complain (utf8 "mode must specify only file permission bits")
        return 1
      else
        codeOf <$> forEach r.operands fun path => do
          let name := Quoted.forShell path
          let mode := given.getD 0o666
          if ← change r (utf8 "cannot create fifo " ++ name) (.makeFifo path mode) then
            if given.isSome then
              change r (utf8 "cannot set permissions of " ++ name) (.setMode path mode)
            else return true
          else return false

/-- Makes a directory. -/
def makeDirectory (r : Request) (path : Bytes) (mode : Option Nat) : Prog Bool := do
  let name := Quoted.forShell path
  let ok ← changeAndTell r (utf8 "cannot create directory " ++ name)
    (r.name ++ utf8 ": created directory " ++ name) (.makeDirectory path (mode.getD 0o777))
  match ok, mode with
  | true, some mode =>
    change r (utf8 "cannot set permissions of " ++ name) (.setMode path mode)
  | _, _ => return ok

/-- The parts at the beginning of a path that lead to directories on the way to it. -/
def ancestors (path : Bytes) : List Bytes :=
  let stem := dropSlashes path
  (List.range stem.length).filterMap fun i =>
    if 0 < i ∧ stem[i]? = some slash ∧ stem[i - 1]? ≠ some slash then some (stem.take i) else none

/-- Makes a directory on the way to another one, unless it is there.  Its owner may use it, whatever
new files do not get. -/
def makeAncestor (r : Request) (mask : Nat) (path : Bytes) : Prog Bool := do
  let name := Quoted.forShell path
  let what := utf8 "cannot create directory " ++ name
  let enter : Prog Bool := do
    match ← Prog.ask (.access path .execute) with
    | .ok () => return true
    | .error errno =>
      r.complainOf what errno
      return false
  match ← Prog.ask (.status path true) with
  | .ok { content := .directory _ _, .. } => enter
  | .ok _ =>
    r.complainOf what Errno.notDirectory
    return false
  | .error _ =>
    if ← makeDirectory r path none then
      if mask &&& 0o300 = 0 then return true
      else change r what (.setMode path (Permissions.without 0o777 mask ||| 0o300))
    else return false

/-- Makes directories, with those on the way to them if that is asked for. -/
def mkdir (r : Request) : Prog Nat := do
  if r.operands = [] then r.missingOperand
  else
    match ← givenMode r true 0o777 with
    | .error text =>
      r.complain (utf8 "invalid mode " ++ Quoted.escaped text)
      return 1
    | .ok mode =>
      let mask ← currentMask
      codeOf <$> forEach r.operands fun path => do
        if r.has 'p' = false then makeDirectory r path mode
        else
          let ready ← (ancestors path).foldlM (fun ready part =>
            if ready then makeAncestor r mask part else return false) true
          if ready = false then return false
          else if ← isDirectory path true then return true
          else makeDirectory r path mode

/-! ### Sizes -/

/-- Another size for files. -/
structure Resizing where
  /-- What relates the number to a size that there is; the number is the size without it. -/
  relation : Option UInt8 := none
  number : Int := 0
  /-- The number counts blocks of storage. -/
  blocks : Bool := false

namespace Resizing

/-- How many bytes a block of storage has. -/
def blockBytes : Int := 4096

/-- The greatest size that a file is given. -/
def limit : Nat := twoTo 24

/-- Reads a number after a relation, if there is one. -/
def read (text : Bytes) : Except Objection Resizing := do
  let skip (s : Bytes) : Bytes := s.dropWhile fun c => c = 32 || (9 ≤ c && c ≤ 13)
  let text := skip text
  let sign := text.head?.filter fun c => (utf8 "<>/%").contains c
  let text := if sign.isSome then skip (text.drop 1) else text
  let signed := text.head?.any fun c => c = 43 || c = 45
  if signed ∧ sign.isSome then throw (.misuse (utf8 "multiple relative modifiers specified"))
  let number ← wholeOr "EgGkKmMPQRtTYZ0" "Invalid number" (-twoTo 63) (twoTo 63 - 1) text
  let relation := if signed then some 43 else sign
  if number = 0 ∧ (relation = some 47 ∨ relation = some 37) then
    throw (.plain (utf8 "division by zero"))
  return { relation := relation, number := number }

/-- The size that takes the place of another one. -/
def apply (z : Resizing) (size : Int) : Nat :=
  let number := if z.blocks then z.number * blockBytes else z.number
  let wanted : Int := match z.relation with
    | none => number
    | some 62 => max size number
    | some 60 => min size number
    | some 47 => size / number * number
    | some 37 => (size + number - 1) / number * number
    | some _ => size + number
  wanted.toNat

end Resizing

/-- The size of a file, as far as it is storage. -/
def storedSize (status : FileStatus) : Nat :=
  match status.content with
  | .file data => data.length
  | _ => 0

/-- Gives one file another size, relative to its own or a given one. -/
def resizeFile (r : Request) (z : Resizing) (reference : Option Nat) (path : Bytes) :
    Prog Bool := do
  let name := Quoted.forShell path
  match ← Prog.ask (.openPath path { write := true, create := !r.has 'c' } 0o666) with
  | .error errno =>
    if r.has 'c' ∧ errno = Errno.noEntry then return true
    else
      r.complainOf (utf8 "cannot open " ++ name ++ utf8 " for writing") errno
      return false
  | .ok fd =>
    let own ← statusOf? path true
    let size := z.apply (reference.getD ((own.map storedSize).getD 0))
    let result ← if Resizing.limit < size then pure (.error Errno.fileTooLarge)
      else Prog.ask (.resize fd size)
    let _ ← Prog.ask (.close fd)
    match result with
    | .ok () => return true
    | .error errno =>
      r.complainOf (utf8 "failed to truncate " ++ name ++ utf8 " at " ++ Bytes.ofNat size
        ++ utf8 " bytes") errno
      return false

/-- Gives files another size. -/
def truncate (r : Request) : Prog Nat := do
  let reference := r.argument? 'r'
  match (r.arguments 's').mapM Resizing.read with
  | .error objection => r.object 1 objection
  | .ok sizes =>
    match sizes.getLast?, reference with
    | none, none => r.refuse (utf8 "you must specify either '--size' or '--reference'")
    | none, some other =>
      if r.has 'o' then r.refuse (utf8 "'--io-blocks' was specified but '--size' was not")
      else resizeAll { relation := some 43 } (some other)
    | some z, none => resizeAll { z with blocks := r.has 'o' } none
    | some z, some other =>
      if z.relation.isNone then
        r.refuse (utf8 "you must specify a relative '--size' with '--reference'")
      else resizeAll { z with blocks := r.has 'o' } (some other)
where
  resizeAll (z : Resizing) (reference : Option Bytes) : Prog Nat := do
    match r.operands, reference with
    | [], _ => missingFile r
    | paths, none => codeOf <$> forEach paths (resizeFile r z none)
    | paths, some other =>
      match ← Prog.ask (.status other true) with
      | .error errno =>
        r.complainOf (utf8 "cannot stat " ++ Quoted.forShell other) errno
        return 1
      | .ok status => codeOf <$> forEach paths (resizeFile r z (some (storedSize status)))

end JobShell.Programs
