/-
**Permissions as they are written.**

Permissions are written in octal digits, or as clauses that say who gets, keeps or loses which.  A
clause that names nobody is about everybody, and leaves alone what new files do not get.

Main definitions:

* `JobShell.Permissions.Step` — one change of permissions;
* `JobShell.Permissions.read?` — the changes that a text writes;
* `JobShell.Permissions.apply` — what they make of permissions;
* `JobShell.Permissions.letters` — permissions in letters.
-/

import JobShell.Number

set_option autoImplicit false

namespace JobShell.Permissions

/-- All bits of permissions. -/
def allBits : Nat := 0o7777

/-- The bits that give a program the identity of the owner or of the group. -/
def identityBits : Nat := 0o6000

/-- Some bits without others. -/
def without (bits others : Nat) : Nat := bits &&& (allBits ^^^ (others &&& allBits))

/-- Where the bits of a change come from. -/
inductive Source where
  | plain
  /-- They are those that somebody has. -/
  | copied
  /-- They allow running too, for a directory and for what somebody may run. -/
  | running
  deriving DecidableEq, Repr, Inhabited

/-- One change of permissions. -/
structure Step where
  /-- A plus sign, a minus sign or an equals sign. -/
  operator : UInt8
  /-- The bits of those who are named; none if nobody is. -/
  affected : Nat
  bits : Nat
  source : Source := .plain
  /-- The bits that a directory may lose or get. -/
  mentioned : Nat
  deriving DecidableEq, Repr, Inhabited

/-! ### Reading -/

/-- The bits of those whom letters name. -/
def affectedBits (names : Bytes) : Nat :=
  names.foldl (fun bits c =>
    bits ||| (if c = 117 then 0o4700 else if c = 103 then 0o2070 else if c = 111 then 0o1007
      else allBits)) 0

/-- The bits that letters for permissions mean. -/
def letterBits (letters : Bytes) : Nat :=
  letters.foldl (fun bits c =>
    bits ||| (if c = 114 then 0o444 else if c = 119 then 0o222 else if c = 120 then 0o111
      else if c = 115 then 0o6000 else if c = 116 then 0o1000 else 0)) 0

/-- Reads what stands after an operator, and gives the rest. -/
def readStep? (names : Bytes) (operator : UInt8) (s : Bytes) : Option (Step × Bytes) :=
  let affected := affectedBits names
  let step (bits : Nat) (source : Source) (rest : Bytes) : Option (Step × Bytes) :=
    some ({ operator := operator, affected := affected, bits := bits, source := source
            mentioned := if affected = 0 then bits else affected &&& bits }, rest)
  match s with
  | c :: rest =>
    if isOctal c then
      let (value, used) := digitsInFront 8 octalDigit? s.length s
      let rest := s.drop used
      if allBits < value ∨ names ≠ [] ∨ (rest ≠ [] ∧ rest.head? ≠ some 44) then none
      else some ({ operator, affected := allBits, bits := value, mentioned := allBits }, rest)
    else if c = 117 then step 0o700 .copied rest
    else if c = 103 then step 0o070 .copied rest
    else if c = 111 then step 0o007 .copied rest
    else
      let letters := s.takeWhile fun c => (utf8 "rwxXst").contains c
      step (letterBits letters) (if letters.contains 88 then .running else .plain)
        (s.drop letters.length)
  | [] => step 0 .plain []

/-- Reads the operators of a clause, each with what stands after it, up to a comma.  The number bounds
the steps. -/
def readSteps? (names : Bytes) : Nat → Bytes → Option (List Step × Bytes)
  | 0, _ => none
  | n + 1, s =>
    match s with
    | c :: rest =>
      if (utf8 "+-=").contains c then do
        let (step, rest) ← readStep? names c rest
        match rest with
        | [] => return ([step], [])
        | 44 :: rest => return ([step], rest)
        | _ =>
          let (steps, rest) ← readSteps? names n rest
          return (step :: steps, rest)
      else none
    | [] => none

/-- Reads clauses.  The number bounds the steps. -/
def readClauses? : Nat → Bytes → Option (List Step)
  | 0, _ => none
  | n + 1, s => do
    let names := s.takeWhile fun c => (utf8 "ugoa").contains c
    let (steps, rest) ← readSteps? names (s.length + 1) (s.drop names.length)
    if rest = [] then
      if s.getLast? = some 44 then none else return steps
    else return steps ++ (← readClauses? n rest)

/-- The changes that a text writes. -/
def read? (text : Bytes) : Option (List Step) :=
  if (text.head?.map isOctal).getD false then
    let (value, used) := digitsInFront 8 octalDigit? text.length text
    if used < text.length ∨ allBits < value then none
    else
      let mentioned := if used < 5 then (value &&& 0o7000) ||| 0o777 else allBits
      some [{ operator := 61, affected := allBits, bits := value, mentioned := mentioned }]
  else readClauses? (text.length + 1) text

/-! ### Applying -/

/-- The bits of a change, given the permissions before it. -/
def Step.value (s : Step) (directory : Bool) (mode : Nat) : Nat :=
  match s.source with
  | .plain => s.bits
  | .copied =>
    let kept := s.bits &&& mode
    let spread (bits : Nat) : Nat := if kept &&& bits ≠ 0 then bits else 0
    spread 0o444 ||| spread 0o222 ||| spread 0o111
  | .running => if directory ∨ mode &&& 0o111 ≠ 0 then s.bits ||| 0o111 else s.bits

/-- What one change makes of permissions. -/
def Step.apply (directory : Bool) (mask : Nat) (mode : Nat) (s : Step) : Nat :=
  let omitted := if directory then without identityBits s.mentioned else 0
  let limit := if s.affected = 0 then without allBits mask else s.affected
  let value := without (s.value directory mode &&& limit) omitted
  if s.operator = 43 then mode ||| value
  else if s.operator = 45 then without mode value
  else
    let preserved := (if s.affected = 0 then 0 else without allBits s.affected) ||| omitted
    (mode &&& preserved) ||| value

/-- What changes make of permissions; `mask` are those that new files do not get. -/
def apply (directory : Bool) (mask : Nat) (steps : List Step) (mode : Nat) : Nat :=
  steps.foldl (Step.apply directory mask) mode

/-! ### Writing -/

/-- Permissions in letters.  An identity and the mark of a shared directory stand in the place of the
permission to run. -/
def letters (mode : Nat) : Bytes :=
  let three (shift special : Nat) (small capital : UInt8) : Bytes :=
    let bits := mode >>> shift
    let runs := bits &&& 1 ≠ 0
    [if bits &&& 4 ≠ 0 then 114 else 45, if bits &&& 2 ≠ 0 then 119 else 45,
      if mode &&& special ≠ 0 then (if runs then small else capital)
      else if runs then 120 else 45]
  three 6 0o4000 115 83 ++ three 3 0o2000 115 83 ++ three 0 0o1000 116 84

/-- Permissions in octal digits, so many at least. -/
def octal (least mode : Nat) : Bytes :=
  let digits := utf8 (String.ofList (Nat.toDigits 8 mode))
  List.replicate (least - digits.length) 48 ++ digits

end JobShell.Permissions
