/-
**Ordering things after those that come before them.**

The input is a list of pairs.  Things before which nothing comes any more are written and taken away.
If nothing is left to take away, some things come before each other in a circle; a circle is looked
for backwards, and broken.

Main definitions:

* `JobShell.Programs.Precedence` — things, and what comes after them;
* `JobShell.Programs.Precedence.release` — taking away what nothing comes before;
* `JobShell.Programs.Precedence.circle` — looking for a circle;
* `JobShell.Programs.tsort` — the program.
-/

import JobShell.Programs.Request
import JobShell.Text.Collation

set_option autoImplicit false

namespace JobShell.Programs

/-- A thing in a precedence. -/
structure Ranked where
  name : Bytes
  /-- How many pairs have it as their second. -/
  count : Nat := 0
  /-- What comes after it, the last pair first. -/
  after : List Bytes := []
  deriving DecidableEq, Repr, Inhabited

/-- The things that are left, in the order of their names. -/
abbrev Precedence := List Ranked

namespace Precedence

/-- Adds a thing that is not there yet. -/
def insert (name : Bytes) : Precedence → Precedence
  | [] => [{ name }]
  | x :: rest =>
    match Collation.bytes name x.name with
    | .lt => { name } :: x :: rest
    | .eq => x :: rest
    | .gt => x :: insert name rest

/-- Changes the thing of a name. -/
def modify (name : Bytes) (change : Ranked → Ranked) (p : Precedence) : Precedence :=
  p.map fun x => if x.name = name then change x else x

/-- Adds a pair. -/
def relate (p : Precedence) (pair : Bytes × Bytes) : Precedence :=
  let (a, b) := pair
  let p := (p.insert a).insert b
  if a = b then p
  else
    (p.modify a fun x => { x with after := b :: x.after }).modify b fun x =>
      { x with count := x.count + 1 }

/-- Takes one from the pairs that a thing is the second of. -/
def lower (p : Precedence) (name : Bytes) : Precedence :=
  p.modify name fun x => { x with count := x.count - 1 }

/-- Takes one from each of several things, and gives those before which nothing comes any more. -/
def lowerAll : List Bytes → Precedence → List Bytes × Precedence
  | [], p => ([], p)
  | name :: rest, p =>
    let p := p.lower name
    let freed := p.any fun x => x.name = name && x.count = 0
    let (more, p) := lowerAll rest p
    (if freed then name :: more else more, p)

/-- Takes things away from a queue and puts those into it before which nothing comes any more; gives
the things in order.  The number bounds the steps. -/
def release : Nat → List Bytes → Precedence → List Bytes × Precedence
  | 0, _, p | _, [], p => ([], p)
  | n + 1, name :: queue, p =>
    let after := ((p.find? (·.name = name)).map (·.after)).getD []
    let (freed, p) := lowerAll after (p.filter (·.name ≠ name))
    let (out, p) := release n (queue ++ freed) p
    (name :: out, p)

/-- Goes through all things once: a thing comes in front of a path if it comes before the one in
front.  If the thing is already further back in the path, there is a circle: the names from the front
to the thing. -/
def extend : List Bytes → Precedence → List Bytes ⊕ List Bytes
  | path, [] => .inl path
  | path, x :: rest =>
    if x.count = 0 then extend path rest
    else
      match path with
      | [] => extend [x.name] rest
      | front :: _ =>
        if x.after.contains front = false then extend path rest
        else if path.dropLast.contains x.name then
          .inr (path.takeWhile (· ≠ x.name) ++ [x.name])
        else extend (x.name :: path) rest

/-- A circle, from a thing to one that comes before it.  The number bounds the rounds. -/
def circle : Nat → List Bytes → Precedence → List Bytes
  | 0, path, _ => path
  | n + 1, path, p =>
    match extend path p with
    | .inl path => circle n path p
    | .inr found => found

/-- Breaks a circle. -/
def breakAt (p : Precedence) (found : List Bytes) : Precedence :=
  let front := found.headD []
  (p.modify (found.getLastD []) fun x => { x with after := x.after.erase front }).lower front

end Precedence

/-- The words of a text. -/
def wordsOf (text : Bytes) : List Bytes :=
  (Bytes.splitAt 32 (text.map fun c => if c = 9 ∨ c = newline then 32 else c)).filter (· ≠ [])

/-- The pairs of words; nothing if a word is left over. -/
def pairs? : List Bytes → Option (List (Bytes × Bytes))
  | [] => some []
  | [_] => none
  | a :: b :: rest => (pairs? rest).map ((a, b) :: ·)

/-- Writes things in order, and complains about circles.  The number bounds the rounds. -/
def writeInOrder (r : Request) (label : Bytes) (relations : Nat) :
    Nat → Bool → Precedence → Prog Nat
  | 0, ok, _ => return codeOf ok
  | n + 1, ok, p => do
    let queue := (p.filter (·.count = 0)).map (·.name)
    let (out, p) := Precedence.release (p.length + 1) queue p
    say (unlines out)
    if p = [] then return codeOf ok
    else
      r.complain (label ++ utf8 ": input contains a loop:")
      let found := Precedence.circle ((p.length + 1) * (relations + 1)) [] p
      let _ ← forEach found fun name => do
        r.complain name
        return true
      writeInOrder r label relations n false (p.breakAt found)

/-- Writes things in an order in which each comes after those that come before it. -/
def tsort (r : Request) : Prog Nat := do
  match r.operands with
  | _ :: extra :: _ => r.extraOperand extra
  | operands =>
    let operand := operands.headD dash
    let label := Quoted.plainForShell operand
    match ← withOperand operand readAll with
    | .error errno =>
      r.blame operand errno
      return 1
    | .ok (.error errno) =>
      r.complainOf (label ++ utf8 ": read error") errno
      return 1
    | .ok (.ok text) =>
      match pairs? (wordsOf text) with
      | none =>
        r.complain (label ++ utf8 ": input contains an odd number of tokens")
        return 1
      | some pairs =>
        writeInOrder r label pairs.length (pairs.length + 1) true
          (pairs.foldl Precedence.relate [])

end JobShell.Programs
