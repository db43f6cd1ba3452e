/-
**Regular expressions.**

Matching computes all places at which a match can end.  A place is the text that is left, the byte
before it, and what the groups stand for that are referred to later.

Main definitions:

* `JobShell.Regex` — regular expressions;
* `JobShell.Regex.ends` — the places at which a match that starts at a place can end;
* `JobShell.Regex.longest?` — the length of the longest match at a place;
* `JobShell.Regex.grouped?` — what a group stands for in a match;
* `JobShell.Regex.ofFixed`, `JobShell.Regex.foldCase` — expressions for texts, in either case.
-/

import JobShell.Text.ByteClass

set_option autoImplicit false

namespace JobShell

/-- A regular expression. -/
inductive Regex where
  | nothing
  | byte (c : UInt8)
  | any
  | oneOf (members : Bytes)
  | noneOf (members : Bytes)
  | start
  | stop
  /-- A word begins or ends here. -/
  | edge
  | wordStart
  | wordStop
  | both (r s : Regex)
  | either (r s : Regex)
  /-- At least and at most so many times. -/
  | times (r : Regex) (least : Nat) (most : Option Nat)
  /-- An expression whose match is asked for; it has a number if it is referred to. -/
  | group (number : Option Nat) (r : Regex)
  /-- What a group stands for. -/
  | back (number : Nat)
  deriving Repr, Inhabited

namespace Regex

/-- A place in a text: the byte before it, what is left, and what groups stand for. -/
structure Place where
  before : Option UInt8
  rest : Bytes
  groups : List (Nat × Bytes) := []
  deriving DecidableEq, Repr, Inhabited

/-- Whether a byte belongs to words. -/
def isWordByte (c : UInt8) : Bool :=
  (48 ≤ c && c ≤ 57) || (65 ≤ c && c ≤ 90) || (97 ≤ c && c ≤ 122) || c = 95

/-- Whether exactly one side of a place belongs to a word. -/
def Place.isEdge (p : Place) : Bool :=
  (p.before.map isWordByte).getD false != (p.rest.head?.map isWordByte).getD false

/-- Takes one byte that passes a test. -/
def Place.take (p : Place) (passes : UInt8 → Bool) : List Place :=
  match p.rest with
  | c :: rest => if passes c then [{ p with before := some c, rest := rest }] else []
  | [] => []

/-- Stays at a place that passes a test. -/
def Place.stay (p : Place) (passes : Bool) : List Place := if passes then [p] else []

/-- Passes over a text. -/
def Place.pass (p : Place) (text : Bytes) : List Place :=
  if text.isPrefixOf p.rest then
    [{ p with before := text.getLast?.or p.before, rest := p.rest.drop text.length }]
  else []

/-- Notes what a group stands for that starts at another place. -/
def Place.note (p : Place) (number : Nat) (start : Place) : Place :=
  let text := start.rest.take (start.rest.length - p.rest.length)
  { p with groups := (number, text) :: p.groups.filter (·.1 ≠ number) }

/-- Whether two places of one text are the same. -/
def Place.isSame (p q : Place) : Bool :=
  p.rest.length = q.rest.length && p.groups = q.groups

/-- Places without repetition. -/
def distinct (ps : List Place) : List Place :=
  ps.foldl (fun seen p => if seen.any (·.isSame p) then seen else seen ++ [p]) []

/-- Repeats a step on places, at most so many times, and gives all places met. -/
def iterate (step : Place → List Place) : Nat → List Place → List Place
  | 0, ps => ps
  | n + 1, ps =>
    let next := distinct (ps.flatMap step)
    if next = [] then ps else distinct (ps ++ iterate step n next)

/-- Repeats a step on places exactly so many times. -/
def exactly (step : Place → List Place) : Nat → List Place → List Place
  | 0, ps => ps
  | n + 1, ps => exactly step n (distinct (ps.flatMap step))

/-- The places at which a match that starts at a place can end. -/
def ends : Regex → Place → List Place
  | nothing, p => [p]
  | byte c, p => p.take (· = c)
  | any, p => p.take fun _ => true
  | oneOf members, p => p.take fun c => members.contains c
  | noneOf members, p => p.take fun c => !members.contains c
  | start, p => p.stay p.before.isNone
  | stop, p => p.stay (p.rest = [])
  | edge, p => p.stay p.isEdge
  | wordStart, p => p.stay (p.isEdge && p.rest.head?.any isWordByte)
  | wordStop, p => p.stay (p.isEdge && p.before.any isWordByte)
  | both r s, p => distinct ((ends r p).flatMap (ends s))
  | either r s, p => distinct (ends r p ++ ends s p)
  | times r least most, p =>
    let more := match most with
      | some most => most - least
      | none => p.rest.length + 1
    iterate (ends r) more (exactly (ends r) least [p])
  | group none r, p => ends r p
  | group (some number) r, p => (ends r p).map fun q => q.note number p
  | back number, p => p.pass ((p.groups.lookup number).getD [])

/-- Whether an expression has a group. -/
def hasGroup : Regex → Bool
  | both r s | either r s => hasGroup r || hasGroup s
  | times r _ _ => hasGroup r
  | group _ _ => true
  | _ => false

/-- Of places on the way from one place to another, the last one that passes a test. -/
def lastSuch (passes : Place → Bool) (ps : List Place) : Option Place :=
  ((ps.filter passes).mergeSort fun p q => p.rest.length ≤ q.rest.length).head?

/-- What the first group stands for in a match between two places. -/
def grouped? : Regex → Place → Place → Option Bytes
  | group _ _, p, q => some (p.rest.take (p.rest.length - q.rest.length))
  | both r s, p, q => do
    let middle ← lastSuch (fun m => reaches (ends s m) q) (ends r p)
    if hasGroup r then grouped? r p middle else grouped? s middle q
  | either r s, p, q => if reaches (ends r p) q then grouped? r p q else grouped? s p q
  | _, _, _ => none
where
  /-- Whether one of some places is as far in the text as another one. -/
  reaches (ps : List Place) (q : Place) : Bool := ps.any (·.rest.length = q.rest.length)

/-- The lengths of the matches at a place. -/
def lengths (r : Regex) (p : Place) : List Nat :=
  (r.ends p).map fun q => p.rest.length - q.rest.length

/-- The length of the longest match at a place. -/
def longest? (r : Regex) (p : Place) : Option Nat := (r.lengths p).max?

/-! ### Expressions for texts -/

/-- The expression that matches a text alone. -/
def ofFixed : Bytes → Regex
  | [] => .nothing
  | c :: s => .both (.byte c) (ofFixed s)

/-- An expression that does not tell upper from lower case. -/
def foldCase : Regex → Regex
  | byte c => .oneOf (variants c)
  | oneOf members => .oneOf (members.flatMap variants)
  | noneOf members => .noneOf (members.flatMap variants)
  | both r s => .both (foldCase r) (foldCase s)
  | either r s => .either (foldCase r) (foldCase s)
  | times r least most => .times (foldCase r) least most
  | group number r => .group number (foldCase r)
  | r => r
where
  /-- A letter in both cases. -/
  variants (c : UInt8) : Bytes :=
    if 65 ≤ c ∧ c ≤ 90 then [c, c + 32] else if 97 ≤ c ∧ c ≤ 122 then [c - 32, c] else [c]

end Regex

end JobShell
