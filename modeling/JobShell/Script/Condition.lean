/-
**Conditions in a script.**

The command that checks conditions reads its words from the left: a word is an operator if it is
one and what follows does not make it an operand.  Nothing is skipped: both sides of `-a` and `-o`
are checked even if one of them decides.

Main definitions:

* `JobShell.Script.Test.read` — the condition that words write;
* `JobShell.Script.Test.check` — whether it holds;
* `JobShell.Script.Test.Mistake` — why words are no condition.
-/

import JobShell.Programs.Condition

set_option autoImplicit false

namespace JobShell.Script.Test

open Programs (Condition ConditionError)

/-- Why words are no condition. -/
inductive Mistake where
  /-- An operator without its operand. -/
  | noOperand (operator : Bytes)
  | unexpected (word : Bytes)
  | noClosing
  | notNumber (word : Bytes)
  | noBracket
  deriving DecidableEq, Repr, Inhabited

/-- The wording of a mistake. -/
def Mistake.message : Mistake → Bytes
  | .noOperand operator => operator ++ utf8 ": argument expected"
  | .unexpected word =>
    if word = [] then utf8 "unexpected operator" else word ++ utf8 ": unexpected operator"
  | .noClosing => utf8 "closing paren expected"
  | .notNumber word => utf8 "Illegal number: " ++ word
  | .noBracket => utf8 "missing ]"

/-- What a word means where it stands. -/
inductive Meaning where
  | unary (letter : Char)
  | binary
  | both
  | either
  | negation
  | opening
  | closing
  | operand
  deriving DecidableEq, Repr

/-- The operators of one operand, by their letters. -/
def unaryLetters : List Char := "rwxefdcbpugkstzLhGOSn".toList

/-- What a word means if it is an operator. -/
def operator? (word : Bytes) : Option Meaning :=
  let letter? := match word with
    | [45, c] => unaryLetters.find? fun l => l.toUInt8 = c
    | _ => none
  match letter? with
  | some letter => some (.unary letter)
  | none =>
    match Utf8.decodeLossy word with
    | "=" | "!=" | "<" | ">" | "-eq" | "-ne" | "-ge" | "-gt" | "-le" | "-lt" | "-nt" | "-ot"
    | "-ef" => some .binary
    | "!" => some .negation
    | "-a" => some .both
    | "-o" => some .either
    | "(" => some .opening
    | ")" => some .closing
    | _ => none

/-- What the first of some words means. -/
def meaning : List Bytes → Option Meaning
  | [] => none
  | word :: rest =>
    some (match operator? word, rest with
      | some (.unary _), [] => .operand
      | some (.unary letter), [_] => .unary letter
      | some (.unary letter), next :: _ =>
        if operator? next = some .binary then .operand else .unary letter
      | some .opening, [] => .operand
      | some m, _ => m
      | none, _ => .operand)

/-- What is left when a condition has been read. -/
abbrev Reading := Except Mistake (Condition × List Bytes)

/-- Reads a condition that begins with an operand. -/
def readOperand (word : Bytes) (rest : List Bytes) : Reading :=
  match meaning rest, rest with
  | some .binary, [operator] => .error (.noOperand operator)
  | some .binary, operator :: right :: rest => .ok (.binary operator word right, rest)
  | _, _ => .ok (.constant (word ≠ []), rest)

mutual

/-- Reads alternatives. -/
def readEither : Nat → List Bytes → Reading
  | 0, words => .ok (.constant false, words)
  | n + 1, words => do
    let (c, rest) ← readBoth n words
    if meaning rest = some .either then
      let (d, rest) ← readEither n (rest.drop 1)
      return (.either c d, rest)
    else return (c, rest)

/-- Reads conditions that must all hold. -/
def readBoth : Nat → List Bytes → Reading
  | 0, words => .ok (.constant false, words)
  | n + 1, words => do
    let (c, rest) ← readOne n words
    if meaning rest = some .both then
      let (d, rest) ← readBoth n (rest.drop 1)
      return (.both c d, rest)
    else return (c, rest)

/-- Reads one condition. -/
def readOne : Nat → List Bytes → Reading
  | 0, words => .ok (.constant false, words)
  | n + 1, words =>
    match meaning words, words with
    | none, _ | _, [] => .ok (.constant false, [])
    | some .negation, _ :: rest =>
      if rest = [] then .ok (.constant true, [])
      else do
        let (c, rest) ← readOne n rest
        return (.negation c, rest)
    | some .opening, _ :: rest =>
      if meaning rest = some .closing then .ok (.constant false, rest.drop 1)
      else do
        let (c, rest) ← readEither n rest
        if meaning rest = some .closing then return (c, rest.drop 1) else throw .noClosing
    | some (.unary letter), operator :: rest =>
      match rest with
      | [] => .error (.noOperand operator)
      | operand :: rest => .ok (.unary letter operand, rest)
    | some _, word :: rest => readOperand word rest

end

/-- Reads all of some words from the left.  If some are left over, the last one that was read is
reported. -/
def readAll (words : List Bytes) : Except Mistake Condition := do
  let (c, rest) ← readEither (8 * words.length + 8) words
  if rest = [] then return c
  else throw (.unexpected ((words.take (words.length - rest.length)).getLast?.getD []))

/-- Reads words.  With three or four words a comparison in the middle, brackets around them and a
negation in front are seen first. -/
def readFor : Nat → List Bytes → Except Mistake Condition
  | 0, words => readAll words
  | n + 1, words =>
    match words with
    | [] => .ok (.constant false)
    | [a, b, c] =>
      if operator? b = some .binary then .ok (.binary b a c)
      else if a = [40] ∧ c = [41] then readAll [b]
      else if a = [33] then (readFor n [b, c]).map .negation
      else readAll words
    | [a, b, c, d] =>
      if a = [40] ∧ d = [41] then readAll [b, c]
      else if a = [33] then (readFor n [b, c, d]).map .negation
      else readAll words
    | words => readAll words

/-- Reads words; a name `[` wants a `]` at the end. -/
def read (name : Bytes) (words : List Bytes) : Except Mistake Condition :=
  if name = [91] then
    if words.getLast? = some [93] then readFor words.length words.dropLast
    else .error .noBracket
  else readFor words.length words

/-- Whether a condition holds. -/
def holds : Condition → Prog (Except ConditionError Bool)
  | .negation c => do
    match ← holds c with
    | .ok value => return .ok (!value)
    | .error e => return .error e
  | .both c d => do
    match ← holds c, ← holds d with
    | .ok a, .ok b => return .ok (a && b)
    | .error e, _ | _, .error e => return .error e
  | .either c d => do
    match ← holds c, ← holds d with
    | .ok a, .ok b => return .ok (a || b)
    | .error e, _ | _, .error e => return .error e
  | c => c.holds

/-- Whether the condition that words write holds. -/
def check (name : Bytes) (words : List Bytes) : Prog (Except Mistake Bool) := do
  match read name words with
  | .error mistake => return .error mistake
  | .ok c =>
    match ← holds c with
    | .ok value => return .ok value
    | .error (.notInteger word) => return .error (.notNumber word)
    | .error _ => return .ok false

end JobShell.Script.Test
