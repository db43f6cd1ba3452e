/-
**Expressions in words.**

An expression is a list of words, each a value or an operator.  A value is a text, and a number
where it looks like one.

Main definitions:

* `JobShell.Programs.Value` — values;
* `JobShell.Programs.evaluateWords` — the value of an expression;
* `JobShell.Programs.expr` — the program.
-/

import JobShell.Programs.Request
import JobShell.Text.Regex.Notation

set_option autoImplicit false

namespace JobShell.Programs

/-- A value of an expression. -/
abbrev Value := Bytes

/-- Why words have no value. -/
inductive ExpressionError where
  | syntaxError (text : Bytes)
  /-- A value is missing at the end. -/
  | missing
  | notInteger
  | divisionByZero
  | badPattern (mistake : Regex.Mistake)
  deriving DecidableEq, Repr, Inhabited

/-- The wording of a missing value of some words. -/
def ExpressionError.message (words : List Bytes) : ExpressionError → Bytes
  | .syntaxError text => utf8 "syntax error: " ++ text
  | .missing => utf8 "syntax error: missing argument after "
      ++ Quoted.escaped (words.getLast?.getD [])
  | .notInteger => utf8 "non-integer argument"
  | .divisionByZero => utf8 "division by zero"
  | .badPattern mistake => utf8 mistake.message

/-- Whether a value counts as false. -/
def isNull (v : Value) : Bool := v = [] || int? v = some 0

/-- A truth value. -/
def ofTruth (b : Bool) : Value := if b then [49] else [48]

/-- How a value begins with a match of a pattern: the text of its group, or the length of the
match if it has none. -/
def matchValue (text pattern : Bytes) : Except ExpressionError Value :=
  match Regex.ofBasic pattern with
  | .error mistake => .error (.badPattern mistake)
  | .ok r =>
    let p : Regex.Place := { before := none, rest := text }
    match r.longest? p with
    | none => .ok (if r.hasGroup then [] else [48])
    | some n =>
      let stop : Regex.Place := { before := (text.take n).getLast?, rest := text.drop n }
      .ok (if r.hasGroup then (r.grouped? p stop).getD [] else Bytes.ofNat n)

/-- The value of an operator of two operands. -/
def applyOperator (operator : Bytes) (a b : Value) : Except ExpressionError Value := do
  let number (v : Value) : Except ExpressionError Int :=
    match int? v with
    | some n => .ok n
    | none => .error .notInteger
  let relation (holds : Int → Int → Bool) (text : Bool) : Value :=
    match int? a, int? b with
    | some m, some n => ofTruth (holds m n)
    | _, _ => ofTruth text
  match Utf8.decodeLossy operator with
  | "|" => return if isNull a then (if isNull b then [48] else b) else a
  | "&" => return if isNull a || isNull b then [48] else a
  | "=" | "==" => return relation (· = ·) (a = b)
  | "!=" => return relation (· ≠ ·) (a ≠ b)
  | "<" => return relation (· < ·) (a ≠ b && Bytes.le a b)
  | "<=" => return relation (· ≤ ·) (Bytes.le a b)
  | ">" => return relation (· > ·) (a ≠ b && Bytes.le b a)
  | ">=" => return relation (· ≥ ·) (Bytes.le b a)
  | "+" => return ofInt ((← number a) + (← number b))
  | "-" => return ofInt ((← number a) - (← number b))
  | "*" => return ofInt ((← number a) * (← number b))
  | ":" => matchValue a b
  | "/" => return ofInt (Int.tdiv (← number a) (← divisor (← number b)))
  | _ => return ofInt (Int.tmod (← number a) (← divisor (← number b)))
where
  divisor (n : Int) : Except ExpressionError Int :=
    if n = 0 then .error .divisionByZero else .ok n

/-- The operators, from the weakest to the strongest. -/
def operatorLevels : List (List Bytes) :=
  ([["|"], ["&"], ["=", "==", "!=", "<", "<=", ">", ">="], ["+", "-"], ["*", "/", "%"],
    [":"]].map fun level => level.map utf8)

/-- A part of a text, by the number of its first byte and its length. -/
def substring (text : Bytes) (first length : Value) : Value :=
  match int? first, int? length with
  | some first, some length =>
    if first ≤ 0 ∨ length ≤ 0 then [] else (text.drop (first.toNat - 1)).take length.toNat
  | _, _ => []

/-- The functions, each with the number of its arguments. -/
def functions : List (String × Nat × (List Value → Except ExpressionError Value)) :=
  let argument (values : List Value) (i : Nat) : Value := values.getD i []
  [("length", 1, fun vs => .ok (Bytes.ofNat (argument vs 0).length)),
   ("match", 2, fun vs => matchValue (argument vs 0) (argument vs 1)),
   ("substr", 3, fun vs => .ok (substring (argument vs 0) (argument vs 1) (argument vs 2))),
   ("index", 2, fun vs => .ok (Bytes.ofNat
      (((argument vs 0).findIdx? (argument vs 1).contains).map (· + 1) |>.getD 0)))]

/-- Whether the value of an operator depends on its right side. -/
def needsRight (operator : Bytes) (a : Value) : Bool :=
  if operator = utf8 "|" then isNull a else if operator = utf8 "&" then !isNull a else true

/-- The value of an operator that does not depend on its right side. -/
def leftAlone (operator : Bytes) (a : Value) : Value := if operator = utf8 "&" then [48] else a

/-- The word after a plus sign, taken as a value. -/
def readQuoted : List Bytes → Except ExpressionError (Value × List Bytes)
  | [] => .error .missing
  | word :: rest => .ok (word, rest)

mutual

/-- Reads operators of the given levels.  A part of which the value does not matter is not
evaluated. -/
def readOperators (matters : Bool) :
    Nat → List (List Bytes) → List Bytes → Except ExpressionError (Value × List Bytes)
  | 0, _, _ => .error .missing
  | n + 1, [], words => readValue matters n words
  | n + 1, level :: stronger, words => do
    let (a, rest) ← readOperators matters n stronger words
    readFurther matters n level stronger a rest

/-- Reads further operators of one level, from the left. -/
def readFurther (matters : Bool) : Nat → List Bytes → List (List Bytes) → Value → List Bytes →
    Except ExpressionError (Value × List Bytes)
  | 0, _, _, _, _ => .error .missing
  | n + 1, level, stronger, a, words =>
    match words with
    | operator :: rest =>
      if level.contains operator then do
        let further := matters && needsRight operator a
        let (b, rest) ← readOperators further n stronger rest
        let value ← if further then applyOperator operator a b else pure (leftAlone operator a)
        readFurther matters n level stronger value rest
      else .ok (a, words)
    | [] => .ok (a, [])

/-- Reads a value, a function of values, or an expression in brackets. -/
def readValue (matters : Bool) : Nat → List Bytes → Except ExpressionError (Value × List Bytes)
  | 0, _ => .error .missing
  | _, [] => .error .missing
  | n + 1, word :: following =>
    if word = [40] then do
      let (a, rest) ← readOperators matters n operatorLevels following
      match rest with
      | [41] :: rest => return (a, rest)
      | other :: _ => throw (.syntaxError (utf8 "expecting ')' instead of " ++ Quoted.escaped other))
      | [] =>
        let last := (word :: following).getLastD []
        throw (.syntaxError (utf8 "expecting ')' after " ++ Quoted.escaped last))
    else if word = [41] then .error (.syntaxError (utf8 "unexpected ')'"))
    else
      match functions.find? fun f => utf8 f.1 = word with
      | some (_, count, apply) => do
        let (values, rest) ← readValues matters n count following
        if matters then return (← apply values, rest) else return ([], rest)
      | none => if word = [43] then readQuoted following else .ok (word, following)

/-- Reads so many values. -/
def readValues (matters : Bool) : Nat → Nat → List Bytes → Except ExpressionError (List Value × List Bytes)
  | 0, _, _ => .error .missing
  | _, 0, words => .ok ([], words)
  | n + 1, count + 1, words => do
    let (value, rest) ← readValue matters n words
    let (values, rest) ← readValues matters n count rest
    return (value :: values, rest)

end

/-- The value of an expression. -/
def evaluateWords (words : List Bytes) : Except ExpressionError Value := do
  let (a, rest) ← readOperators true (8 * words.length + 8) operatorLevels words
  match rest with
  | [] => return a
  | word :: _ => throw (.syntaxError (utf8 "unexpected argument " ++ Quoted.escaped word))

/-- Writes the value of an expression. -/
def expr (r : Request) : Prog Nat := do
  match r.operands with
  | [] =>
    let _ ← r.missingOperand
    return 2
  | operands =>
    match evaluateWords operands with
    | .ok value =>
      say (value ++ [newline])
      return codeOf (!isNull value)
    | .error e =>
      r.complain (e.message operands)
      return 2

end JobShell.Programs
