/-
**Arithmetic in scripts.**

An expression is cut into numbers, names and operators, and then read by the strength of the
operators.  Its value is a number of 64 bits; computing it may give values to variables.

Main definitions:

* `JobShell.Script.Arithmetic.Symbol`, `JobShell.Script.Arithmetic.symbols` — the parts of a text;
* `JobShell.Script.Arithmetic.Expr`, `JobShell.Script.Arithmetic.read` — expressions;
* `JobShell.Script.Arithmetic.evaluate` — their values;
* `JobShell.Script.Arithmetic.Mistake` — why there is no value.
-/

import JobShell.Script.Parse

set_option autoImplicit false

namespace JobShell.Script.Arithmetic

/-! ### Numbers -/

/-- The greatest number. -/
def greatest : Nat := twoTo 63 - 1

/-- A number of 64 bits. -/
def wrap (n : Int) : Int := Int.bmod n (twoTo 64)

/-- The number at the front of a text, and its length: hexadecimal after `0x`, octal after `0`. -/
def literal (s : Bytes) : Nat × Nat :=
  let (value, used) := match s with
    | 48 :: 120 :: rest | 48 :: 88 :: rest =>
      let (value, used) := digitsInFront 16 hexDigit? rest.length rest
      (value, used + 2)
    | 48 :: rest =>
      let (value, used) := digitsInFront 8 octalDigit? rest.length rest
      (value, used + 1)
    | _ => digitsInFront 10 digit? s.length s
  (min value greatest, used)

/-- The number that the value of a variable writes; an empty one is 0. -/
def numberOf? (text : Bytes) : Option Int :=
  let text := text.dropWhile fun c => c = 32 || c = 9 || c = newline
  let (negative, digits) := match text with
    | 45 :: rest => (true, rest)
    | 43 :: rest => (false, rest)
    | rest => (false, rest)
  let (value, used) := literal digits
  if text = [] then some 0
  else if digits = [] ∨ used < digits.length then none
  else some (if negative then -value else value)

/-! ### Symbols -/

/-- A part of a text. -/
inductive Symbol where
  | number (n : Int)
  | name (text : Bytes)
  | operator (text : String)
  /-- A byte that has no meaning. -/
  | other
  deriving DecidableEq, Repr, Inhabited

/-- The operators, longer ones first. -/
def operators : List String :=
  ["<<=", ">>=", "<<", ">>", "<=", ">=", "==", "!=", "&&", "||", "+=", "-=", "*=", "/=", "%=",
    "&=", "|=", "^=", "+", "-", "*", "/", "%", "(", ")", "<", ">", "!", "~", "&", "|", "^", "?",
    ":", "="]

/-- The parts of a text.  Its length bounds the steps. -/
def symbols : Nat → Bytes → List Symbol
  | 0, _ => []
  | _, [] => []
  | n + 1, c :: s =>
    let isDigit (c : UInt8) : Bool := (digit? c).isSome
    let name := (c :: s).takeWhile fun d => isName [d] || isDigit d
    if c = 32 ∨ c = 9 ∨ c = newline then symbols n s
    else if isDigit c then
      let (value, length) := literal (c :: s)
      .number value :: symbols n ((c :: s).drop length)
    else if name ≠ [] then .name name :: symbols n ((c :: s).drop name.length)
    else
      match operators.find? fun o => (utf8 o).isPrefixOf (c :: s) with
      | some o => .operator o :: symbols n ((c :: s).drop o.length)
      | none => .other :: symbols n s

/-! ### Expressions -/

/-- An expression. -/
inductive Expr where
  | number (n : Int)
  | value (name : Bytes)
  | unary (operator : String) (operand : Expr)
  | binary (operator : String) (left right : Expr)
  | choice (condition yes no : Expr)
  /-- Gives a variable a value; with an operator, that of the variable and another one. -/
  | assign (name : Bytes) (operator : Option String) (value : Expr)
  deriving Repr, Inhabited

/-- Why there is no value. -/
inductive Mistake where
  | noOperand
  | rest
  | noBracket
  | noColon
  | divisionByZero
  | notNumber (text : Bytes)
  deriving DecidableEq, Repr, Inhabited

/-- The wording of a mistake in a text. -/
def Mistake.message (text : Bytes) : Mistake → Bytes
  | .notNumber value => utf8 "Illegal number: " ++ value
  | mistake =>
    let what := match mistake with
      | .noOperand => "expecting primary"
      | .noBracket => "expecting ')'"
      | .noColon => "expecting ':'"
      | .divisionByZero => "division by zero"
      | _ => "expecting EOF"
    utf8 ("arithmetic expression: " ++ what ++ ": \"") ++ text ++ utf8 "\""

/-- The operators of two operands, from the weakest level to the strongest. -/
def levels : List (List String) :=
  [["||"], ["&&"], ["|"], ["^"], ["&"], ["==", "!="], ["<", ">", "<=", ">="], ["<<", ">>"],
    ["+", "-"], ["*", "/", "%"]]

/-- The operator of an assignment: nothing for a plain one. -/
def assignment? (o : String) : Option (Option String) :=
  if o = "=" then some none
  else (["<<", ">>", "+", "-", "*", "/", "%", "&", "|", "^"].find? fun p => p ++ "=" = o).map some

/-- What is left when an expression has been read. -/
abbrev Reading := Except Mistake (Expr × List Symbol)

mutual

/-- Reads operators of the given levels. -/
def readLevel : Nat → List (List String) → List Symbol → Reading
  | 0, _, _ => .error .noOperand
  | n + 1, [], ss => readOperand n ss
  | n + 1, level :: stronger, ss => do
    let (a, ss) ← readLevel n stronger ss
    readMore n level stronger a ss

/-- Reads further operators of one level, from the left. -/
def readMore : Nat → List String → List (List String) → Expr → List Symbol → Reading
  | 0, _, _, _, _ => .error .noOperand
  | n + 1, level, stronger, a, ss =>
    match ss with
    | .operator o :: rest =>
      if level.contains o then do
        let (b, rest) ← readLevel n stronger rest
        readMore n level stronger (.binary o a b) rest
      else .ok (a, ss)
    | _ => .ok (a, ss)

/-- Reads a number, a variable, an expression in brackets, or an operator of one operand. -/
def readOperand : Nat → List Symbol → Reading
  | 0, _ => .error .noOperand
  | n + 1, ss =>
    match ss with
    | .number a :: rest => .ok (.number a, rest)
    | .name name :: rest => .ok (.value name, rest)
    | .operator "(" :: rest => do
      let (a, rest) ← readAssignment n rest
      match rest with
      | .operator ")" :: rest => return (a, rest)
      | _ => throw .noBracket
    | .operator o :: rest =>
      if ["-", "+", "!", "~"].contains o then do
        let (a, rest) ← readOperand n rest
        return (.unary o a, rest)
      else .error .noOperand
    | _ => .error .noOperand

/-- Reads an expression with a choice. -/
def readChoice : Nat → List Symbol → Reading
  | 0, _ => .error .noOperand
  | n + 1, ss => do
    let (a, ss) ← readLevel n levels ss
    match ss with
    | .operator "?" :: rest =>
      let (b, rest) ← readAssignment n rest
      match rest with
      | .operator ":" :: rest =>
        let (c, rest) ← readChoice n rest
        return (.choice a b c, rest)
      | _ => throw .noColon
    | _ => return (a, ss)

/-- Reads an expression, which may be an assignment. -/
def readAssignment : Nat → List Symbol → Reading
  | 0, _ => .error .noOperand
  | n + 1, ss =>
    match ss with
    | .name name :: .operator o :: rest =>
      match assignment? o with
      | some operator => do
        let (value, rest) ← readAssignment n rest
        return (.assign name operator value, rest)
      | none => readChoice n ss
    | _ => readChoice n ss

end

/-- Reads a text. -/
def read (text : Bytes) : Except Mistake Expr := do
  let ss := symbols text.length text
  let (a, rest) ← readAssignment (16 * ss.length + 16) ss
  if rest.isEmpty then return a else throw .rest

/-! ### Values -/

/-- A truth value as a number. -/
def ofBool (b : Bool) : Int := if b then 1 else 0

/-- Applies an operator to the bits of two numbers. -/
def onBits (f : BitVec 64 → BitVec 64 → BitVec 64) (a b : Int) : Int :=
  (f (BitVec.ofInt 64 a) (BitVec.ofInt 64 b)).toInt

/-- The value of an operator of two operands. -/
def apply (o : String) (a b : Int) : Except Mistake Int :=
  match o with
  | "|" => .ok (onBits (· ||| ·) a b)
  | "^" => .ok (onBits (· ^^^ ·) a b)
  | "&" => .ok (onBits (· &&& ·) a b)
  | "==" => .ok (ofBool (a = b))
  | "!=" => .ok (ofBool (a ≠ b))
  | "<" => .ok (ofBool (a < b))
  | ">" => .ok (ofBool (b < a))
  | "<=" => .ok (ofBool (a ≤ b))
  | ">=" => .ok (ofBool (b ≤ a))
  | "<<" => .ok (wrap (a * twoTo (b % 64).toNat))
  | ">>" => .ok (Int.fdiv a (twoTo (b % 64).toNat))
  | "+" => .ok (wrap (a + b))
  | "-" => .ok (wrap (a - b))
  | "*" => .ok (wrap (a * b))
  | "/" => if b = 0 then .error .divisionByZero else .ok (wrap (Int.tdiv a b))
  | _ => if b = 0 then .error .divisionByZero else .ok (Int.tmod a b)

/-- The value of an operator of one operand. -/
def applyUnary (o : String) (a : Int) : Int :=
  match o with
  | "-" => wrap (-a)
  | "!" => ofBool (a = 0)
  | "~" => -a - 1
  | _ => a

/-- Variables with the numbers that they have been given. -/
abbrev Assigned := List (Bytes × Int)

/-- The value of a variable, given the texts of those that have no number yet. -/
def lookUp (valueOf : Bytes → Option Bytes) (assigned : Assigned) (name : Bytes) :
    Except Mistake Int :=
  match assigned.lookup name with
  | some n => .ok n
  | none =>
    let text := (valueOf name).getD []
    match numberOf? text with
    | some n => .ok n
    | none => .error (.notNumber text)

/-- The value of an expression, and the variables that it gives a value. -/
def evaluate (valueOf : Bytes → Option Bytes) (assigned : Assigned) :
    Expr → Except Mistake (Int × Assigned)
  | .number n => .ok (n, assigned)
  | .value name => do return (← lookUp valueOf assigned name, assigned)
  | .unary o a => do
    let (a, assigned) ← evaluate valueOf assigned a
    return (applyUnary o a, assigned)
  | .binary o a b => do
    let (m, assigned) ← evaluate valueOf assigned a
    if (o = "&&" ∧ m = 0) ∨ (o = "||" ∧ m ≠ 0) then return (ofBool (m ≠ 0), assigned)
    else
      let (n, assigned) ← evaluate valueOf assigned b
      if o = "&&" ∨ o = "||" then return (ofBool (n ≠ 0), assigned)
      else return (← apply o m n, assigned)
  | .choice c a b => do
    let (c, assigned) ← evaluate valueOf assigned c
    if c ≠ 0 then evaluate valueOf assigned a else evaluate valueOf assigned b
  | .assign name o a => do
    let (n, assigned) ← evaluate valueOf assigned a
    let n ← match o with
      | none => pure n
      | some o => apply o (← lookUp valueOf assigned name) n
    return (n, (name, n) :: assigned)

/-- The value of a text, and the variables that it gives a value, the last one first. -/
def value (valueOf : Bytes → Option Bytes) (text : Bytes) : Except Mistake (Int × Assigned) := do
  evaluate valueOf [] (← read text)

end JobShell.Script.Arithmetic
