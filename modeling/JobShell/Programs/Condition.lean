/-
**Conditions on texts, numbers and files.**

A condition is a list of words.  With up to four words the number of words decides how they are
read; longer conditions are read with `!` binding tightest, then `-a`, then `-o`.

Main definitions:

* `JobShell.Programs.Condition`, `JobShell.Programs.Condition.read` — conditions and their words;
* `JobShell.Programs.Condition.holds` — whether a condition holds;
* `JobShell.Programs.ConditionError.message` — why words are no condition;
* `JobShell.Programs.test` — the program.
-/

import JobShell.Programs.Request

set_option autoImplicit false

namespace JobShell.Programs

/-- A condition. -/
inductive Condition where
  | constant (value : Bool)
  /-- A test of one word, named by the letter of its operator. -/
  | unary (operator : Char) (operand : Bytes)
  | binary (operator : Bytes) (left right : Bytes)
  | negation (c : Condition)
  | both (c d : Condition)
  | either (c d : Condition)
  deriving Repr, Inhabited

/-- Why words are no condition. -/
inductive ConditionError where
  | notInteger (word : Bytes)
  | notUnary (word : Bytes)
  | notBinary (word : Bytes)
  | missingAfter (word : Bytes)
  | extra (word : Bytes)
  | unclosed
  deriving DecidableEq, Repr, Inhabited

/-- The wording of a condition that is none. -/
def ConditionError.message : ConditionError → Bytes
  | .notInteger word => utf8 "invalid integer " ++ Quoted.escaped word
  | .notUnary word => Quoted.escaped word ++ utf8 ": unary operator expected"
  | .notBinary word => Quoted.escaped word ++ utf8 ": binary operator expected"
  | .missingAfter word => utf8 "missing argument after " ++ Quoted.escaped word
  | .extra word => utf8 "extra argument " ++ Quoted.escaped word
  | .unclosed => utf8 "missing ']'"

namespace Condition

/-- The letter of an operator of one operand. -/
def unary? : Bytes → Option Char
  | [45, c] => if "bcdefghknprstuwxzLOGSN".toList.contains (Char.ofNat c.toNat) then
      some (Char.ofNat c.toNat) else none
  | _ => none

/-- The operators on texts. -/
def textOperators : List Bytes := [utf8 "=", utf8 "==", utf8 "!=", utf8 "<", utf8 ">"]

/-- The operators on numbers. -/
def numberOperators : List Bytes :=
  [utf8 "-eq", utf8 "-ne", utf8 "-lt", utf8 "-le", utf8 "-gt", utf8 "-ge"]

/-- The operators on two files. -/
def fileOperators : List Bytes := [utf8 "-nt", utf8 "-ot", utf8 "-ef"]

/-- Whether a word is an operator of two operands. -/
def isBinary (word : Bytes) : Bool :=
  textOperators.contains word || numberOperators.contains word || fileOperators.contains word

/-- The word that negates. -/
def bang : Bytes := utf8 "!"

/-- A condition of one word. -/
def ofWord (word : Bytes) : Condition := .constant (word ≠ [])

/-- What is left when a condition has been read. -/
abbrev Reading := Except ConditionError (Condition × List Bytes)

mutual

/-- Reads alternatives. -/
def readEither : Nat → List Bytes → Reading
  | 0, words => .error (.missingAfter (words.headD []))
  | n + 1, words => do
    let (c, rest) ← readBoth n words
    match rest with
    | word :: rest =>
      if word = utf8 "-o" then
        let (d, rest) ← readEither n rest
        return (.either c d, rest)
      else return (c, word :: rest)
    | [] => return (c, [])

/-- Reads conditions that must all hold. -/
def readBoth : Nat → List Bytes → Reading
  | 0, words => .error (.missingAfter (words.headD []))
  | n + 1, words => do
    let (c, rest) ← readOne n words
    match rest with
    | word :: rest =>
      if word = utf8 "-a" then
        let (d, rest) ← readBoth n rest
        return (.both c d, rest)
      else return (c, word :: rest)
    | [] => return (c, [])

/-- Reads one condition, with its negations. -/
def readOne : Nat → List Bytes → Reading
  | 0, words => .error (.missingAfter (words.headD []))
  | _, [] => .error (.missingAfter [])
  | n + 1, word :: rest =>
    match rest with
    | operator :: right :: rest' =>
      if isBinary operator then .ok (.binary operator word right, rest')
      else readPrimary n word rest
    | _ => readPrimary n word rest

/-- Reads one condition that is no comparison. -/
def readPrimary : Nat → Bytes → List Bytes → Reading
  | 0, word, _ => .error (.missingAfter word)
  | n + 1, word, rest =>
    if word = bang then do
      let (c, rest) ← readOne n rest
      return (.negation c, rest)
    else if word = utf8 "(" then do
      let (c, rest) ← readEither n rest
      match rest with
      | [41] :: rest => return (c, rest)
      | other :: _ => throw (.extra other)
      | [] => throw (.missingAfter word)
    else
      match unary? word, rest with
      | some operator, operand :: rest => return (.unary operator operand, rest)
      | _, _ => return (ofWord word, rest)

end

/-- Reads a condition of any number of words. -/
def readLong (words : List Bytes) : Except ConditionError Condition := do
  let (c, rest) ← readEither (4 * words.length + 4) words
  match rest with
  | [] => return c
  | word :: _ => throw (.extra word)

/-- Reads a condition of two words. -/
def readTwo (a b : Bytes) : Except ConditionError Condition :=
  if a = bang then .ok (.negation (ofWord b))
  else
    match unary? a with
    | some operator => .ok (.unary operator b)
    | none => .error (if a.head? = some 45 then .notUnary a else .missingAfter b)

/-- Reads a condition of three words. -/
def readThree (a b c : Bytes) : Except ConditionError Condition :=
  if isBinary b then .ok (.binary b a c)
  else if b = utf8 "-a" then .ok (.both (ofWord a) (ofWord c))
  else if b = utf8 "-o" then .ok (.either (ofWord a) (ofWord c))
  else if a = bang then (readTwo b c).map .negation
  else if a = utf8 "(" ∧ c = utf8 ")" then .ok (ofWord b)
  else .error (.notBinary b)

/-- Reads a condition. -/
def read : List Bytes → Except ConditionError Condition
  | [] => .ok (.constant false)
  | [a] => .ok (ofWord a)
  | [a, b] => readTwo a b
  | [a, b, c] => readThree a b c
  | [a, b, c, d] =>
    if a = bang then (readThree b c d).map .negation
    else if a = utf8 "(" ∧ d = utf8 ")" then readTwo b c
    else readLong [a, b, c, d]
  | words => readLong words

/-- Reads a number of a comparison. -/
def integer (word : Bytes) : Except ConditionError Int :=
  let isGap (c : UInt8) : Bool := c = 32 || c = 9
  match int? (((word.dropWhile isGap).reverse.dropWhile isGap).reverse) with
  | some n => .ok n
  | none => .error (.notInteger word)

/-- Compares two numbers. -/
def compareNumbers (operator : Bytes) (a b : Int) : Bool :=
  if operator = utf8 "-eq" then a = b
  else if operator = utf8 "-ne" then a ≠ b
  else if operator = utf8 "-lt" then a < b
  else if operator = utf8 "-le" then a ≤ b
  else if operator = utf8 "-gt" then b < a
  else b ≤ a

/-- Compares two texts. -/
def compareTexts (operator a b : Bytes) : Bool :=
  if operator = utf8 "!=" then a ≠ b
  else if operator = utf8 "<" then a ≠ b && Bytes.le a b
  else if operator = utf8 ">" then a ≠ b && Bytes.le b a
  else a = b

/-- Whether a file is of the kind that an operator asks for. -/
def fileIs (operator : Char) (status : FileStatus) : Bool :=
  match operator with
  | 'e' | 'O' | 'G' => true
  | 'f' => match status.content with
    | .file _ | .program _ => true
    | _ => false
  | 'd' => match status.content with
    | .directory _ _ => true
    | _ => false
  | 's' => match status.content with
    | .file data => data ≠ []
    | .directory _ _ | .program _ => true
    | _ => false
  | 'p' => match status.content with
    | .fifo _ => true
    | _ => false
  | 'c' => match status.content with
    | .device _ => true
    | _ => false
  | 'L' | 'h' => match status.content with
    | .link _ => true
    | _ => false
  | 'u' => status.mode &&& 0o4000 ≠ 0
  | 'g' => status.mode &&& 0o2000 ≠ 0
  | 'k' => status.mode &&& 0o1000 ≠ 0
  | _ => false

/-- The permission that an operator asks for. -/
def permission? : Char → Option FileSystem.Permission
  | 'r' => some .read
  | 'w' => some .write
  | 'x' => some .execute
  | _ => none

/-- Whether a test of one word holds.  No descriptor is a terminal. -/
def unaryHolds (operator : Char) (operand : Bytes) : Prog (Except ConditionError Bool) := do
  match operator with
  | 'n' => return .ok (operand ≠ [])
  | 'z' => return .ok (operand = [])
  | 't' => return (integer operand).map fun _ => false
  | _ =>
    match permission? operator with
    | some permission =>
      return .ok ((← Prog.ask (.access operand permission)) matches .ok ())
    | none =>
      match ← Prog.ask (.status operand (operator ≠ 'L' && operator ≠ 'h')) with
      | .ok status => return .ok (fileIs operator status)
      | .error _ => return .ok false

/-- Whether a test of two words holds. -/
def binaryHolds (operator a b : Bytes) : Prog (Except ConditionError Bool) := do
  if numberOperators.contains operator then
    return do return compareNumbers operator (← integer a) (← integer b)
  else if fileOperators.contains operator then
    match ← Prog.ask (.status a true), ← Prog.ask (.status b true) with
    | .ok s, .ok t => return .ok (operator = utf8 "-ef" && s.number = t.number)
    | .ok _, .error _ => return .ok (operator = utf8 "-nt")
    | .error _, .ok _ => return .ok (operator = utf8 "-ot")
    | .error _, .error _ => return .ok false
  else return .ok (compareTexts operator a b)

/-- Whether a condition holds. -/
def holds : Condition → Prog (Except ConditionError Bool)
  | .constant value => return .ok value
  | .unary operator operand => unaryHolds operator operand
  | .binary operator a b => binaryHolds operator a b
  | .negation c => do
    match ← holds c with
    | .ok value => return .ok (!value)
    | .error e => return .error e
  | .both c d => do
    match ← holds c with
    | .ok true => holds d
    | other => return other
  | .either c d => do
    match ← holds c with
    | .ok false => holds d
    | other => return other

end Condition

/-- The words of a condition, for a program that may be called `[` and then wants a `]`. -/
def conditionWords (name : Bytes) (words : List Bytes) : Except ConditionError (List Bytes) :=
  if baseName name = [91] then
    if words.getLast? = some [93] then .ok words.dropLast else .error .unclosed
  else .ok words

/-- Whether the condition of a program's words holds. -/
def checkCondition (name : Bytes) (words : List Bytes) : Prog (Except ConditionError Bool) := do
  match conditionWords name words >>= Condition.read with
  | .ok c => c.holds
  | .error e => return .error e

/-- Says by its exit code whether a condition holds. -/
def test (r : Request) : Prog Nat := do
  match ← checkCondition r.name r.operands with
  | .ok value => return codeOf value
  | .error e =>
    r.complain e.message
    return 2

end JobShell.Programs
