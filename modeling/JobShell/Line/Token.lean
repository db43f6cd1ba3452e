/-
**The tokens of a line.**

A line is read as words, redirection signs and separators.  A word is a maximal run of bytes that
are neither blanks nor operators; there is no quoting.  Two `>` that touch are one sign.  Blanks
stand between tokens and mean nothing else.

Main definitions:

* `JobShell.isSpace`, `JobShell.isOperator`, `JobShell.isLetter` — the three classes of bytes;
* `JobShell.Item`, `JobShell.Separator`, `JobShell.Token` — the tokens;
* `JobShell.scanByte`, `JobShell.scan` — the tokens of a byte string.
-/

import JobShell.Line.Basic

set_option autoImplicit false

namespace JobShell

/-- Space, tab, carriage return and newline. -/
def isSpace (c : UInt8) : Bool := c = 32 || c = 9 || c = 13 || c = 10

/-- `>` -/
def greater : UInt8 := 62

/-- `<` -/
def less : UInt8 := 60

/-- `&` -/
def ampersand : UInt8 := 38

/-- `|` -/
def bar : UInt8 := 124

/-- `;` -/
def semicolon : UInt8 := 59

/-- The bytes with a meaning of their own. -/
def isOperator (c : UInt8) : Bool :=
  c = greater || c = less || c = ampersand || c = bar || c = semicolon

/-- The bytes that words are made of. -/
def isLetter (c : UInt8) : Bool := !isOperator c && !isSpace c

/-- A token that belongs to a slot. -/
inductive Item where
  | word (text : Bytes)
  | sign (direction : Direction)
  deriving DecidableEq, Repr

/-- A token that ends a slot. -/
inductive Separator where
  /-- `|`: the next slot belongs to the same pipeline. -/
  | pipe
  /-- `;`: the pipeline ends. -/
  | sequence
  /-- `&`: the pipeline ends and runs in the background. -/
  | background
  deriving DecidableEq, Repr

/-- One token of a line. -/
inductive Token where
  | item (i : Item)
  | separator (s : Separator)
  deriving DecidableEq, Repr

/-- Puts a letter in front of the tokens of `rest`: it opens a word, or joins the word with which
`rest` begins. -/
def glue (c : UInt8) (rest : Bytes) (tokens : List Token) : List Token :=
  match rest, tokens with
  | d :: _, .item (.word w) :: tokens =>
    if isLetter d then .item (.word (c :: w)) :: tokens
    else .item (.word [c]) :: .item (.word w) :: tokens
  | _, tokens => .item (.word [c]) :: tokens

/-- Puts one byte in front of the tokens of `rest`.  A `>` stands alone here. -/
def scanByte (c : UInt8) (rest : Bytes) (tokens : List Token) : List Token :=
  if isSpace c then tokens
  else if c = bar then .separator .pipe :: tokens
  else if c = semicolon then .separator .sequence :: tokens
  else if c = ampersand then .separator .background :: tokens
  else if c = less then .item (.sign .input) :: tokens
  else if c = greater then .item (.sign .output) :: tokens
  else glue c rest tokens

/-- The tokens of a byte string. -/
def scan : Bytes → List Token
  | [] => []
  | [c] => scanByte c [] []
  | c :: d :: s =>
    if c = greater ∧ d = greater then .item (.sign .append) :: scan s
    else scanByte c (d :: s) (scan (d :: s))

end JobShell
