/-
**Tokens of a script.**

A text is cut into words, operators and newlines.  A word goes on through quotes and
substitutions; what is open at a byte is a stack, which a quote or a bracket pushes and its end
pops.

Main definitions:

* `JobShell.Script.Nesting`, `JobShell.Script.scan` — going through a word, or to the end of what
  is open;
* `JobShell.Script.Cursor` — a place in a text;
* `JobShell.Script.Token`, `JobShell.Script.Lexeme` — tokens, and where they end;
* `JobShell.Script.Cursor.tokens` — the tokens from a place on.
-/

import JobShell.Number
import JobShell.Script.Syntax

set_option autoImplicit false

namespace JobShell.Script

/-! ### What is open -/

/-- What can be open at a byte of a word. -/
inductive Nesting where
  | single
  | double
  | parens
  | braces
  | back
  deriving DecidableEq, Repr, Inhabited

/-- The error of a text that ends while something is open. -/
def Nesting.unclosed : Nesting → SyntaxError
  | .single | .double => .unterminatedQuote
  | .parens => .unexpected "end of file" (some "\")\"")
  | .braces => .missingBrace
  | .back => .unterminatedBackquote

/-- The bytes that end a word. -/
def isMeta (c : UInt8) : Bool := [32, 9, 10, 59, 38, 124, 60, 62, 40, 41].contains c

/-- What a dollar sign opens, given the byte after it. -/
def opensAfterDollar (c : Option UInt8) : Option Nesting :=
  if c = some 40 then some .parens else if c = some 123 then some .braces else none

/-- How many bytes belong together at the front of a text, and what is open after them. -/
def advance (stack : List Nesting) (c : UInt8) (next : Option UInt8) : Nat × List Nesting :=
  let pops := (1, stack.drop 1)
  let substitution : Nat × List Nesting :=
    match opensAfterDollar next with
    | some n => (2, n :: stack)
    | none => (1, stack)
  match stack.head? with
  | some .single => if c = 39 then pops else (1, stack)
  | some .back => if c = 96 then pops else if c = 92 then (2, stack) else (1, stack)
  | some .double =>
    if c = 34 then pops
    else if c = 92 then (2, stack)
    else if c = 96 then (1, .back :: stack)
    else if c = 36 then substitution
    else (1, stack)
  | top =>
    if c = 92 then (2, stack)
    else if c = 39 then
      if top = some .braces ∧ stack.contains .double then (1, stack) else (1, .single :: stack)
    else if c = 34 then (1, .double :: stack)
    else if c = 96 then (1, .back :: stack)
    else if c = 36 then substitution
    else if c = 125 ∧ top = some .braces then pops
    else if c = 41 ∧ top = some .parens then pops
    else if c = 40 ∧ top = some .parens then (1, .parens :: stack)
    else (1, stack)

/-- Goes through a text until nothing is open: to the end of a word if `bare`, else to the end of
what was open at the start. -/
def scan (bare : Bool) : List Nesting → Bytes → Except SyntaxError (Bytes × Bytes)
  | [], [] => .ok ([], [])
  | top :: _, [] => .error top.unclosed
  | stack, [c] =>
    if stack = [] ∧ (bare = false ∨ isMeta c) then .ok ([], [c])
    else
      match (advance stack c none).2 with
      | [] => .ok ([c], [])
      | top :: _ => .error top.unclosed
  | stack, c :: d :: s =>
    if stack = [] ∧ (bare = false ∨ isMeta c) then .ok ([], c :: d :: s)
    else
      match advance stack c (some d) with
      | (2, stack) => (scan bare stack s).map fun (word, rest) => (c :: d :: word, rest)
      | (_, stack) => (scan bare stack (d :: s)).map fun (word, rest) => (c :: word, rest)

/-- The text up to the end of what is open at its start, without that end, and the rest. -/
def inside (open' : Nesting) (s : Bytes) : Except SyntaxError (Bytes × Bytes) :=
  (scan false [open'] s).map fun (text, rest) => (text.dropLast, rest)

/-! ### Tokens -/

/-- A place in a text: what follows it, its line, and how many lines after this one have been used
up as the bodies of texts that are given as input. -/
structure Cursor where
  text : Bytes
  line : Nat := 1
  owed : Nat := 0
  deriving DecidableEq, Repr, Inhabited

/-- A token. -/
inductive Token where
  | word (text : Bytes)
  /-- The number of a descriptor, directly before a redirection. -/
  | descriptor (fd : Nat)
  | operator (text : Bytes)
  | newline
  /-- The body of a text that is given as input, and the line on which it begins. -/
  | here (body : Bytes) (literal : Bool) (line : Nat)
  | finished
  /-- The text cannot be cut any further. -/
  | broken (error : SyntaxError)
  deriving DecidableEq, Repr, Inhabited

/-- A token, the line on which it ends, the place after it, and the aliases that it comes from. -/
structure Lexeme where
  token : Token
  line : Nat
  after : Cursor
  aliases : List Bytes := []
  deriving DecidableEq, Repr, Inhabited

/-- The operators, longer ones first. -/
def operators : List Bytes :=
  (["<<-", "&&", "||", ";;", ">>", "<<", "<&", ">&", "<>", ">|",
    "|", "&", ";", "<", ">", "(", ")"]).map utf8

/-- The number of newlines in a text. -/
def newlines (s : Bytes) : Nat := s.count newline

/-- A word without its quotes, as the end of a text that is given as input. -/
def unquote : Bytes → Bytes
  | 92 :: c :: s => c :: unquote s
  | c :: s => if c = 39 ∨ c = 34 then unquote s else c :: unquote s
  | [] => []

/-- A text without the tabs at its start. -/
def dropTabs (s : Bytes) : Bytes := s.dropWhile (· = 9)

/-- The lines before a line that is the given end, and those after it. -/
def bodyUntil (stop : Bytes) (strip : Bool) : List Bytes → List Bytes × List Bytes
  | [] => ([], [])
  | line :: rest =>
    let line := if strip then dropTabs line else line
    if line = stop ∨ line = stop ++ [newline] then ([], rest)
    else
      let (body, rest) := bodyUntil stop strip rest
      (line :: body, rest)

/-- Takes the body of a text that is given as input out of what follows the current line; also
counts the lines that it takes up with its end. -/
def takeBody (stop : Bytes) (strip : Bool) (s : Bytes) : Bytes × Bytes × Nat :=
  match s.lines with
  | [] => ([], [], 0)
  | current :: rest =>
    let (body, left) := bodyUntil stop strip rest
    (body.flatten, current ++ left.flatten, rest.length - left.length)

/-- A text without the blanks, comments and continued lines at its front, and how many lines end
in them. -/
def skipBlank : Bytes → Bytes × Nat
  | 92 :: 10 :: s =>
    let (rest, n) := skipBlank s
    (rest, n + 1)
  | c :: s =>
    if c = 32 ∨ c = 9 then skipBlank s
    else if c = 35 then ((c :: s).dropWhile (· ≠ newline), 0)
    else (c :: s, 0)
  | [] => ([], 0)

/-- The tokens from a place on.  The length of the text bounds their number. -/
def tokensFrom : Nat → Cursor → List Lexeme
  | 0, c => [⟨.finished, c.line, c, []⟩]
  | n + 1, ⟨s, line, owed⟩ =>
    let (s, skipped) := skipBlank s
    let line := line + skipped
    let lexeme (token : Token) (after : Cursor) : List Lexeme :=
      ⟨token, after.line, after, []⟩ :: tokensFrom n after
    match s with
    | [] => [⟨.finished, line, ⟨[], line, owed⟩, []⟩]
    | c :: rest =>
      if c = newline then
        let after : Cursor := ⟨rest, line + 1 + owed, 0⟩
        ⟨.newline, line, after, []⟩ :: tokensFrom n after
      else
        match operators.find? fun o => o.isPrefixOf s with
        | some o =>
          let rest := s.drop o.length
          if o = utf8 "<<" ∨ o = utf8 "<<-" then
            match scan true [] (skipBlank rest).1 with
            | .error e => [⟨.broken e, line, ⟨[], line, owed⟩, []⟩]
            | .ok (word, rest) =>
              let literal := word.any fun c => c = 39 || c = 34 || c = 92
              let (body, rest, lines) := takeBody (unquote word) (o = utf8 "<<-") rest
              lexeme (.here body literal (line + 1 + owed)) ⟨rest, line, owed + lines⟩
          else lexeme (.operator o) ⟨rest, line, owed⟩
        | none =>
          match scan true [] s with
          | .error e =>
            let last := line + newlines s
            [⟨.broken e, last, ⟨[], last, owed⟩, []⟩]
          | .ok (word, rest) =>
            let after : Cursor := ⟨rest, line + newlines word, owed⟩
            let redirects := rest.head? = some 60 || rest.head? = some 62
            match if redirects then digits? word else none with
            | some fd => lexeme (.descriptor fd) after
            | none => lexeme (.word word) after

/-- The tokens from a place on. -/
def Cursor.tokens (c : Cursor) : List Lexeme := tokensFrom (c.text.length + 1) c

end JobShell.Script
