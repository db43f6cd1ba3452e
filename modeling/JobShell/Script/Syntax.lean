/-
**Scripts.**

The language of scripts is richer than that of the shell's own lines: it has quotes, variables,
lists of commands and control structures.  This module has the shape of a script once it has been
read.  Words stay as they were written, since what they stand for is only known when they are
expanded.

Main definitions:

* `JobShell.Script.Word` — a word, and where it stands;
* `JobShell.Script.Redirect` — a redirection of a descriptor;
* `JobShell.Script.Tree` — a command of any kind;
* `JobShell.Script.SyntaxError` — why a text is no script.
-/

import JobShell.Bytes

set_option autoImplicit false

namespace JobShell.Script

/-- A word as it was written, and the line on which it begins. -/
structure Word where
  text : Bytes
  line : Nat
  deriving DecidableEq, Repr, Inhabited

/-- What a redirection does to a descriptor. -/
inductive RedirectKind where
  | input
  /-- The flag says that a file may be overwritten even if the script is told not to. -/
  | output (always : Bool)
  | append
  | both
  /-- The descriptor becomes a copy of another one, or is closed. -/
  | copy
  /-- The text itself is the input; it is taken literally if its end was quoted. -/
  | here (literal : Bool)
  deriving DecidableEq, Repr, Inhabited

/-- A redirection of a descriptor. -/
structure Redirect where
  fd : Nat
  kind : RedirectKind
  target : Word
  deriving DecidableEq, Repr, Inhabited

/-- A command of any kind. -/
inductive Tree where
  | simple (line : Nat) (assignments words : List Word) (redirects : List Redirect)
  | pipeline (negated : Bool) (stages : List Tree)
  | both (a b : Tree)
  | either (a b : Tree)
  | sequence (a b : Tree)
  | background (a : Tree)
  | subshell (line : Nat) (body : Tree)
  /-- A command with redirections of its own. -/
  | redirected (line : Nat) (body : Tree) (redirects : List Redirect)
  | choice (condition yes no : Tree)
  | loop (until' : Bool) (condition body : Tree)
  /-- A loop over words, or over the arguments if there are none. -/
  | each (line : Nat) (name : Bytes) (words : Option (List Word)) (body : Tree)
  | select (line : Nat) (subject : Word) (arms : List (List Word × Tree))
  | function (name : Bytes) (body : Tree)
  | nothing
  deriving Repr, Inhabited

/-- Why a text is no script. -/
inductive SyntaxError where
  | unexpected (what : String) (expected : Option String)
  | unterminatedQuote
  | unterminatedBackquote
  | missingBrace
  | badName
  deriving DecidableEq, Repr, Inhabited

/-- The wording of a syntax error. -/
def SyntaxError.message : SyntaxError → String
  | .unexpected what none => "Syntax error: " ++ what ++ " unexpected"
  | .unexpected what (some expected) =>
    "Syntax error: " ++ what ++ " unexpected (expecting " ++ expected ++ ")"
  | .unterminatedQuote => "Syntax error: Unterminated quoted string"
  | .unterminatedBackquote => "Syntax error: EOF in backquote substitution"
  | .missingBrace => "Syntax error: Missing '\x7d'"
  | .badName => "Syntax error: Bad function name"

end JobShell.Script
