/-
**What a line is made of.**

A line is a sequence of pipelines, and a pipeline a sequence of commands joined by pipes.  As it
is written, a pipeline may have an empty place where a command should stand; once it is known to
be runnable it has commands alone.  A command has at least one word by its type: its name.

Main definitions:

* `JobShell.Redirection`, `JobShell.Command` — a program, its arguments and its redirections;
* `JobShell.Draft`, `JobShell.Line` — pipelines as written, empty places included;
* `JobShell.Pipeline` — a pipeline that can be run;
* `JobShell.LineError` — why a line cannot be run.
-/

import JobShell.Bytes

set_option autoImplicit false

namespace JobShell

/-- Which standard stream a redirection replaces, and how the file is opened for it. -/
inductive Direction where
  /-- `<`: the file is read. -/
  | input
  /-- `>`: the file is emptied and written. -/
  | output
  /-- `>>`: the file is written at its end. -/
  | append
  deriving DecidableEq, Repr, Inhabited

/-- One redirection of a standard stream to a file. -/
structure Redirection where
  direction : Direction
  target : Bytes
  deriving DecidableEq, Repr, Inhabited

/-- One command: the program's name, its further words, and its redirections in order. -/
structure Command where
  name : Bytes
  arguments : List Bytes
  redirections : List Redirection
  deriving DecidableEq, Repr, Inhabited

/-- All words of a command, the name first. -/
def Command.words (c : Command) : List Bytes := c.name :: c.arguments

/-- A pipeline as written: each slot holds a command or nothing. -/
structure Draft where
  slots : List (Option Command)
  background : Bool
  deriving DecidableEq, Repr, Inhabited

/-- A line as written. -/
abbrev Line := List Draft

/-- Whether the shell waits for a job. -/
inductive JobClass where
  | foreground
  | background
  deriving DecidableEq, Repr, Inhabited

/-- A pipeline that can be run. -/
structure Pipeline where
  commands : List Command
  background : Bool
  deriving DecidableEq, Repr, Inhabited

/-- The class that every stage of a pipeline gets. -/
def Pipeline.jobClass (p : Pipeline) : JobClass :=
  if p.background then .background else .foreground

/-- Why a line cannot be run.  Such a line is dropped, and the shell goes on. -/
inductive LineError where
  /-- A redirection sign without a word after it. -/
  | emptyRedirect
  /-- A slot with redirections and no word. -/
  | redirectionWithoutCommand
  /-- An empty slot beside other slots. -/
  | emptyCommand
  /-- A line of more than the given number of bytes. -/
  | tooLong (limit : Nat)
  deriving DecidableEq, Repr, Inhabited

/-- The wording of a line error. -/
def LineError.message : LineError → String
  | .emptyRedirect => "empty redirect"
  | .redirectionWithoutCommand => "redirection without command"
  | .emptyCommand => "empty command in pipeline"
  | .tooLong limit => "line longer than " ++ Nat.repr limit ++ " bytes"

end JobShell
