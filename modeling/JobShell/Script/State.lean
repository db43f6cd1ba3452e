/-
**What a running script knows.**

Main definitions:

* `JobShell.Script.State` — variables, arguments, functions, and the status of the last command;
* `JobShell.Script.Leave` — the ways in which a command does not lead to the next one;
* `JobShell.Script.Eval` — computations of a running script;
* `JobShell.Script.warn`, `JobShell.Script.fail` — its complaints.
-/

import JobShell.Launch
import JobShell.Programs.Variables
import JobShell.Script.Jobs
import JobShell.Script.Parse

set_option autoImplicit false

namespace JobShell.Script

/-- What a variable was before a function hid it. -/
structure Hidden where
  name : Bytes
  value : Option Bytes
  exported : Bool
  deriving DecidableEq, Repr, Inhabited

/-- Where the reading of the script's own options has got to: the next argument, and how much of
the one before it has been read if that is not used up. -/
structure OptionPlace where
  next : Nat := 1
  offset : Option Nat := none
  deriving DecidableEq, Repr, Inhabited

/-- What a running script knows. -/
structure State where
  /-- The name of the script, as it stands in complaints. -/
  name : Bytes
  arguments : List Bytes
  values : Environment
  /-- The variables that programs get. -/
  exported : List Bytes
  /-- The variables that keep their value. -/
  fixed : List Bytes := []
  /-- What the function that is run hides; nothing is hidden outside of functions. -/
  covered : Option (List Hidden) := none
  functions : List (Bytes × Tree) := []
  aliases : Aliases := []
  /-- The programs that have been found, and where. -/
  located : List (Bytes × Bytes) := []
  status : Nat := 0
  /-- The process that the script was started as. -/
  pid : Int
  lastBackground : Option Int := none
  jobs : Jobs := []
  line : Nat := 1
  /-- The command of the script itself that is run, if complaints name it. -/
  command : Bytes := []
  /-- The working directory, by the names under which it was entered. -/
  directory : Bytes := []
  /-- How many loops the current command stands in. -/
  loops : Nat := 0
  /-- The letters of the options that are set. -/
  options : Bytes := []
  /-- The status of the commands that are run is a condition. -/
  asked : Bool := false
  /-- What is done when a signal arrives; 0 stands for the end of the script. -/
  traps : List (Nat × Bytes) := []
  /-- The status with which the script is left by a trap that gives none. -/
  left : Option Nat := none
  optionPlace : OptionPlace := {}
  /-- The status of the last script that was run in the middle of a word of the current
  command. -/
  substituted : Option Nat := none
  /-- Descriptors that are kept for later. -/
  kept : List Nat := []
  deriving Inhabited

/-- The ways in which a command does not lead to the next one. -/
inductive Leave where
  | breaks (loops : Nat)
  | continues (loops : Nat)
  | returns
  | exits
  /-- The command makes no sense; that ends the script unless the command is an ordinary one. -/
  | fails
  deriving DecidableEq, Repr, Inhabited

/-- Computations of a running script. -/
abbrev Eval := ExceptT Leave (StateT State Prog)

/-- A program as a part of a script. -/
def perform {α : Type} (p : Prog α) : Eval α :=
  ExceptT.mk fun s => do
    let a ← p
    return (.ok a, s)

/-- A call to the system. -/
def ask (c : Call) : Eval c.Reply := perform (Prog.ask c)

/-- Sets the status of the last command. -/
def setStatus (status : Nat) : Eval Unit := modify fun s => { s with status := status }

/-- Complains, with the name of the script and the line. -/
def warn (text : Bytes) : Eval Unit := do
  let s ← get
  let command := if s.command = [] then [] else s.command ++ utf8 ": "
  perform do
    let _ ← Programs.emit 2
      (s.name ++ utf8 ": " ++ Bytes.ofNat s.line ++ utf8 ": " ++ command ++ text ++ [newline])

/-- Writes something else than a complaint to a descriptor of diagnostics. -/
def mentionTo (fd : Nat) (text : Bytes) : Eval Unit := perform do
  let _ ← Programs.emit fd text

/-- Writes something else than a complaint to the diagnostics. -/
def mention (text : Bytes) : Eval Unit := mentionTo 2 text

/-- Complains about something that makes no sense. -/
def fail {α : Type} (text : Bytes) : Eval α := do
  warn text
  setStatus 2
  throw .fails

/-! ### Options -/

/-- The options by name and by letter.  A command that fails ends the script (`e`), patterns are no
file names (`f`), commands are not run (`n`), commands are shown (`x`), the text is shown as it is
read (`v`), files are not overwritten (`C`), variables are given to programs (`a`), variables must
have a value (`u`); the others have no effect here. -/
def optionNames : List (String × Char) :=
  [("errexit", 'e'), ("noglob", 'f'), ("ignoreeof", 'I'), ("interactive", 'i'), ("monitor", 'm'),
    ("noexec", 'n'), ("stdin", 's'), ("xtrace", 'x'), ("verbose", 'v'), ("vi", 'V'),
    ("emacs", 'E'), ("noclobber", 'C'), ("allexport", 'a'), ("notify", 'b'), ("nounset", 'u'),
    ("privileged", 'p'), ("nolog", '0'), ("debug", '1')]

/-- Whether an option is set. -/
def State.has (s : State) (option : Char) : Bool := Programs.has s.options option

/-- Sets an option, or unsets it. -/
def State.setOption (s : State) (on : Bool) (option : Char) : State :=
  let others := s.options.filter (· ≠ option.toUInt8)
  { s with options := if on then others ++ [option.toUInt8] else others }

/-- The letters of the options that are set, in the order of the options. -/
def State.optionLetters (s : State) : Bytes :=
  (optionNames.filter fun o => o.2.isAlpha && s.has o.2).map (·.2.toUInt8)

/-! ### Variables -/

/-- The value of a variable. -/
def State.valueOf? (s : State) (name : Bytes) : Option Bytes := s.values.lookup name

/-- Gives a variable a value.  What was known of the options or of programs may no longer hold
then. -/
def State.assign (s : State) (name value : Bytes) : State :=
  let s : State :=
    { s with
      values := Programs.setVariable s.values name value
      exported := if s.has 'a' then name :: s.exported else s.exported }
  if name = utf8 "OPTIND" then { s with optionPlace := { next := max 1 ((digits? value).getD 1) } }
  else if name = utf8 "PATH" then { s with located := [] }
  else s

/-- What a variable is. -/
def State.hidden (s : State) (name : Bytes) : Hidden :=
  { name := name, value := s.valueOf? name, exported := s.exported.contains name }

/-- Makes a variable what it was. -/
def State.restore (s : State) (h : Hidden) : State :=
  let s : State := match h.value with
    | some value => s.assign h.name value
    | none => { s with values := s.values.filter (·.1 ≠ h.name) }
  { s with
    exported := if h.exported then h.name :: s.exported else s.exported.filter (· ≠ h.name) }

/-- A number as an argument: blanks may surround it. -/
def number? (text : Bytes) : Option Nat :=
  let isGap (c : UInt8) : Bool := c = 32 || (9 ≤ c && c ≤ 13)
  let digits := ((text.dropWhile isGap).reverse.dropWhile isGap).reverse
  let digits := if digits.head? = some 43 then digits.drop 1 else digits
  (digits? digits).bind fun n => if n < twoTo 31 then some n else none

/-- Gives a variable a value, unless it keeps the one it has. -/
def assign (name value : Bytes) : Eval Unit := do
  if isName name = false then fail (name ++ utf8 ": bad variable name")
  if (← get).fixed.contains name then fail (name ++ utf8 ": is read only")
  if name = utf8 "OPTIND" ∧ (number? value).isNone then fail (utf8 "Illegal number: " ++ value)
  modify fun s => s.assign name value

/-- The variables that programs get. -/
def State.environment (s : State) : Environment :=
  s.values.filter fun b => s.exported.contains b.1

/-- The bytes that separate fields. -/
def State.separators (s : State) : Bytes := (s.valueOf? (utf8 "IFS")).getD [32, 9, 10]

end JobShell.Script
