/-
**Settings of a run.**

The settings come from two variables of the environment and from the arguments, which are read
from left to right.  Asking for help or for the version ends the reading at once.

Main definitions:

* `JobShell.Settings` — what a run needs to know;
* `JobShell.Invocation` — a run, or one of the two questions;
* `JobShell.SettingsError` — why there are no settings;
* `JobShell.Settings.load` — the settings of an argument list and an environment.
-/

import JobShell.Number

set_option autoImplicit false

namespace JobShell

/-- What a run of the shell needs to know. -/
structure Settings where
  prompt : String := "pipesh> "
  /-- Whether to prompt and report: `none` means if the standard input is a terminal. -/
  interactive : Option Bool := none
  /-- The greatest number of bytes of a line, its newline not counted. -/
  maxLine : Nat := 2048
  /-- The one line to run instead of reading lines. -/
  command : Option String := none
  deriving DecidableEq, Repr, Inhabited

/-- What the arguments ask for. -/
inductive Invocation where
  | run (settings : Settings)
  | help
  | version
  deriving DecidableEq, Repr, Inhabited

/-- Why there are no settings. -/
inductive SettingsError where
  | missingArgument (option : String)
  | unknownOption (argument : String)
  | invalidNumber (variableName value : String)
  deriving DecidableEq, Repr, Inhabited

/-- The wording of a settings error. -/
def SettingsError.message : SettingsError → String
  | .missingArgument option => option ++ " requires an argument"
  | .unknownOption argument => "unknown option: " ++ argument
  | .invalidNumber variableName value => variableName ++ ": not a positive number: " ++ value

namespace Settings

/-- The variable that holds the prompt. -/
def promptVariable : String := "PIPESH_PROMPT"

/-- The variable that holds the greatest length of a line. -/
def maxLineVariable : String := "PIPESH_MAX_LINE"

/-- The settings of an environment, before any argument is read. -/
def ofEnvironment (env : String → Option String) : Except SettingsError Settings := do
  let settings : Settings :=
    match env promptVariable with
    | some prompt => { prompt := prompt }
    | none => {}
  match env maxLineVariable with
  | none => return settings
  | some value =>
    match (count? (utf8 value)).filter (0 < ·) with
    | some n => return { settings with maxLine := n }
    | none => throw (.invalidNumber maxLineVariable value)

/-- Reads arguments on top of settings. -/
def readArguments : Settings → List String → Except SettingsError Invocation
  | settings, [] => .ok (.run settings)
  | settings, argument :: rest =>
    if argument = "-h" ∨ argument = "--help" then .ok .help
    else if argument = "-V" ∨ argument = "--version" then .ok .version
    else if argument = "-i" then readArguments { settings with interactive := some true } rest
    else if argument = "-c" then
      match rest with
      | [] => .error (.missingArgument "-c")
      | line :: rest => readArguments { settings with command := some line } rest
    else .error (.unknownOption argument)

/-- The settings of an argument list, the program's name left out, and an environment. -/
def load (arguments : List String) (env : String → Option String) :
    Except SettingsError Invocation := do
  readArguments (← ofEnvironment env) arguments

end Settings

end JobShell
