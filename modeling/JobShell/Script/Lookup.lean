/-
**What a name in a script stands for.**

A name is a word of the syntax, a function, a command of the script itself or a program; a program is
searched for in the directories of the search path.

Main definitions:

* `JobShell.Script.Kind`, `JobShell.Script.kindOf?` — what a name stands for, programs left out;
* `JobShell.Script.findProgram`, `JobShell.Script.locateProgram` — the file of a program;
* `JobShell.Script.execProgram` — running a program in this process.
-/

import JobShell.Script.Redirection

set_option autoImplicit false

namespace JobShell.Script

/-! ### Files -/

/-- Opens the file of a script, under a number that leaves the low ones free. -/
def openSource (path : Bytes) : Eval (Except Errno Nat) := do
  match ← ask (.openPath path { read := true } 0) with
  | .error errno => return .error errno
  | .ok fd =>
    match ← keep fd with
    | (_, some copy) =>
      let _ ← ask (.close fd)
      return .ok copy
    | (_, none) => return .ok fd

/-- The file of a script that is searched for by its name. -/
def findFile (name : Bytes) : Eval (Option Bytes) := do
  if name.contains slash then return some name
  else
    let paths := (Prog.searchPath (← get).values).map fun d =>
      if d = [] then name else d ++ slash :: name
    let found ← paths.filterM isOrdinary
    return found.head?

/-! ### Programs -/

/-- Complains about a program that cannot be run. -/
def complainOf (name : Bytes) (errno : Errno) : Eval Unit := do
  let missing := errno = Errno.noEntry || errno = Errno.notDirectory
  warn (name ++ utf8 (": " ++ if missing then "not found" else errno.systemText))

/-- Runs another program in this process; it returns only to complain. -/
def execProgram (words : List Bytes) : Eval Unit := do
  let s ← get
  for fd in s.kept do
    let _ ← ask (.close fd)
  let name := words.headD []
  let found ← perform (Prog.execFrom (Prog.searchPath s.values) name words s.environment)
  let errno := if name = [] then Errno.accessDenied else found
  let missing := errno = Errno.noEntry || errno = Errno.notDirectory
  complainOf name errno
  setStatus (if missing ∨ errno = Errno.tooManyLinks ∨ errno = Errno.nameTooLong then 127 else 126)
  throw .exits

/-- Whether the file of a path may be run. -/
def mayRun (path : Bytes) : Eval (Except Errno Unit) := do
  match ← ask (.status path true) with
  | .error errno => return .error errno
  | .ok { content := .directory _ _, .. } => return .error Errno.accessDenied
  | .ok { mode, .. } => return if mode &&& 0o111 = 0 then .error Errno.accessDenied else .ok ()

/-- Searches for a program that may be run; of the errors the last one that does not say that there
is no file counts. -/
def searchProgram (name : Bytes) (last : Errno) : List Bytes → Eval (Except Errno Bytes)
  | [] => return .error last
  | directory :: rest => do
    let path := if directory = [] then name else directory ++ slash :: name
    match ← mayRun path with
    | .ok () => return .ok path
    | .error errno =>
      let absent := errno = Errno.noEntry ∨ errno = Errno.notDirectory
      searchProgram name (if absent then last else errno) rest

/-- The file of a program: the one that is found by its name, or the one of that path. -/
def findProgram (name : Bytes) : Eval (Except Errno Bytes) := do
  if name.contains slash then
    match ← ask (.status name true) with
    | .ok _ => return .ok name
    | .error errno => return .error errno
  else searchProgram name Errno.noEntry (Prog.searchPath (← get).values)

/-- Finds a program that is to be run and remembers where it is, or complains about it. -/
def locateProgram (name : Bytes) : Eval Bool := do
  if name.contains slash then return true
  else if ((← get).located.lookup name).isSome then return true
  else
    match ← findProgram name with
    | .ok path =>
      modify fun s => { s with located := s.located ++ [(name, path)] }
      return true
    | .error errno =>
      complainOf name errno
      setStatus 127
      return false

/-! ### Kinds -/

/-- What a name stands for, except programs. -/
inductive Kind where
  | synonym (value : Bytes)
  | function
  | special
  | ordinary
  | word
  deriving DecidableEq, Repr

/-- The wording of a kind. -/
def Kind.text : Kind → Bytes
  | .synonym value => utf8 " is an alias for " ++ value ++ [newline]
  | .function => utf8 " is a shell function\n"
  | .special => utf8 " is a special shell builtin\n"
  | .ordinary => utf8 " is a shell builtin\n"
  | .word => utf8 " is a shell keyword\n"

/-- What a name stands for. -/
def kindOf? (name : Bytes) : Eval (Option Kind) := do
  let s ← get
  if reserved.contains name then return some .word
  else
    match s.aliases.lookup name, s.functions.lookup name with
    | some value, _ => return some (.synonym value)
    | none, some _ => return some .function
    | none, none =>
      if isSpecial name then return some .special
      else if isBuiltin name then return some .ordinary
      else return none

/-- Tells what a name stands for. -/
def tell (command name : Bytes) : Eval Unit := do
  match ← kindOf? name, (← get).located.lookup name with
  | some kind, _ => say command (name ++ kind.text)
  | none, some path =>
    say command (name ++ utf8 " is a tracked alias for " ++ path ++ [newline])
  | none, none =>
    match ← findProgram name with
    | .ok path => say command (name ++ utf8 " is " ++ path ++ [newline])
    | .error _ =>
      say command (name ++ utf8 ": not found\n")
      setStatus 127

/-- Writes the name or the file that a name stands for. -/
def locate (command name : Bytes) : Eval Unit := do
  match ← kindOf? name with
  | some (.synonym value) => say command (utf8 "alias " ++ aliasLine (name, value))
  | some _ => say command (name ++ [newline])
  | none =>
    match ← findProgram name with
    | .ok path => say command (path ++ [newline])
    | .error _ => setStatus 127

/-- Tells what names stand for. -/
def tellAll (command : Bytes) (names : List Bytes) : Eval Unit := do
  setStatus 0
  let mut worst := 0
  for name in names do
    tell command name
    worst := max worst (← get).status
  setStatus worst

/-- Finds programs and remembers where they are, or says which have been found. -/
def hash (command : Bytes) (words : List Bytes) : Eval Unit := do
  let r ← readOptions command "r" words
  setStatus 0
  if r.has 'r' then modify fun s => { s with located := [] }
  else if r.operands = [] then
    say command ((← get).located.flatMap fun p => p.2 ++ [newline])
  else
    let mut status := 0
    for name in r.operands do
      if (← kindOf? name).isNone then
        if (← withCommand command (locateProgram name)) = false then status := 1
    setStatus status

end JobShell.Script
