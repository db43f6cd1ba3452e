/-
**Parts of paths.**

Main definitions:

* `JobShell.Programs.parentPath` — all of a path but its last part;
* `JobShell.Programs.basename`, `JobShell.Programs.dirname` — writing parts of paths;
* `JobShell.Programs.pwd` — the path of the working directory.
-/

import JobShell.Programs.Tree

set_option autoImplicit false

namespace JobShell.Programs

/-- Takes an ending off a name that is longer. -/
def dropEnding (name ending : Bytes) : Bytes :=
  if ending.length < name.length ∧ ending.isSuffixOf name then
    name.take (name.length - ending.length)
  else name

/-- Writes the last part of paths. -/
def basename (r : Request) : Prog Nat := do
  let ending := r.argument? 's'
  let mark := if r.has 'z' then nul else newline
  let many := r.has 'a' || ending.isSome
  let write (operands : List Bytes) (ending : Bytes) : Prog Nat := do
    say (endLines mark (operands.map fun path => dropEnding (baseName path) ending))
    return 0
  match r.operands with
  | [] => r.missingOperand
  | [path] => write [path] (ending.getD [])
  | path :: second :: rest =>
    if many then write r.operands (ending.getD [])
    else
      match rest with
      | [] => write [path] second
      | extra :: _ => r.extraOperand extra

/-- All of a path but its last part. -/
def parentPath (path : Bytes) : Bytes :=
  let stem := dropSlashes path
  let front := (stem.reverse.dropWhile (· ≠ slash)).reverse
  if stem = [] then (if path = [] then FileSystem.dot else [slash])
  else if front = [] then FileSystem.dot
  else if dropSlashes front = [] then [slash]
  else dropSlashes front

/-- Writes all of paths but the last part. -/
def dirname (r : Request) : Prog Nat := do
  if r.operands = [] then r.missingOperand
  else
    say (endLines (if r.has 'z' then nul else newline) (r.operands.map parentPath))
    return 0

/-- Writes the path of the working directory. -/
def pwd (r : Request) : Prog Nat := do
  if r.operands ≠ [] then r.complain (utf8 "ignoring non-option arguments")
  match ← Prog.ask .workingDirectory with
  | .ok path =>
    say (path ++ [newline])
    return 0
  | .error _ =>
    r.complain (utf8 "couldn't find directory entry in '..' with matching i-node")
    return 1

end JobShell.Programs
