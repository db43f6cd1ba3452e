/-
**Redirections in a script.**

A command that the script runs itself has its redirections undone afterwards: the descriptors that
they replace are kept under high numbers.

Main definitions:

* `JobShell.Script.sourceOf` — the descriptor that a redirection puts in place;
* `JobShell.Script.withRedirects` — running something with redirections, and undoing them.
-/

import JobShell.Script.Flow

set_option autoImplicit false

namespace JobShell.Script

/-- Whether there is an ordinary file at a path. -/
def isOrdinary (path : Bytes) : Eval Bool := do
  match ← ask (.status path true) with
  | .ok { content := .file _, .. } => return true
  | _ => return false

/-- The least number of descriptors that are kept for later. -/
def keptFrom : Nat := 10

/-- A descriptor that was replaced, and the one under which it is kept if it was open. -/
abbrev Replaced := Nat × Option Nat

/-- Why a file cannot be opened or made. -/
def openReason (making : Bool) (errno : Errno) : String :=
  if errno = Errno.noEntry ∨ errno = Errno.notDirectory then
    if making then "Directory nonexistent" else "No such file"
  else errno.systemText

/-- The permissions that a new file asks for. -/
def newFileMode : Nat := 0o666

/-- Opens the file of a redirection. -/
def openFile (path : Bytes) (how : OpenMode) : Eval (Except Bytes (Option Nat)) := do
  match ← ask (.openPath path how newFileMode) with
  | .ok fd => return .ok (some fd)
  | .error errno =>
    let verb := if how.create then "cannot create " else "cannot open "
    return .error (utf8 verb ++ path ++ utf8 (": " ++ openReason how.create errno))

/-- A descriptor of its own for an open file, with nothing for a descriptor that is to be closed. -/
def copyOf (target : Bytes) : Eval (Except Bytes (Option Nat)) := do
  if target = [45] then return .ok none
  else
    match digits? target with
    | none => return .error (utf8 "Syntax error: Bad fd number")
    | some fd =>
      match ← ask (.duplicate fd 0) with
      | .ok copy => return .ok (some copy)
      | .error errno => return .error (target ++ utf8 (": " ++ errno.systemText))

/-- A redirection whose target is known; a text that is given as input is expanded later. -/
def prepare (run : Nat → Bytes → Eval Bytes) (r : Redirect) : Eval Redirect := do
  match r.kind with
  | .here _ => return r
  | _ => return { r with target := { r.target with text := ← expandText run r.target } }

/-- The descriptor that a redirection puts in place. -/
def sourceOf (run : Nat → Bytes → Eval Bytes) (r : Redirect) :
    Eval (Except Bytes (Option Nat)) := do
  let target := r.target.text
  match r.kind with
  | .here literal => offerText (← if literal then pure target else expandHere run r.target)
  | .input => openFile target { read := true }
  | .output always =>
    let spared ← if always || !(← get).has 'C' then pure false else isOrdinary target
    if spared then
      return .error (utf8 "cannot create " ++ target
        ++ utf8 (": " ++ Errno.alreadyExists.systemText))
    else openFile target { write := true, create := true, truncate := true }
  | .append => openFile target { write := true, create := true, append := true }
  | .both => openFile target { read := true, write := true, create := true }
  | .copy => copyOf target

/-- Keeps a descriptor for later. -/
def keep (fd : Nat) : Eval Replaced := do
  match ← ask (.duplicate fd keptFrom) with
  | .ok copy =>
    modify fun s => { s with kept := copy :: s.kept }
    return (fd, some copy)
  | .error _ => return (fd, none)

/-- Forgets a descriptor that was kept. -/
def letGo (copy : Nat) : Eval Unit := do
  let _ ← ask (.close copy)
  modify fun s => { s with kept := s.kept.erase copy }

/-- Puts a descriptor in the place of another one. -/
def place (fd : Nat) : Option Nat → Eval Unit
  | none => do
    let _ ← ask (.close fd)
  | some source => do
    if source ≠ fd then
      let _ ← ask (.dup2 source fd)
      let _ ← ask (.close source)

/-- Applies redirections in order, and gives what they replace.  The first one that cannot be
applied ends this. -/
def applyRedirects (run : Nat → Bytes → Eval Bytes) (done : List Replaced) :
    List Redirect → Eval (List Replaced × Option Bytes)
  | [] => return (done, none)
  | r :: rest => do
    match ← sourceOf run r with
    | .error text => return (done, some text)
    | .ok source =>
      let done ← if (done.lookup r.fd).isSome then pure done
        else if source = some r.fd then pure ((r.fd, none) :: done)
        else (· :: done) <$> keep r.fd
      place r.fd source
      applyRedirects run done rest

/-- Undoes redirections. -/
def undoRedirects : List Replaced → Eval Unit
  | [] => return ()
  | (fd, kept) :: rest => do
    match kept with
    | some copy =>
      let _ ← ask (.dup2 copy fd)
      letGo copy
    | none =>
      let _ ← ask (.close fd)
    undoRedirects rest

/-- The descriptor of the diagnostics from before some redirections. -/
def formerDiagnostics (done : List Replaced) : Nat := ((done.lookup 2).bind id).getD 2

/-- Whether the redirections of a command stay. -/
inductive Duration where
  | meanwhile
  | forGood
  deriving DecidableEq, Repr

/-- Runs something with redirections, given the descriptor of the diagnostics from before, and
undoes them.  If one cannot be applied it is not run; says whether it was. -/
def withRedirects (run : Nat → Bytes → Eval Bytes) (duration : Duration) (rs : List Redirect)
    (body : Nat → Eval Unit) : Eval Bool := do
  let rs ← rs.mapM (prepare run)
  let (done, problem) ← applyRedirects run [] rs
  match problem with
  | some text =>
    warn text
    undoRedirects done
    setStatus 2
    return false
  | none =>
    let result ← attempt (body (formerDiagnostics done))
    match duration with
    | .meanwhile => undoRedirects done
    | .forGood =>
      for (_, kept) in done do
        if let some copy := kept then letGo copy
    release result
    return true

end JobShell.Script
