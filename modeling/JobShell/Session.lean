/-
**Watching a shell step by step.**

A session drives one shell on a fresh machine through a list of steps and looks at it after each.
For the time of a step descriptors can be made scarce or the input closed.  At the end every
process is left to finish.

Main definitions:

* `JobShell.Session.Step` — what is done, and under which restrictions;
* `JobShell.Session.View` — what is seen of the shell after a step;
* `JobShell.Session.run` — the views of a session, and the machine at the end.
-/

import JobShell.Installation

set_option autoImplicit false

namespace JobShell.Session

/-- What the shell is told to do. -/
inductive Action where
  | nothing
  | line (text : Bytes)
  | execute (pipelines : List Pipeline)
  /-- A builtin by its name, with arguments. -/
  | builtin (name : Bytes) (arguments : List Bytes)
  deriving Repr, Inhabited

/-- One step. -/
structure Step where
  action : Action := .nothing
  /-- The input is closed during the step. -/
  closesInput : Bool := false
  /-- How many descriptors can be opened during the step. -/
  spare : Option Nat := none
  /-- Afterwards jobs that have ended are collected until no child is left. -/
  reports : Bool := false
  deriving Repr, Inhabited

/-- What came of an action. -/
inductive Outcome where
  | nothing
  | done
  | stopped (cause : Stop)
  | failed (error : BuiltinError)
  | noBuiltin
  deriving Repr, Inhabited

/-- What is seen of the shell after a step. -/
structure View where
  outcome : Outcome
  report : Option (Except Stop (List Job))
  exitRequested : Option Int
  /-- The path of the working directory, if it has one. -/
  directory : Option Bytes
  /-- What was written during the step. -/
  output : Bytes
  diagnostics : Bytes

/-- Runs a computation of the shell. -/
def perform {α : Type} (body : ShellM Machine α) (s : Shell Machine) :
    Except Stop α × Shell Machine :=
  body.run s

/-- Does what the shell is told to do. -/
def act (action : Action) (s : Shell Machine) : Outcome × Shell Machine :=
  let conclude (result : Except Stop Unit × Shell Machine) : Outcome × Shell Machine :=
    match result with
    | (.ok (), s) => (.done, s)
    | (.error cause, s) => (.stopped cause, s)
  match action with
  | .nothing => (.nothing, s)
  | .line text => conclude (perform (Shell.runLine text) s)
  | .execute pipelines => conclude (perform (Shell.execute pipelines) s)
  | .builtin name arguments =>
    match Builtin.named? name with
    | none => (.noBuiltin, s)
    | some b =>
      match perform (Shell.callBuiltin b arguments) s with
      | (.ok (.ok ()), s) => (.done, s)
      | (.ok (.error e), s) => (.failed e, s)
      | (.error cause, s) => (.stopped cause, s)

/-- Imposes the restrictions of a step on descriptors. -/
def restrict (step : Step) (d : Descriptors) : Descriptors :=
  let d := if step.closesInput then d.close 0 else d
  match step.spare with
  | some n => { d with capacity := d.entries.length + n }
  | none => d

/-- Collects jobs until no child is left, at most so many times. -/
def collect (reported : List Job) : Nat → Shell Machine → Except Stop (List Job) × Shell Machine
  | 0, s => (.ok reported, s)
  | n + 1, s =>
    match perform Shell.report s with
    | (.error cause, s) => (.error cause, s)
    | (.ok jobs, s) =>
      if s.children.isEmpty then (.ok (reported ++ jobs), s)
      else
        match perform (Shell.supervise fun held => Supervisor.sleepUntilDeath held) s with
        | (.error cause, s) => (.error cause, s)
        | (.ok (), s) => collect (reported ++ jobs) n s

/-- One step, and what is seen after it. -/
def runStep (step : Step) (s : Shell Machine) : View × Shell Machine :=
  let before := s.descriptors
  let restricted := { s with descriptors := restrict step before }
  let (outcome, s) := act step.action restricted
  let s := { s with descriptors := before }
  let (report, s) :=
    if step.reports then
      let (report, s) := collect [] (2 * s.children.length + 2) s
      (some report, s)
    else (none, s)
  ({ outcome := outcome
     report := report
     exitRequested := s.exitRequested
     directory := (s.host.files.pathOf s.place).toOption
     output := s.host.output
     diagnostics := s.host.diagnostics },
   { s with host := { s.host with output := [], diagnostics := [] } })

/-- The views after all steps, and the shell at the end. -/
def runSteps : List Step → Shell Machine → List View × Shell Machine
  | [], s => ([], s)
  | step :: rest, s =>
    let (view, s) := runStep step s
    let (views, s) := runSteps rest s
    (view :: views, s)

/-- The views of a session, and the machine when every process has finished. -/
def run (entries : List (Bytes × Installation.Entry)) (input : Bytes) (home : Option Bytes)
    (steps : List Step) : List View × Machine :=
  let start := Installation.shell entries (Installation.environment home) input
  let (views, s) := runSteps steps start
  (views, s.host.settle {})

end JobShell.Session
