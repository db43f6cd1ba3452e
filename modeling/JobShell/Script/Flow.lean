/-
**Leaving and waiting.**

A part of a script can be left in several ways; whoever runs the part decides how far the leaving goes.

Main definitions:

* `JobShell.Script.conclude` — the end of a process;
* `JobShell.Script.runRounds` — the rounds of a loop;
* `JobShell.Script.claimJob`, `JobShell.Script.inChild` — children of a script;
* `JobShell.Script.offerText` — a text as input.
-/

import JobShell.Script.Builtins

set_option autoImplicit false

namespace JobShell.Script

/-! ### Leaving -/

/-- Ends the process with the status of the last command, whatever has happened in the body. -/
def conclude (atEnd : Bytes → Eval Unit) (body : Eval Unit) : Eval Unit := do
  let _ ← attempt body
  let s ← get
  match s.traps.lookup 0 with
  | some action =>
    set { s with traps := s.traps.filter (·.1 ≠ 0), left := some s.status, command := [] }
    match ← attempt (atEnd action) with
    | .error .exits | .error .fails => pure ()
    | _ => setStatus s.status
  | none => pure ()
  ask (.exit (← get).status)

/-- Runs something whose status is a condition. -/
def asking (body : Eval Unit) : Eval Unit := do
  let asked := (← get).asked
  modify fun s => { s with asked := true }
  let result ← attempt body
  modify fun s => { s with asked := asked }
  release result

/-- Ends a script, if it is told so, when the last command failed and its status was no
condition. -/
def checkStatus : Eval Unit := do
  let s ← get
  if s.has 'e' ∧ s.asked = false ∧ s.status ≠ 0 then throw .exits

/-- Runs an ordinary command: it may fail to make sense. -/
def asOrdinary (body : Eval Unit) : Eval Unit := do
  match ← attempt body with
  | .ok () | .error .fails => pure ()
  | .error way => throw way

/-! ### Loops -/

/-- What is left to do about the leaving of a loop's body: nothing, end the loop, or leave. -/
def endRound : Except Leave Unit → Eval Bool
  | .ok () => return true
  | .error (.breaks n) => if n ≤ 1 then return false else throw (.breaks (n - 1))
  | .error (.continues n) => if n ≤ 1 then return true else throw (.continues (n - 1))
  | .error way => throw way

/-- Runs the body of a loop, in which loops can be left. -/
def inLoop (body : Eval Unit) : Eval (Except Leave Unit) := do
  modify fun s => { s with loops := s.loops + 1 }
  let result ← attempt body
  modify fun s => { s with loops := s.loops - 1 }
  return result

/-- Runs the rounds of a loop, at most so many; the status is that of the body's last run. -/
def runRounds (untilTrue : Bool) (condition body : Eval Unit) : Nat → Nat → Eval Unit
  | 0, status => setStatus status
  | n + 1, status => do
    match ← inLoop (asking condition) with
    | .ok () =>
      let holds := (← get).status == 0
      if holds = untilTrue then setStatus status
      else
        let more ← endRound (← inLoop body)
        let status := (← get).status
        if more then runRounds untilTrue condition body n status else setStatus status
    | left =>
      if ← endRound left then runRounds untilTrue condition body n status else setStatus status

/-! ### Children -/

/-- Starts a new job. -/
def claimJob : Eval Nat := do
  let (number, jobs) := (← get).jobs.claim
  modify fun s => { s with jobs := jobs }
  return number

/-- Runs something in a child, which is a process of a job if one is given; gives the child's id. -/
def inChild (atEnd : Bytes → Eval Unit) (job : Option Nat) (body : Eval Unit) : Eval Int := do
  match ← ask .fork with
  | .error _ => fail (utf8 "Cannot fork")
  | .ok (.parent pid) =>
    if let some number := job then modify fun s => { s with jobs := s.jobs.add number pid }
    return pid
  | .ok .child =>
    let caught := (← get).traps.filter fun t => t.1 ≠ 0 ∧ t.2 ≠ []
    for (signal, _) in caught do
      let _ ← ask (.dispose signal .default)
    modify fun s => { s with traps := s.traps.filter (·.2 = []), jobs := [] }
    conclude atEnd body
    return 0

/-- Texts of at most so many bytes go into a pipe without a reader. -/
def shortText : Nat := 4096

/-- Offers a text as input: the reading end of a pipe, which a child fills if the text is long. -/
def offerText (text : Bytes) : Eval (Except Bytes (Option Nat)) := do
  match ← ask .pipe with
  | .error _ => return .error (utf8 "Pipe call failed")
  | .ok (reader, writer) =>
    let write : Eval Unit := perform do
      let _ ← Prog.writeAll writer text
    if text.length ≤ shortText then write
    else
      let _ ← inChild (fun _ => pure ()) none do
        let _ ← ask (.close reader)
        write
    let _ ← ask (.close writer)
    return .ok (some reader)

end JobShell.Script
