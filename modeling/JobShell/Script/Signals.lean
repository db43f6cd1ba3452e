/-
**Commands about signals and permissions.**

Main definitions:

* `JobShell.Script.kill`, `JobShell.Script.trap` — sending signals, and catching them;
* `JobShell.Script.umask` — the permissions that new files do not get.
-/

import JobShell.Script.Complaint
import JobShell.Text.Permissions
import JobShell.Text.SignalName

set_option autoImplicit false

namespace JobShell.Script

/-! ### Signals -/

/-- The process or the group that a signal is sent to: a job is a group. -/
def signalTarget (name target : Bytes) : Eval Int := do
  match target with
  | 37 :: _ =>
    match (← get).jobs.named target with
    | .ok job => return -((job.processes.head?.map (·.1)).getD 0)
    | .error mistake => failIn name (mistake.message target)
  | 45 :: group => return -Int.ofNat (← demandNumber name group)
  | process => return Int.ofNat (← demandNumber name process)

/-- Sends a signal to processes. -/
def sendSignal (name : Bytes) (signal : Nat) (targets : List Bytes) : Eval Unit := do
  let mut status := 0
  for target in targets do
    match ← ask (.kill (← signalTarget name target) signal) with
    | .ok () => pure ()
    | .error errno =>
      complain name (utf8 (errno.systemText ++ "\n"))
      status := 1
  setStatus status

/-- The signal that is sent if an argument names it; `EXIT` is none. -/
def sendable? (text : Bytes) : Option Nat :=
  match digits? text, Signal.named? text with
  | some n, _ => if n < Signal.count then some n else none
  | none, some 0 => none
  | none, found => found

/-- Writes the names of signals. -/
def listSignals (name : Bytes) (numbers : List Bytes) : Eval Unit := do
  match numbers with
  | [] =>
    let names := (List.range Signal.count).map fun n => if n = 0 then [48] else Signal.written n
    say name (Programs.unlines names)
  | number :: _ =>
    let n ← demandNumber name number
    let n := if 128 < n then n - 128 else n
    if 0 < n ∧ n < Signal.count then say name (Signal.written n ++ [newline])
    else failIn name (utf8 "invalid signal number or exit status: " ++ number)

/-- Sends a signal to processes; the arguments may name the signal. -/
def kill (name : Bytes) (arguments : List Bytes) : Eval Unit := do
  let named : Option Nat := match arguments with
    | (45 :: signal) :: _ => sendable? signal
    | _ => none
  match named with
  | some signal =>
    if arguments.length = 1 then failIn name usage
    else sendSignal name signal (arguments.drop 1)
  | none =>
    let r ← readOptions name "ls:" arguments
    match r.has 'l', r.argument? 's', r.operands with
    | true, none, numbers => listSignals name numbers
    | true, some _, _ | false, _, [] => failIn name usage
    | false, none, targets => sendSignal name Signal.terminate targets
    | false, some text, targets =>
      match sendable? text with
      | some signal => sendSignal name signal targets
      | none => failIn name (utf8 "invalid signal number or name: " ++ text)
where
  /-- The ways to call the command. -/
  usage : Bytes :=
    utf8 "Usage: kill [-s sigspec | -signum | -sigspec] [pid | job]... or\nkill -l [exitstatus]"

/-- Arranges for a signal as an action asks. -/
def arrange (signal : Nat) (action : Option Bytes) : Eval Unit := do
  modify fun s =>
    { s with
      traps := match action with
        | some action => (signal, action) :: s.traps.filter (·.1 ≠ signal)
        | none => s.traps.filter (·.1 ≠ signal) }
  if signal ≠ 0 then
    let disposition : Disposition := match action with
      | none => .default
      | some [] => .ignore
      | some _ => .handler
    let _ ← ask (.dispose signal disposition)

/-- Arranges for signals by name; a name that is none ends this. -/
def arrangeAll (action : Option Bytes) : List Bytes → Eval Unit
  | [] => setStatus 0
  | signal :: rest => do
    match Signal.named? signal with
    | some n =>
      arrange n action
      arrangeAll action rest
    | none =>
      mention (utf8 "trap: " ++ signal ++ utf8 ": bad trap\n")
      setStatus 1

/-- Says what is done when signals arrive. -/
def trap (name : Bytes) (words : List Bytes) : Eval Unit := do
  let words ← if words.head? = some [45] then pure words
    else (·.operands) <$> readOptions name "" words
  match words with
  | [] =>
    let sorted := (← get).traps.mergeSort fun a b => a.1 ≤ b.1
    let lines := sorted.map fun (signal, action) =>
      utf8 "trap -- " ++ singleQuoted action ++ 32 :: Signal.written signal ++ [newline]
    say name lines.flatten
  | [signal] => arrangeAll none [signal]
  | action :: signals =>
    if action = [45] then arrangeAll none signals
    else if (digits? action).isSome then arrangeAll none words
    else arrangeAll (some action) signals

/-! ### Permissions -/

/-- The letters of one kind of permissions. -/
def permissionLetters (bits : Nat) : Bytes :=
  ([(4, 114), (2, 119), (1, 120)].filter fun (bit, _) => bits &&& bit ≠ 0).map (·.2)

/-- Writes or sets the permissions that new files do not get. -/
def umask (name : Bytes) (words : List Bytes) : Eval Unit := do
  let r ← readOptions name "S" words
  let old : Nat ← ask (.setMask 0)
  let _ ← ask (.setMask old)
  match r.operands with
  | [] =>
    let given := 0o777 - (old &&& 0o777)
    if r.has 'S' then
      say name (utf8 "u=" ++ permissionLetters (given / 64) ++ utf8 ",g="
        ++ permissionLetters (given / 8 % 8) ++ utf8 ",o=" ++ permissionLetters (given % 8)
        ++ [newline])
    else say name (Permissions.octal 4 old ++ [newline])
  | text :: _ =>
    let (value, used) := digitsInFront 8 octalDigit? text.length text
    if (text.head?.bind digit?).isSome then
      if used < text.length then failIn name (utf8 "Illegal number: " ++ text)
      else
        let _ ← ask (.setMask value)
        setStatus 0
    else
      match Permissions.read? text with
      | some steps =>
        let given := Permissions.apply false 0 steps (0o777 - (old &&& 0o777))
        let _ ← ask (.setMask (0o777 - (given &&& 0o777)))
        setStatus 0
      | none => failIn name (utf8 "Illegal mode: " ++ text)

end JobShell.Script
