/-
**Supervising children.**

The kernel keeps the children that have not been reaped, in the order in which they were started,
and tells the shell of deaths by one signal.  The signal raises a flag; while it is blocked it
waits, and one waiting signal stands for any number of deaths.  The wait call takes the first dead
child from the kernel's list.

All operations on the job table run inside a scope that blocks the signal and puts the previous
mask back however the scope is left.

Main definitions:

* `JobShell.ChildSignal` — the signal's mask, the waiting signal and the flag;
* `JobShell.Supervisor` — children, signal, job table, and a journal of what happened to them;
* `JobShell.Supervised` — computations on a supervisor that may stop early;
* `JobShell.Supervisor.reapOne`, `JobShell.Supervisor.waitOne` — the two forms of the wait call;
* `JobShell.Supervisor.reapTerminated`, `JobShell.Supervisor.reapIfNotified`,
  `JobShell.Supervisor.waitForeground`, `JobShell.Supervisor.collectCompleted` — the operations on
  the job table;
* `JobShell.Supervisor.guarded` — the scope.
-/

import JobShell.Host
import JobShell.Job.Table

set_option autoImplicit false

namespace JobShell

/-- A child that has not been reaped; it has an ending if it is dead. -/
structure Child where
  pid : Int
  ending : Option Ending := none
  deriving DecidableEq, Repr, Inhabited

/-- The signal that tells of dead children. -/
structure ChildSignal where
  /-- The signal is in the mask. -/
  blocked : Bool := false
  /-- A signal waits behind the mask. -/
  pending : Bool := false
  /-- A signal has been delivered since the flag was last cleared. -/
  notified : Bool := false
  deriving DecidableEq, Repr, Inhabited

namespace ChildSignal

/-- The signal is sent. -/
def raise (s : ChildSignal) : ChildSignal :=
  if s.blocked then { s with pending := true } else { s with notified := true }

/-- Puts the signal into the mask. -/
def block (s : ChildSignal) : ChildSignal := { s with blocked := true }

/-- Sets the mask to what it was; a waiting signal is delivered if it can be. -/
def restore (previous : Bool) (s : ChildSignal) : ChildSignal :=
  if previous = false ∧ s.pending = true then ⟨false, false, true⟩
  else { s with blocked := previous }

/-- Clears the flag. -/
def clear (s : ChildSignal) : ChildSignal := { s with notified := false }

end ChildSignal

/-- What happened to the children of the shell. -/
inductive Event where
  /-- A child was forked for a pipeline of the class. -/
  | forked (pid : Int) (jobClass : JobClass)
  /-- A child ended. -/
  | died (pid : Int) (ending : Ending)
  /-- A wait call that blocks was made. -/
  | waited
  /-- A child was reaped, listed as running under the class if under any. -/
  | reaped (status : WaitStatus) (listed : Option JobClass)
  /-- A child was reaped, and its status could not be decoded. -/
  | undecodable (pid : Int) (ending : Ending)
  /-- A builtin command ran in the shell. -/
  | builtin (name : Bytes)
  deriving DecidableEq, Repr

/-- The shell's side of its children, on a host. -/
structure Supervisor (σ : Type) where
  host : σ
  children : List Child := []
  signal : ChildSignal := {}
  jobs : JobTable := {}
  /-- What has happened so far, the earliest first. -/
  journal : List Event := []

/-- Why the shell does not go on. -/
inductive Stop where
  /-- A call failed in the shell itself. -/
  | failed (error : ResourceError)
  /-- An assertion of the shell does not hold. -/
  | assertionFailed
  /-- The shell does not come back. -/
  | lost (loss : Loss)
  deriving DecidableEq, Repr, Inhabited

/-- Computations on a supervisor.  What they have done stays done when they stop early. -/
abbrev Supervised (σ : Type) := ExceptT Stop (StateM (Supervisor σ))

namespace Supervisor

variable {σ : Type}

/-- A child ends: it stays with the kernel until it is reaped, and the signal is sent.  Processes
that are not living children are not the kernel's business here. -/
def bury (death : Int × Ending) (s : Supervisor σ) : Supervisor σ :=
  if s.children.any fun c => c.pid = death.1 ∧ c.ending = none then
    { s with
      children := s.children.map fun c =>
        if c.pid = death.1 ∧ c.ending = none then { c with ending := some death.2 } else c
      signal := s.signal.raise
      journal := s.journal ++ [.died death.1 death.2] }
  else s

/-- The least process id above those of all children. -/
def unusedPid (children : List Child) : Int :=
  children.foldl (fun pid c => max pid (c.pid + 1)) 1

/-- Writes an event into the journal. -/
def note (e : Event) : Supervised σ Unit :=
  modify fun s => { s with journal := s.journal ++ [e] }

/-- Stops because a call failed. -/
def fail {α : Type} (call : SystemCall) (errno : Errno) : Supervised σ α :=
  throw (.failed ⟨call, errno⟩)

/-- Time passes before the next call of the shell. -/
def drift [Host σ] (held : Descriptors) : Supervised σ Unit :=
  modify fun s =>
    let (deaths, host) := Host.drift held s.host
    deaths.foldl (fun s death => s.bury death) { s with host := host }

/-- Time passes, and then a call fails if the host says so. -/
def enterCall [Host σ] (held : Descriptors) (call : SystemCall) : Supervised σ Unit := do
  drift held
  match Host.refuses call (← get).host with
  | some errno => fail call errno
  | none => return ()

/-- The process id for the next child: the host's choice, unless a child has it. -/
def choosePid [Host σ] (s : Supervisor σ) : Int :=
  let pid := Host.nextPid s.host
  if pid ≤ 0 ∨ s.children.any (·.pid = pid) then unusedPid s.children else pid

/-- Forks a child. -/
def fork [Host σ] (held : Descriptors) (assignment : Assignment) : Supervised σ Int := do
  enterCall held .fork
  let pid := (← get).choosePid
  modify fun s =>
    { s with
      host := Host.start pid assignment s.host
      children := s.children ++ [{ pid := pid }] }
  note (.forked pid assignment.jobClass)
  return pid

/-- Whether some child is dead. -/
def hasDead (s : Supervisor σ) : Bool := s.children.any (·.ending.isSome)

/-- Takes the first dead child from the kernel's list. -/
def unlinkDead : List Child → Option ((Int × Ending) × List Child)
  | [] => none
  | ⟨pid, some ending⟩ :: children => some ((pid, ending), children)
  | c :: children => (unlinkDead children).map fun (death, rest) => (death, c :: rest)

/-- Reaps the first dead child, if there is one, and decodes its status.  When the status cannot
be decoded the call fails, and the child is gone all the same. -/
def reapDead : Supervised σ (Option WaitStatus) := do
  let s ← get
  match unlinkDead s.children with
  | none => return none
  | some ((pid, ending), children) =>
    set { s with children := children }
    match ending.decode pid with
    | .ok status =>
      note (.reaped status (s.jobs.classOf? pid))
      return some status
    | .error errno =>
      note (.undecodable pid ending)
      fail .waitpid errno

/-- The wait call that does not block: `none` if no child is dead, or there is no child. -/
def reapOne [Host σ] (held : Descriptors) : Supervised σ (Option WaitStatus) := do
  drift held
  reapDead

/-- The host goes on until a child ends. -/
def sleepUntilDeath [Host σ] (held : Descriptors) : Supervised σ Unit := do
  let s ← get
  if s.hasDead then return ()
  match Host.await held s.host with
  | .ok (death, host) => set ({ s with host := host }.bury death)
  | .error (loss, host) => do
    set { s with host := host }
    throw (.lost loss)

/-- The wait call that blocks until a child is dead. -/
def waitOne [Host σ] (held : Descriptors) : Supervised σ WaitStatus := do
  drift held
  note .waited
  if (← get).children.isEmpty then fail .waitpid Errno.noChild
  sleepUntilDeath held
  match ← reapDead with
  | some status => return status
  | none => throw (.lost .stuck)

/-- Books a status in the job table. -/
def book (status : WaitStatus) : Supervised σ Unit :=
  modify fun s => { s with jobs := (s.jobs.record status).2 }

/-- Lists a child as running. -/
def register (pid : Int) (jobClass : JobClass) : Supervised σ Unit := do
  let s ← get
  match s.jobs.register pid jobClass with
  | some jobs => set { s with jobs := jobs }
  | none => throw .assertionFailed

/-- Clears the flag and says whether it was raised. -/
def takeNotice : Supervised σ Bool := do
  let s ← get
  set { s with signal := s.signal.clear }
  return s.signal.notified

/-- Reaps dead children until there is none, at most as many as there are children. -/
def reapAll [Host σ] (held : Descriptors) : Nat → Supervised σ Unit
  | 0 => return ()
  | n + 1 => do
    match ← reapOne held with
    | none => return ()
    | some status =>
      book status
      reapAll held n

/-- Reaps and books every child that is dead. -/
def reapTerminated [Host σ] (held : Descriptors) : Supervised σ Unit := do
  let _ ← takeNotice
  reapAll held (← get).children.length

/-- The same, but only if a death was signalled since the flag was last cleared. -/
def reapIfNotified [Host σ] (held : Descriptors) : Supervised σ Unit := do
  if ← takeNotice then reapTerminated held

/-- Waits while a foreground job is listed.  Each round reaps a child, so when as many rounds are
over as there were children, the next wait call has no child to wait for. -/
def waitRounds [Host σ] (held : Descriptors) : Nat → Supervised σ Unit
  | 0 => do
    if (← get).jobs.hasForeground then
      let _ ← waitOne held
  | n + 1 => do
    if (← get).jobs.hasForeground then
      book (← waitOne held)
      waitRounds held n

/-- Waits until no foreground job is listed. -/
def waitForeground [Host σ] (held : Descriptors) : Supervised σ Unit := do
  waitRounds held (← get).children.length

/-- Hands out the completed jobs. -/
def takeCompleted : Supervised σ (List Job) := do
  let s ← get
  set { s with jobs := s.jobs.takeCompleted.2 }
  return s.jobs.takeCompleted.1

/-- Runs a computation and puts the mask back afterwards, however it ends. -/
def restoring {α : Type} (previous : Bool) (body : Supervised σ α) : Supervised σ α :=
  ExceptT.mk fun s =>
    let (result, s) := body.run s
    (result, { s with signal := s.signal.restore previous })

/-- Blocks the signal and gives the previous mask. -/
def block [Host σ] (held : Descriptors) : Supervised σ Bool := do
  enterCall held .sigprocmask
  let s ← get
  set { s with signal := s.signal.block }
  return s.signal.blocked

/-- Runs a computation with the signal blocked. -/
def guarded [Host σ] {α : Type} (held : Descriptors) (body : Supervised σ α) : Supervised σ α := do
  let previous ← block held
  restoring previous body

/-- Reaps what is dead and hands out everything that is completed. -/
def collectCompleted [Host σ] (held : Descriptors) : Supervised σ (List Job) :=
  guarded held do
    reapTerminated held
    takeCompleted

end Supervisor

end JobShell
