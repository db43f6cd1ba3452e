/-
**Exercising the job table.**

A supervisor is driven step by step: children are started and die on command, and the operations
on the job table are called one at a time, each in a scope of its own.  Between the steps nothing
happens.

Main definitions:

* `JobShell.Still` — the host on which nothing happens by itself;
* `JobShell.Exercise.Step`, `JobShell.Exercise.Result` — a step and what it gives;
* `JobShell.Exercise.State` — the supervisor, and what the names of processes mean;
* `JobShell.Exercise.run` — the results of a list of steps, with the state after each.
-/

import JobShell.Job.Supervision

set_option autoImplicit false

namespace JobShell

/-- A host on which nothing happens by itself. -/
structure Still where
  deriving DecidableEq, Repr, Inhabited

instance : Host Still where
  refuses _ _ := none
  newPipe h := (0, h)
  nextPid _ := 0
  start _ _ h := h
  write _ _ h := h
  unread _ _ := []
  take _ _ h := h
  enter _ _ _ := .error Errno.noEntry
  pathOf _ _ := .error Errno.noEntry
  kill _ _ _ := .error Errno.noProcess
  drift _ h := ([], h)
  await _ h := .error (.stuck, h)

namespace Exercise

/-- One step.  Processes are meant by names. -/
inductive Step where
  /-- A child is started, and listed under the class if there is one. -/
  | spawn (name : String) (jobClass : Option JobClass)
  /-- A process is listed: the last child that was started under the name, or a stranger. -/
  | register (name : String) (jobClass : JobClass)
  /-- A child ends. -/
  | die (name : String) (ending : Ending)
  | reap
  | reapIfNotified
  | wait
  | take
  | report
  | pending
  | block
  /-- The mask is put back to what it was before a block: that of the number, or the last one. -/
  | unblock (index : Option Nat)
  deriving DecidableEq, Repr

/-- What a step gives. -/
inductive Result where
  | done
  | stopped (cause : Stop)
  /-- The step would wait for a child that lives. -/
  | wouldBlock
  | taken (jobs : List Job)
  | reported (jobs : List Job)
  | flag (raised : Bool)
  deriving DecidableEq, Repr

/-- A supervisor, the masks that the blocks in force will put back, and the names in use. -/
structure State where
  supervisor : Supervisor Still
  masks : List Bool := []
  /-- The processes that the names mean. -/
  names : List (String × Int) := []
  /-- How many children have been started. -/
  spawned : Nat := 0
  /-- How many strangers there are. -/
  strangers : Nat := 0

/-- The process id of the first stranger, which is beyond those of all processes. -/
def firstStranger : Int := 100000000

namespace State

/-- The name of a process, or its id where no name means it any more. -/
def nameOf (s : State) (pid : Int) : String :=
  ((s.names.find? (·.2 = pid)).map (·.1)).getD ("Pid(" ++ Int.repr pid ++ ")")

/-- Lets a name mean a process. -/
def call (s : State) (name : String) (pid : Int) : State :=
  { s with names := (name, pid) :: s.names.filter (·.1 ≠ name) }

/-- Starts a child under a name. -/
def spawn (s : State) (name : String) : Int × State :=
  let pid := (s.spawned : Int) + 1
  let supervisor :=
    { s.supervisor with children := s.supervisor.children ++ [{ pid := pid }] }
  (pid, { s.call name pid with supervisor := supervisor, spawned := s.spawned + 1 })

/-- The process that a name means: a stranger, if it means none yet. -/
def meant (s : State) (name : String) : Int × State :=
  match s.names.lookup name with
  | some pid => (pid, s)
  | none =>
    let pid := firstStranger + s.strangers
    (pid, { s.call name pid with strangers := s.strangers + 1 })

end State

/-- Before the first step. -/
def initial : State := { supervisor := { host := ⟨⟩ } }

/-- Runs a computation on the supervisor. -/
def perform {α : Type} (body : Supervised Still α) (result : α → Result) (s : State) :
    Result × State :=
  let (outcome, supervisor) := body.run s.supervisor
  (match outcome with
    | .ok a => result a
    | .error cause => .stopped cause,
    { s with supervisor := supervisor })

/-- Whether a wait for the foreground would wait for a child that lives. -/
def wouldBlock (s : Supervisor Still) : Bool :=
  s.children.any (·.ending.isNone) &&
    !((s.jobs.running.filter (·.jobClass = .foreground)).all fun job =>
      s.children.any fun c => c.pid = job.pid ∧ c.ending.isSome)

/-- The shell in the exercise holds no descriptors. -/
def held : Descriptors := {}

/-- The end of a process as its parent learns of it: of an exit code there are eight bits. -/
def ended : Ending → Ending
  | .exited code => .exited (code % 256)
  | .killed signal => .killed signal

/-- Lists a process as running. -/
def list (pid : Int) (jobClass : JobClass) (s : State) : Result × State :=
  perform (Supervisor.guarded held (Supervisor.register pid jobClass)) (fun _ => .done) s

/-- One step. -/
def step (s : State) : Step → Result × State
  | .spawn name none => (.done, (s.spawn name).2)
  | .spawn name (some jobClass) =>
    let (pid, s) := s.spawn name
    list pid jobClass s
  | .register name jobClass =>
    let (pid, s) := s.meant name
    list pid jobClass s
  | .die name ending =>
    match s.names.lookup name with
    | some pid => (.done, { s with supervisor := s.supervisor.bury (pid, ended ending) })
    | none => (.done, s)
  | .reap =>
    perform (Supervisor.guarded held (Supervisor.reapTerminated held)) (fun _ => .done) s
  | .reapIfNotified =>
    perform (Supervisor.guarded held (Supervisor.reapIfNotified held)) (fun _ => .done) s
  | .wait =>
    if wouldBlock s.supervisor then (.wouldBlock, s)
    else perform (Supervisor.guarded held (Supervisor.waitForeground held)) (fun _ => .done) s
  | .take => perform (Supervisor.guarded held Supervisor.takeCompleted) .taken s
  | .report => perform (Supervisor.collectCompleted held) .reported s
  | .pending => perform Supervisor.takeNotice .flag s
  | .block =>
    let signal := s.supervisor.signal
    (.done,
      { s with
        supervisor := { s.supervisor with signal := signal.block }
        masks := s.masks ++ [signal.blocked] })
  | .unblock index =>
    let i := index.getD (s.masks.length - 1)
    match s.masks[i]? with
    | none => (.done, s)
    | some previous =>
      (.done,
        { s with
          supervisor := { s.supervisor with signal := s.supervisor.signal.restore previous }
          masks := s.masks.eraseIdx i })

/-- The results of steps, each with the state after it. -/
def run (s : State) : List Step → List (Result × State)
  | [] => []
  | first :: rest =>
    let (result, s) := step s first
    (result, s) :: run s rest

end Exercise

end JobShell
