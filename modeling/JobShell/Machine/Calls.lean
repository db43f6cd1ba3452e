/-
**What the calls of a process do.**

A call gets a reply, or it cannot be answered yet and the process waits.  Running another program
and forking change the process itself and are in `JobShell.Machine.Schedule`.

Main definitions:

* `JobShell.Machine.Outcome` — a reply, or none yet;
* `JobShell.Machine.openPath`, `JobShell.Machine.read`, `JobShell.Machine.write` — files and pipes;
* `JobShell.Machine.perform` — all calls.
-/

import JobShell.Machine.ProcessFiles

set_option autoImplicit false

namespace JobShell.Machine

/-- A reply, or none yet. -/
inductive Outcome (ρ : Type) where
  | reply (value : ρ) (m : Machine)
  | blocked (m : Machine)

/-- Changes the descriptors of a process. -/
def setDescriptors (m : Machine) (pid : Int) (d : Descriptors) : Machine :=
  m.update pid fun p => { p with descriptors := d }

/-- Gives an open file the least free number of a process. -/
def allocate (m : Machine) (p : Process) (file : OpenFile) :
    Outcome (Except Errno Nat) :=
  match p.descriptors.allocate? file 0 with
  | some (fd, d) => .reply (.ok fd) (m.setDescriptors p.pid d)
  | none => .reply (.error Errno.tooManyFiles) m

/-! ### Opening -/

/-- Whether a process waits to open an end of a pipe. -/
def knocks (i : Nat) (reading : Bool) (p : Process) : Bool := p.knocking == some (i, reading)

/-- Opens one end of the pipe of a fifo.  That takes somebody who holds the other end or waits to
open it.  What nobody was left to read is gone. -/
def openFifo (m : Machine) (held : Descriptors) (p : Process) (i : Nat) (reading : Bool) :
    Outcome (Except Errno Nat) :=
  let own : OpenFile := if reading then .pipeReader i else .pipeWriter i
  let other : OpenFile := if reading then .pipeWriter i else .pipeReader i
  let guests := m.processes.filter (knocks i (!reading))
  if p.admitted ∨ m.isHeld held other ∨ guests.isEmpty = false then
    let m := if m.isHeld held own ∨ m.isHeld held other ∨ p.admitted then m else m.setPipe i []
    let m := guests.foldl (fun m guest => m.update guest.pid fun q => { q with admitted := true }) m
    let m := m.update p.pid fun q => { q with knocking := none, admitted := false }
    m.allocate p own
  else
    .blocked (m.update p.pid fun q => { q with knocking := some (i, reading) })

/-- Whether a pipe is that of a fifo. -/
def hasName (m : Machine) (i : Nat) : Bool := m.files.nodes.any (·.content = .fifo i)

/-- Opens an end of a pipe, both of which are at hand unless it is that of a fifo. -/
def openPipe (m : Machine) (held : Descriptors) (p : Process) (i : Nat) (how : OpenMode) :
    Outcome (Except Errno Nat) :=
  if how.read ∧ how.write then m.allocate p (.pipeReader i)
  else if m.hasName i then m.openFifo held p i how.read
  else m.allocate p (if how.read then .pipeReader i else .pipeWriter i)

/-- Opens a file of the tree. -/
def openFile (m : Machine) (held : Descriptors) (p : Process) (node : Nat) (how : OpenMode) :
    Outcome (Except Errno Nat) :=
  match m.files.node? node with
  | some { content := .fifo i, .. } => m.openPipe held p i how
  | _ =>
    let (number, m) :=
      m.addOpening { node, readable := how.read, writable := how.write, append := how.append }
    m.allocate p (.opened number)

/-- Opens once more what a descriptor stands for. -/
def reopen (m : Machine) (held : Descriptors) (p : Process) (file : OpenFile) (how : OpenMode) :
    Outcome (Except Errno Nat) :=
  match file with
  | .output | .diagnostics => m.allocate p file
  | .pipeReader i | .pipeWriter i => m.openPipe held p i how
  | .opened number =>
    match m.openings[number]? with
    | none => .reply (.error Errno.noEntry) m
    | some o =>
      match m.files.allowOpen o.node how with
      | .error errno => .reply (.error errno) m
      | .ok files => { m with files := files }.openFile held p o.node how

/-- Opens what is told of a process. -/
def openAccount (m : Machine) (p : Process) (process : Int) (item : FileSystem.Account)
    (how : OpenMode) : Outcome (Except Errno Nat) :=
  if how.write then .reply (.error Errno.accessDenied) m
  else
    let (node, files) := m.files.add { content := .account process item, mode := 0o444 }
    let (number, m) :=
      { m with files := files }.addOpening { node, readable := true, writable := false }
    m.allocate p (.opened number)

/-- Notes that a process has opened a file by its path, if it has. -/
def Outcome.noting (p : Process) (path : Bytes) (how : OpenMode) :
    Outcome (Except Errno Nat) → Outcome (Except Errno Nat)
  | .reply (.ok fd) m =>
    .reply (.ok fd) (m.update p.pid fun q =>
      { q with
        opened := q.opened ++ (q.descriptors.file? fd).toList.map fun file => ⟨path, how, file⟩ })
  | outcome => outcome

/-- Opens the file of a path. -/
def openPath (m : Machine) (held : Descriptors) (p : Process) (path : Bytes) (how : OpenMode)
    (mode : Nat) : Outcome (Except Errno Nat) :=
  if p.descriptors.room = 0 then .reply (.error Errno.tooManyFiles) m
  else
    match descriptorPath? path, m.account? p path with
    | some fd, _ =>
      match p.descriptors.file? fd with
      | some file => m.reopen held p file how
      | none => .reply (.error Errno.noEntry) m
    | none, some (process, item) => m.openAccount p process item how
    | none, none =>
      match m.files.openNode p.place path how (mode &&& (0o7777 ^^^ p.mask)) with
      | .error errno => .reply (.error errno) m
      | .ok (node, files) => { m with files := files }.openFile held p node how

/-! ### Reading and writing -/

/-- Replaces an open file. -/
def setOpening (m : Machine) (number : Nat) (o : Opening) : Machine :=
  { m with openings := m.openings.set number o }

/-- Reads from an open file that holds some bytes. -/
def readFrom (m : Machine) (number : Nat) (o : Opening) (count : Nat) (data : Bytes) :
    Except Errno Bytes × Machine :=
  let bytes := (data.drop o.offset).take count
  (.ok bytes, m.setOpening number { o with offset := o.offset + bytes.length })

/-- Reads from an open file of the tree. -/
def readOpening (m : Machine) (number : Nat) (o : Opening) (count : Nat) :
    Except Errno Bytes × Machine :=
  if o.readable = false then (.error Errno.badDescriptor, m)
  else
    match m.files.node? o.node with
    | some { content := .file data, .. } => m.readFrom number o count data
    | some { content := .account process item, .. } =>
      match m.process? process with
      | some q => m.readFrom number o count (accountText q item)
      | none => (.error Errno.noProcess, m)
    | some { content := .directory _ _, .. } => (.error Errno.isDirectory, m)
    | some { content := .device .null, .. } => (.ok [], m)
    | some { content := .device _, .. } => (.ok (List.replicate count 0), m)
    | _ => (.error Errno.invalid, m)

/-- Reads from a descriptor.  An empty pipe is at its end only if nobody can write to it. -/
def read (m : Machine) (held : Descriptors) (p : Process) (fd count : Nat) :
    Outcome (Except Errno Bytes) :=
  match p.descriptors.file? fd with
  | some (.pipeReader i) =>
    if m.pipe i = [] then
      if m.isWritten held i then .blocked m else .reply (.ok []) m
    else .reply (.ok ((m.pipe i).take count)) (m.setPipe i ((m.pipe i).drop count))
  | some (.opened number) =>
    match m.openings[number]? with
    | some o =>
      let (result, m) := m.readOpening number o count
      .reply result m
    | none => .reply (.error Errno.badDescriptor) m
  | _ => .reply (.error Errno.badDescriptor) m

/-- Writes to an open file of the tree. -/
def writeOpening (m : Machine) (number : Nat) (o : Opening) (bytes : Bytes) :
    Except Errno Nat × Machine :=
  if o.writable = false then (.error Errno.badDescriptor, m)
  else
    match m.files.node? o.node with
    | none => (.error Errno.invalid, m)
    | some node =>
      match node.content with
      | .file data =>
        let offset := if o.append then data.length else o.offset
        let files := m.files.setNode o.node
          { node with content := .file (FileSystem.splice data offset bytes) }
        (.ok bytes.length,
          { m with files := files }.setOpening number { o with offset := offset + bytes.length })
      | .device .full => (.error Errno.noSpace, m)
      | .device _ => (.ok bytes.length, m)
      | _ => (.error Errno.invalid, m)

/-- Writes to a pipe.  A writer that nobody reads gets a signal.  A full pipe makes it wait, and a
short write goes in as a whole or not at all. -/
def writePipe (m : Machine) (held : Descriptors) (p : Process) (i : Nat) (bytes : Bytes) :
    Outcome (Except Errno Nat) :=
  if m.isRead held i = false then
    .reply (.error Errno.brokenPipe) (m.deliver Signal.pipe p)
  else
    let room := pipeCapacity - (m.pipe i).length
    if room = 0 ∨ (bytes.length ≤ pipeUnit ∧ room < bytes.length) then .blocked m
    else
      let piece := bytes.take room
      .reply (.ok piece.length) (m.setPipe i (m.pipe i ++ piece))

/-- Writes to a descriptor. -/
def write (m : Machine) (held : Descriptors) (p : Process) (fd : Nat) (bytes : Bytes) :
    Outcome (Except Errno Nat) :=
  match p.descriptors.file? fd with
  | some (.pipeWriter i) => m.writePipe held p i bytes
  | some .output =>
    .reply (.ok bytes.length) { m with output := m.output ++ bytes }
  | some .diagnostics =>
    .reply (.ok bytes.length) { m with diagnostics := m.diagnostics ++ bytes }
  | some (.opened number) =>
    match m.openings[number]? with
    | some o =>
      let (result, m) := m.writeOpening number o bytes
      .reply result m
    | none => .reply (.error Errno.badDescriptor) m
  | _ => .reply (.error Errno.badDescriptor) m

/-- The position in an open file that is some way from a place, if there is one. -/
def position? (m : Machine) (o : Opening) (whence : Whence) (distance : Int) : Option Nat :=
  match m.files.node? o.node with
  | some { content := .device _, .. } => some 0
  | node? =>
    let size := match node? with
      | some { content := .file data, .. } => data.length
      | _ => 0
    let start := match whence with
      | .start => 0
      | .here => o.offset
      | .finish => size
    (start + distance).toNat?

/-- Moves the position in an open file. -/
def seek (m : Machine) (p : Process) (fd : Nat) (whence : Whence) (distance : Int) :
    Except Errno Nat × Machine :=
  match p.descriptors.file? fd with
  | some (.opened number) =>
    match m.openings[number]? with
    | some o =>
      match m.position? o whence distance with
      | some offset => (.ok offset, m.setOpening number { o with offset := offset })
      | none => (.error Errno.invalid, m)
    | none => (.error Errno.badDescriptor, m)
  | some _ => (.error Errno.illegalSeek, m)
  | none => (.error Errno.badDescriptor, m)

/-- Gives the file of a descriptor another size. -/
def resize (m : Machine) (p : Process) (fd size : Nat) : Except Errno Unit × Machine :=
  match p.descriptors.file? fd with
  | none => (.error Errno.badDescriptor, m)
  | some (.opened number) =>
    match m.openings[number]? with
    | some { writable := true, node := n, .. } =>
      match m.files.resize n size with
      | some files => (.ok (), { m with files := files })
      | none => (.error Errno.invalid, m)
    | _ => (.error Errno.invalid, m)
  | some _ => (.error Errno.invalid, m)

/-! ### Descriptors -/

/-- Lets a descriptor stand for the open file of another one. -/
def dup2 (m : Machine) (p : Process) (old new : Nat) : Except Errno Unit × Machine :=
  match p.descriptors.file? old with
  | none => (.error Errno.badDescriptor, m)
  | some file =>
    if old = new then (.ok (), m)
    else (.ok (), m.setDescriptors p.pid (p.descriptors.assign new file))

/-- Closes a descriptor. -/
def close (m : Machine) (p : Process) (fd : Nat) : Except Errno Unit × Machine :=
  if p.descriptors.isOpen fd then (.ok (), m.setDescriptors p.pid (p.descriptors.close fd))
  else (.error Errno.badDescriptor, m)

/-- Makes a pipe. -/
def makePipe (m : Machine) (p : Process) : Except Errno (Nat × Nat) × Machine :=
  if p.descriptors.room < 2 then (.error Errno.tooManyFiles, m)
  else
    let (i, m) := m.addPipe
    let reader := p.descriptors.leastFree 0
    let d := p.descriptors.assign reader (.pipeReader i)
    let writer := d.leastFree 0
    (.ok (reader, writer), m.setDescriptors p.pid (d.assign writer (.pipeWriter i)))

/-! ### Processes -/

/-- Waits for a child that has ended, and takes note of it.  Waking up at a signal takes a moment, in
which a child may still end. -/
def wait (m : Machine) (p : Process) (child : Option Int) (how : Waiting) :
    Outcome (Except Errno (Option (Int × Ending))) :=
  let children := m.processes.filter fun q =>
    q.parent = p.pid ∧ q.collected = false ∧ (child = none ∨ child = some q.pid)
  let dead := children.findSome? fun q =>
    match q.phase with
    | .ended ending => some (q.pid, ending)
    | .running _ => none
  let wakeAt (time : Nat) : Outcome (Except Errno (Option (Int × Ending))) :=
    let wake := p.alarm.getD time
    if wake ≤ m.clock then .reply (.ok none) (m.update p.pid fun p => { p with alarm := none })
    else .blocked (m.update p.pid fun p => { p with alarm := some wake })
  match dead with
  | some (pid, ending) =>
    .reply (.ok (some (pid, ending)))
      ((m.update pid fun q => { q with collected := true }).update p.pid fun p =>
        { p with alarm := none })
  | none =>
    if children.isEmpty then .reply (.error Errno.noChild) m
    else
      match how with
      | .patient => .blocked m
      | .polling => .reply (.ok none) m
      | .alert => if p.caught = [] then .blocked m else wakeAt (m.clock + 1)
      | .within milliseconds => wakeAt (m.clock + milliseconds)

/-- Starts a new session. -/
def setsid (m : Machine) (p : Process) : Except Errno Unit × Machine :=
  if m.processes.any (·.group = p.pid) then (.error Errno.notPermitted, m)
  else (.ok (), m.update p.pid fun p => { p with group := p.pid, session := p.pid })

/-- Waits for the clock. -/
def sleep (m : Machine) (p : Process) (milliseconds : Nat) : Outcome Unit :=
  let wake := p.alarm.getD (m.clock + milliseconds)
  if wake ≤ m.clock then .reply () (m.update p.pid fun p => { p with alarm := none })
  else .blocked (m.update p.pid fun p => { p with alarm := some wake })

/-! ### The tree -/

/-- What is known of a file. -/
def fileStatus (m : Machine) (n : Nat) : Option FileStatus :=
  (m.files.node? n).map fun node => ⟨n, node.content, node.mode, m.files.names n⟩

/-- What is known of the file of a descriptor. -/
def statusOf (m : Machine) (p : Process) (fd : Nat) : Except Errno (Option FileStatus) :=
  match p.descriptors.file? fd with
  | none => .error Errno.badDescriptor
  | some (.opened number) => .ok ((m.openings[number]?).bind fun o => m.fileStatus o.node)
  | some _ => .ok none

/-- What is known of the file behind the path of a descriptor: a stream that is no file of the tree
is like a pipe of the user. -/
def descriptorStatus (m : Machine) (p : Process) (fd : Nat) (follow : Bool) :
    Except Errno FileStatus :=
  match m.statusOf p fd with
  | .error _ => .error Errno.noEntry
  | .ok status =>
    if follow then
      .ok (status.getD { number := 0, content := .fifo 0, mode := 0o600 })
    else
      .ok { number := 0, content := .link (utf8 "/proc/self/fd/" ++ Bytes.ofNat fd), mode := 0o777 }

/-- What is known of the file of a path. -/
def status (m : Machine) (p : Process) (path : Bytes) (follow : Bool) : Except Errno FileStatus :=
  if isDescriptorDirectory path then .ok { number := 0, content := .directory [] 0, mode := 0o500 }
  else
    match descriptorPath? path with
    | some fd => m.descriptorStatus p fd follow
    | none =>
      if (m.account? p path).isSome then
        .ok { number := 0, content := .file [], mode := 0o444 }
      else do
        match m.fileStatus (← m.files.find p.place path follow) with
        | some status => return status
        | none => throw Errno.noEntry

/-- The names in a directory.  The directory of descriptors shows the one that lists it. -/
def list (m : Machine) (p : Process) (path : Bytes) : Except Errno (List Bytes) :=
  if isDescriptorDirectory path then
    .ok ((p.descriptors.leastFree 0 :: p.descriptors.entries.map (·.1)).map Bytes.ofNat)
  else do
    let n ← m.files.find p.place path true
    if m.files.isDirectory n = false then throw Errno.notDirectory
    m.files.demand n .read
    return (m.files.entries n).map (·.1)

/-- Whether something is permitted to a process. -/
def access (m : Machine) (p : Process) (path : Bytes) (permission : FileSystem.Permission) :
    Except Errno Unit :=
  if isDescriptorDirectory path ∨ (m.account? p path).isSome then
    if permission = .read then .ok () else .error Errno.accessDenied
  else
    match descriptorPath? path with
    | some fd =>
      match m.statusOf p fd with
      | .error _ => .error Errno.noEntry
      | .ok (some status) => m.files.demand status.number permission
      | .ok none => if permission = .execute then .error Errno.accessDenied else .ok ()
    | none => do m.files.demand (← m.files.find p.place path true) permission

/-- The target of a symbolic link. -/
def readLink (m : Machine) (p : Process) (path : Bytes) : Except Errno Bytes := do
  let n ← m.files.find p.place path false
  match m.files.node? n with
  | some { content := .link target, .. } => return target
  | _ => throw Errno.invalid

/-- Makes another directory the working directory of a process. -/
def changeDirectory (m : Machine) (p : Process) (path : Bytes) : Except Errno Unit × Machine :=
  match m.files.enter p.place path with
  | .error errno => (.error errno, m)
  | .ok place => (.ok (), m.update p.pid fun p => { p with place := place })

/-- A change of the tree as a process asks for it. -/
def maskChange (mask : Nat) : FileSystem.Change → FileSystem.Change
  | .makeDirectory path mode => .makeDirectory path (mode &&& (0o7777 ^^^ mask))
  | .makeFifo path mode => .makeFifo path (mode &&& (0o7777 ^^^ mask))
  | change => change

/-- Changes the tree. -/
def alter (m : Machine) (p : Process) (change : FileSystem.Change) :
    Except Errno Unit × Machine :=
  let (i, m') := m.addPipe
  match m.files.alter p.place i (maskChange p.mask change) with
  | .error errno => (.error errno, m)
  | .ok files => (.ok (), { m' with files := files })

/-! ### All calls -/

/-- A reply that is there at once. -/
def Outcome.ofPair {ρ : Type} (r : ρ × Machine) : Outcome ρ := .reply r.1 r.2

/-- What a call does.  `exec`, `fork` and `exit` change the process itself and are not
answered here. -/
def perform (m : Machine) (held : Descriptors) (p : Process) : (c : Call) → Outcome c.Reply
  | .openPath path how mode => (m.openPath held p path how mode).noting p path how
  | .close fd => .ofPair (m.close p fd)
  | .dup2 old new => .ofPair (m.dup2 p old new)
  | .duplicate fd least =>
    match p.descriptors.file? fd with
    | none => .reply (.error Errno.badDescriptor) m
    | some file =>
      match p.descriptors.allocate? file least with
      | none => .reply (.error Errno.tooManyFiles) m
      | some (new, d) => .reply (.ok new) (m.setDescriptors p.pid d)
  | .read fd count => m.read held p fd count
  | .write fd bytes => m.write held p fd bytes
  | .seek fd whence distance => .ofPair (m.seek p fd whence distance)
  | .pipe => .ofPair (m.makePipe p)
  | .fork => .reply (.error Errno.tryAgain) m
  | .wait child how => m.wait p child how
  | .exec _ _ _ => .reply Errno.noExecFormat m
  | .exit _ => .reply () m
  | .processId => .reply p.pid m
  | .parentId => .reply p.parent m
  | .kill pid signal =>
    match m.send p.pid p.group pid signal with
    | .error errno => .reply (.error errno) m
    | .ok (shell, m) => .reply (.ok ()) (if shell then m.signalShell signal else m)
  | .setsid => .ofPair (m.setsid p)
  | .dispose signal disposition =>
    .reply (.ok ()) (m.update p.pid fun p =>
      { p with dispositions := (signal, disposition) :: p.dispositions.filter (·.1 ≠ signal) })
  | .unblockChild =>
    .reply (.ok ()) (m.update p.pid fun p => { p with childBlocked := false })
  | .caught => .reply p.caught m
  | .takeCaught => .reply p.caught (m.update p.pid fun p => { p with caught := [] })
  | .changeDirectory path => .ofPair (m.changeDirectory p path)
  | .workingDirectory => .reply (m.files.pathOf p.place) m
  | .setMask mask => .reply p.mask (m.update p.pid fun p => { p with mask := mask })
  | .alter change => .ofPair (m.alter p change)
  | .resize fd size => .ofPair (m.resize p fd size)
  | .access path permission => .reply (m.access p path permission) m
  | .status path follow => .reply (m.status p path follow) m
  | .statusOf fd => .reply (m.statusOf p fd) m
  | .list path => .reply (m.list p path) m
  | .readLink path => .reply (m.readLink p path) m
  | .sleep milliseconds => m.sleep p milliseconds

end JobShell.Machine
