/-
**What opening the file of a redirection does.**

The file of a redirection is there and is opened as it is, or is emptied first, or has to be made.
The path may also be that of a descriptor, and then what stands behind that is opened once more.
Besides the tree and the list of open files only the process itself notices: it has one more
descriptor.

Main definitions:

* `JobShell.FileSystem.Readied` — a file as a redirection wants it, kept or emptied;
* `JobShell.Scene` — what matters of the machine to a process that opens files;
* `JobShell.Scene.Obtains` — the file of a redirection, found or made, and the tree after that;
* `JobShell.Scene.Gets` — what is open after the call, and the open files of the machine.

Main results:

* `JobShell.FileSystem.openNode_cases` — a file of the tree is found and readied, or made;
* `JobShell.Scene.Obtains.leaves`, `JobShell.Scene.Obtains.new` — what becomes of the files that
  were there, and what a new one is;
* `JobShell.Machine.openPath_answered` — every reply of the call is accounted for.
-/

import JobShell.Machine.Schedule
import JobShell.Proofs.Descriptors
import JobShell.Proofs.Steps

set_option autoImplicit false

namespace JobShell

open Launching (openMode standard fileMode)

/-! ### The tree -/

namespace FileSystem

variable {fs fs' : FileSystem} {n n' place directory : Nat} {node : Node} {path : Bytes}
  {direction : Direction}

/-- The file that the path of a redirection leads to.  To read it, it has to be there. -/
def Finds (fs : FileSystem) (place : Nat) (path : Bytes) (n : Nat) : Direction → Prop
  | .input => fs.find place path true = .ok n
  | .output | .append =>
    ∃ spot, fs.spot place path (.making true) = .ok spot ∧ spot.node = some n

/-- The path leads to a name in a directory that is the name of no file. -/
def Lacks (fs : FileSystem) (place : Nat) (path : Bytes) (directory : Nat) (name : Bytes) : Prop :=
  ∃ slashed, fs.spot place path (.making true) = .ok ⟨directory, .name name, none, slashed⟩

/-- A file as a redirection wants it: what is stored in it is kept, or is gone if it is to be
written from its start. -/
inductive Readied (fs : FileSystem) (n : Nat) : Direction → FileSystem → Prop where
  | kept {direction : Direction} :
      (direction = .output → ∀ node data, fs.node? n = some node → node.content ≠ .file data) →
        Readied fs n direction fs
  | emptied {node : Node} {data : Bytes} : fs.node? n = some node → node.content = .file data →
      Readied fs n .output (fs.setNode n { node with content := .file [] })

theorem node?_setNode (h : fs.node? n = some node) (node' : Node) (n' : Nat) :
    (fs.setNode n node').node? n' = if n' = n then some node' else fs.node? n' := by
  have hlt : n < fs.nodes.length := (List.getElem?_eq_some_iff.1 h).1
  rw [node?, setNode, List.getElem?_set]
  by_cases hn : n' = n
  · simp [hn, hlt]
  · simp [hn, Ne.symm hn, node?]

/-- A file that is added leaves the others as they are. -/
theorem node?_add (h : fs.node? n = some node) (added : Node) :
    (fs.add added).2.node? n = some node := by
  have hlt : n < fs.nodes.length := (List.getElem?_eq_some_iff.1 h).1
  rw [node?, add, List.getElem?_append_left hlt]
  exact h

theorem node?_add_length (fs : FileSystem) (added : Node) :
    (fs.add added).2.node? fs.nodes.length = some added := by
  simp [node?, add]

theorem length_addName (fs : FileSystem) (directory : Nat) (name : Bytes) (new : Nat) :
    (fs.addName directory name new).nodes.length = fs.nodes.length := by
  unfold addName
  repeat' split
  all_goals simp [setNode]

/-- A new name changes nothing but the list of names of its directory. -/
theorem node?_addName (h : fs.node? n = some node) (directory : Nat) (name : Bytes) (new : Nat) :
    (fs.addName directory name new).node? n = some node ∨
      ∃ entries parent, node.content = .directory entries parent ∧
        (fs.addName directory name new).node? n =
          some { node with content := .directory (entries ++ [(name, new)]) parent } := by
  unfold addName
  split
  · rename_i node' hnode'
    split
    · rename_i entries parent hcontent
      rw [node?_setNode hnode']
      by_cases hn : n = directory
      · subst hn
        obtain rfl : node' = node := Option.some.inj (hnode'.symm.trans h)
        exact .inr ⟨entries, parent, hcontent, by rw [if_pos rfl]⟩
      · rw [if_neg hn]
        exact .inl h
    · exact .inl h
  · exact .inl h

/-- What is left of the tree if a file may be opened. -/
theorem eq_of_allowOpen {how : OpenMode} (h : fs.allowOpen n how = .ok fs') :
    fs' = if how.truncate then (fs.resize n 0).getD fs else fs := by
  unfold allowOpen at h
  simp only [bind, Except.bind, pure, Except.pure, throw, throwThe, MonadExceptOf.throw] at h
  generalize (if how.truncate = true then (fs.resize n 0).getD fs else fs) = left at h ⊢
  -- every test on the way either fails the call or changes nothing
  repeat' split at h
  all_goals cases h
  all_goals rfl

theorem resize_zero (h : fs.node? n = some node) : fs.resize n 0 =
    match node.content with
    | .file _ => some (fs.setNode n { node with content := .file [] })
    | _ => none := by
  unfold resize
  rw [h]
  cases hcontent : node.content <;> simp [hcontent, resized]

/-- What is open for a redirection has been readied for it. -/
theorem allowOpen_readied (h : fs.allowOpen n (openMode direction) = .ok fs') :
    fs.Readied n direction fs' := by
  have hfs' := eq_of_allowOpen h
  cases direction with
  | input | append =>
      obtain rfl : fs' = fs := hfs'
      exact .kept nofun
  | output =>
      replace hfs' : fs' = (fs.resize n 0).getD fs := hfs'
      cases hnode : fs.node? n with
      | none =>
          obtain rfl : fs' = fs := by rw [hfs', resize, hnode]; rfl
          exact .kept fun _ node data hn => by rw [hnode] at hn; cases hn
      | some node =>
          rw [resize_zero hnode] at hfs'
          cases hcontent : node.content with
          | file data =>
              rw [hcontent] at hfs'
              rw [hfs']
              exact .emptied hnode hcontent
          | _ =>
              rw [hcontent] at hfs'
              obtain rfl : fs' = fs := hfs'
              refine .kept fun _ node' data hn => ?_
              obtain rfl := Option.some.inj (hnode.symm.trans hn)
              simp [hcontent]

/-- **The file of a path** is found and readied, or it is made. -/
theorem openNode_cases {mode : Nat}
    (h : fs.openNode place path (openMode direction) mode = .ok (n, fs')) :
    (fs.Finds place path n direction ∧ fs.Readied n direction fs') ∨
      (direction ≠ .input ∧ ∃ directory name, fs.Lacks place path directory name ∧
        fs.make directory name { content := .file [], mode := mode } = (n, fs')) := by
  unfold openNode at h
  cases direction with
  | input =>
      rw [if_pos (show (openMode .input).create = false from rfl)] at h
      obtain ⟨n₁, hfind, h⟩ := eq_ok_of_bind h
      obtain ⟨fs₁, hallow, h⟩ := eq_ok_of_bind h
      cases h
      exact .inl ⟨hfind, allowOpen_readied hallow⟩
  | output | append =>
      rw [if_neg nofun] at h
      obtain ⟨⟨directory, last, node?, slashed⟩, hspot, h⟩ := eq_ok_of_bind h
      cases node? with
      | some n₁ =>
          obtain ⟨fs₁, hallow, h⟩ := eq_ok_of_bind h
          cases h
          exact .inl ⟨⟨_, hspot, rfl⟩, allowOpen_readied hallow⟩
      | none =>
          cases last with
          | name name =>
              obtain ⟨_, _, h⟩ := eq_ok_of_bind h
              exact .inr ⟨nofun, directory, name, ⟨slashed, hspot⟩, Except.ok.inj h⟩
          | dot | dotDot | nothing => cases h

end FileSystem

/-! ### A process and its files -/

/-- What matters of the machine to a process that opens files: the tree and the open files, what
has been written to the streams of the shell, and what the process has. -/
structure Scene where
  files : FileSystem
  openings : List Opening
  output : Bytes
  diagnostics : Bytes
  descriptors : Descriptors
  /-- The files that the process has opened by their paths. -/
  opened : List PathOpening
  /-- The working directory. -/
  place : Nat
  /-- The permissions that new files do not get. -/
  mask : Nat
  /-- The program that the process runs, once it has been started. -/
  image : Option Image
  /-- The attempts of the process to run its first program. -/
  arrivals : List Arrival

namespace Scene

open Machine (descriptorPath?)

/-- **The file of a redirection, and the tree once it is open.**  A path of a descriptor leads to
the file that stands behind it; another file is found, or is made where it is to be written. -/
inductive Obtains (s : Scene) (r : Redirection) : Nat → FileSystem → Prop where
  | again {fd number : Nat} {o : Opening} {files : FileSystem} :
      descriptorPath? r.target = some fd → s.descriptors.file? fd = some (.opened number) →
        s.openings[number]? = some o → s.files.Readied o.node r.direction files →
          Obtains s r o.node files
  | found {n : Nat} {files : FileSystem} :
      descriptorPath? r.target = none → s.files.Finds s.place r.target n r.direction →
        s.files.Readied n r.direction files → Obtains s r n files
  | made {directory n : Nat} {name : Bytes} {files : FileSystem} :
      descriptorPath? r.target = none → r.direction ≠ .input →
        s.files.Lacks s.place r.target directory name →
          s.files.make directory name
            { content := .file [], mode := fileMode &&& (0o7777 ^^^ s.mask) } = (n, files) →
              Obtains s r n files

/-- The end of a pipe that a redirection wants. -/
def pipeEnd (direction : Direction) (i : Nat) : OpenFile :=
  if direction = .input then .pipeReader i else .pipeWriter i

/-- An open file of the tree, at its start. -/
def fresh (direction : Direction) (n : Nat) : Opening :=
  { node := n
    readable := direction = .input
    writable := direction ≠ .input
    append := direction = .append }

/-- **What is open once the file of a redirection has been opened**, the tree, and the open files
of the machine. -/
inductive Gets (s : Scene) (r : Redirection) : OpenFile → FileSystem → List Opening → Prop where
  /-- A file of the tree. -/
  | file {n : Nat} {files : FileSystem} : s.Obtains r n files →
      (∀ node i, files.node? n = some node → node.content ≠ .fifo i) →
        Gets s r (.opened s.openings.length) files (s.openings ++ [fresh r.direction n])
  /-- One end of the pipe that a file of the tree gives a name to. -/
  | fifo {n i : Nat} {node : FileSystem.Node} {files : FileSystem} : s.Obtains r n files →
      files.node? n = some node → node.content = .fifo i →
        Gets s r (pipeEnd r.direction i) files s.openings
  /-- One end of the pipe behind a descriptor. -/
  | pipe {fd i : Nat} : descriptorPath? r.target = some fd →
      (s.descriptors.file? fd = some (.pipeReader i) ∨
        s.descriptors.file? fd = some (.pipeWriter i)) →
          Gets s r (pipeEnd r.direction i) s.files s.openings
  /-- The stream of the shell behind a descriptor. -/
  | stream {fd : Nat} {file : OpenFile} : descriptorPath? r.target = some fd →
      s.descriptors.file? fd = some file → (file = .output ∨ file = .diagnostics) →
        Gets s r file s.files s.openings
  /-- What is told of a process. -/
  | account {who what : Bytes} {process : Int} {item : FileSystem.Account} :
      r.direction = .input → FileSystem.parts r.target = [utf8 "proc", who, what] →
        Gets s r (.opened s.openings.length)
          (s.files.add { content := .account process item, mode := 0o444 }).2
          (s.openings ++ [fresh .input s.files.nodes.length])

/-- What the opening of a file `n` leaves of a file `n'`. -/
inductive Leaves (direction : Direction) (n n' : Nat) (node : FileSystem.Node) :
    FileSystem.Node → Prop where
  | same : Leaves direction n n' node node
  | emptied {data : Bytes} : direction = .output → n' = n → node.content = .file data →
      Leaves direction n n' node { node with content := .file [] }
  | named {entries : List (Bytes × Nat)} {parent : Nat} (name : Bytes) (new : Nat) :
      node.content = .directory entries parent →
        Leaves direction n n' node
          { node with content := .directory (entries ++ [(name, new)]) parent }

variable {s : Scene} {r : Redirection} {n n' : Nat} {files : FileSystem} {node : FileSystem.Node}

theorem Leaves.mode {direction : Direction} {node' : FileSystem.Node}
    (h : Leaves direction n n' node node') : node'.mode = node.mode := by
  cases h <;> rfl

theorem leaves_of_readied (h : s.files.Readied n r.direction files)
    (hnode : s.files.node? n' = some node) :
    ∃ node', files.node? n' = some node' ∧ Leaves r.direction n n' node node' := by
  generalize r.direction = direction at h
  cases h with
  | kept => exact ⟨node, hnode, .same⟩
  | @emptied node₁ data hnode₁ hcontent =>
      rw [FileSystem.node?_setNode hnode₁]
      by_cases hn : n' = n
      · subst hn
        obtain rfl : node₁ = node := Option.some.inj (hnode₁.symm.trans hnode)
        exact ⟨_, if_pos rfl, .emptied rfl rfl hcontent⟩
      · exact ⟨node, by rw [if_neg hn, hnode], .same⟩

/-- **The files that were there** keep their permissions, and what is stored in them unless the
redirection is to write them from their start. -/
theorem Obtains.leaves (h : s.Obtains r n files) (hnode : s.files.node? n' = some node) :
    ∃ node', files.node? n' = some node' ∧ Leaves r.direction n n' node node' := by
  cases h with
  | again _ _ _ hreadied => exact leaves_of_readied hreadied hnode
  | found _ _ hreadied => exact leaves_of_readied hreadied hnode
  | @made directory _ name _ _ _ _ hmake =>
      obtain ⟨rfl, rfl⟩ := Prod.mk.inj hmake
      rcases FileSystem.node?_addName (FileSystem.node?_add hnode _) directory name
        s.files.nodes.length with hsame | ⟨entries, parent, hcontent, hnamed⟩
      · exact ⟨node, hsame, .same⟩
      · exact ⟨_, hnamed, .named name _ hcontent⟩

/-- **A file that was not there** is empty and has the permissions of a new file. -/
theorem Obtains.new (h : s.Obtains r n files) (hnone : s.files.node? n' = none)
    (hnode : files.node? n' = some node) :
    node = { content := .file [], mode := fileMode &&& (0o7777 ^^^ s.mask) } := by
  -- a file that is only readied was there
  have hreadied : ∀ {n files}, s.files.Readied n r.direction files →
      files.node? n' = some node → False := by
    intro n files hreadied hnode
    generalize r.direction = direction at hreadied
    cases hreadied with
    | kept =>
        rw [hnone] at hnode
        cases hnode
    | emptied hnode₁ _ =>
        rw [FileSystem.node?_setNode hnode₁] at hnode
        by_cases hn : n' = n
        · rw [hn, hnode₁] at hnone
          cases hnone
        · rw [if_neg hn, hnone] at hnode
          cases hnode
  cases h with
  | again _ _ _ h => exact (hreadied h hnode).elim
  | found _ _ h => exact (hreadied h hnode).elim
  | @made directory _ name _ _ _ _ hmake =>
      obtain ⟨rfl, rfl⟩ := Prod.mk.inj hmake
      -- the new one has the next number, and no other number is new
      have hlt : n' < s.files.nodes.length + 1 := by
        have := (List.getElem?_eq_some_iff.1 hnode).1
        rw [FileSystem.length_addName] at this
        simpa [FileSystem.add] using this
      have hle : s.files.nodes.length ≤ n' := List.getElem?_eq_none_iff.1 hnone
      obtain rfl : n' = s.files.nodes.length := by omega
      have hadded := s.files.node?_add_length
        { content := .file [], mode := fileMode &&& (0o7777 ^^^ s.mask) }
      rcases FileSystem.node?_addName hadded directory name s.files.nodes.length with
        hsame | ⟨entries, parent, hcontent, -⟩
      · exact Option.some.inj (hnode.symm.trans hsame)
      · cases hcontent

end Scene

/-- What matters of the machine to one of its processes. -/
def Machine.scene (m : Machine) (p : Process) : Scene :=
  { files := m.files
    openings := m.openings
    output := m.output
    diagnostics := m.diagnostics
    descriptors := p.descriptors
    opened := p.opened
    place := p.place
    mask := p.mask
    image := p.image
    arrivals := p.arrivals }

/-! ### The call -/

/-- A process without what it has to do with others at a fifo. -/
def Process.secluded (p : Process) : Process := { p with knocking := none, admitted := false }

namespace Machine

variable {m m' : Machine} {p : Process} {pid pid' : Int} {f g : Process → Process} {fd : Nat}
  {file : OpenFile} {files : FileSystem} {openings : List Opening}
  {outcome : Outcome (Except Errno Nat)}

/-- A change that is made to every process. -/
theorem process?_map (hf : ∀ q, (f q).pid = q.pid) :
    process? { m with processes := m.processes.map f } pid = (m.process? pid).map f := by
  have hpids : (fun q : Process => decide (q.pid = pid)) ∘ f = fun q => decide (q.pid = pid) := by
    funext q
    exact congrArg (fun number => decide (number = pid)) (hf q)
  rw [process?, List.find?_map, hpids, process?]

theorem process?_update (hf : ∀ q, (f q).pid = q.pid) :
    (m.update pid f).process? pid' =
      (m.process? pid').map fun q => if q.pid = pid then f q else q := by
  refine process?_map fun q => ?_
  split
  · exact hf q
  · rfl

/-- The process of an id, apart from what it has to do with others at a fifo. -/
def own (m : Machine) (pid : Int) : Option Process := (m.process? pid).map Process.secluded

theorem pid_of_process? (h : m.process? pid = some p) : p.pid = pid := by
  simpa using List.find?_some h

theorem own_update_self (hpid : ∀ q, (f q).pid = q.pid)
    (h : ∀ q, (f q).secluded = g q.secluded) :
    (m.update pid f).own pid = (m.own pid).map g := by
  rw [own, own, process?_update hpid, Option.map_map, Option.map_map]
  cases hprocess : m.process? pid with
  | none => rfl
  | some q => simp [pid_of_process? hprocess, h]

/-- A change of some process that is no more than what it has to do with others at a fifo. -/
theorem own_update (h : ∀ q, (f q).secluded = q.secluded) :
    (m.update pid f).own pid' = m.own pid' := by
  have hpid : ∀ q, (f q).pid = q.pid := fun q =>
    show (f q).secluded.pid = q.secluded.pid from congrArg Process.pid (h q)
  rw [own, own, process?_update hpid, Option.map_map]
  congr 1
  funext q
  change (if q.pid = pid then f q else q).secluded = q.secluded
  split
  · exact h q
  · rfl

/-- One process has one more descriptor, for an open file; only the tree and the open files have
changed beside that. -/
structure Granted (m : Machine) (p : Process) (file : OpenFile) (files : FileSystem)
    (openings : List Opening) (fd : Nat) (m' : Machine) : Prop where
  free : p.descriptors.isOpen fd = false
  files : m'.files = files
  openings : m'.openings = openings
  output : m'.output = m.output
  diagnostics : m'.diagnostics = m.diagnostics
  own : m'.own p.pid =
    (m.own p.pid).map fun q => { q with descriptors := p.descriptors.assign fd file }

/-- A descriptor for an open file, unless the process has to wait at a fifo. -/
def Grants (m : Machine) (p : Process) (file : OpenFile) (files : FileSystem)
    (openings : List Opening) : Outcome (Except Errno Nat) → Prop
  | .reply (.ok fd) m' => m.Granted p file files openings fd m'
  | .reply (.error _) _ => False
  | .blocked m' => ∃ i, m'.hasName i = true

/-- A machine that is the same to a process. -/
structure Alike (pid : Int) (m m' : Machine) : Prop where
  files : m'.files = m.files
  openings : m'.openings = m.openings
  output : m'.output = m.output
  diagnostics : m'.diagnostics = m.diagnostics
  own : m'.own pid = m.own pid

theorem Alike.refl (pid : Int) (m : Machine) : Alike pid m m := ⟨rfl, rfl, rfl, rfl, rfl⟩

theorem Alike.trans {m'' : Machine} (h : Alike pid m m') (h' : Alike pid m' m'') :
    Alike pid m m'' where
  files := h'.files.trans h.files
  openings := h'.openings.trans h.openings
  output := h'.output.trans h.output
  diagnostics := h'.diagnostics.trans h.diagnostics
  own := h'.own.trans h.own

theorem alike_update (h : ∀ q, (f q).secluded = q.secluded) : Alike pid m (m.update pid' f) :=
  ⟨rfl, rfl, rfl, rfl, own_update h⟩

/-- Other files make no difference to what the call does beside them. -/
theorem Grants.of_files (hgrants : m'.Grants p file files openings outcome)
    (houtput : m'.output = m.output) (hdiagnostics : m'.diagnostics = m.diagnostics)
    (hown : m'.own p.pid = m.own p.pid) : m.Grants p file files openings outcome := by
  rcases outcome with ⟨errno | fd, m''⟩ | m''
  · exact hgrants
  · exact
      { free := hgrants.free
        files := hgrants.files
        openings := hgrants.openings
        output := hgrants.output.trans houtput
        diagnostics := hgrants.diagnostics.trans hdiagnostics
        own := by rw [hgrants.own, hown] }
  · exact hgrants

theorem Alike.grants (h : Alike p.pid m m')
    (hgrants : m'.Grants p file m'.files m'.openings outcome) :
    m.Grants p file m.files m.openings outcome := by
  rw [h.files, h.openings] at hgrants
  exact hgrants.of_files h.output h.diagnostics h.own

theorem allocate_grants (hroom : p.descriptors.room ≠ 0) (file : OpenFile) :
    m.Grants p file m.files m.openings (m.allocate p file) := by
  have hallocate : p.descriptors.allocate? file 0 =
      some (p.descriptors.leastFree 0, p.descriptors.assign (p.descriptors.leastFree 0) file) :=
    Descriptors.allocate?_eq_some_iff.2 ⟨hroom, rfl, rfl⟩
  unfold allocate
  rw [hallocate]
  refine ⟨p.descriptors.leastFree_free 0, rfl, rfl, rfl, rfl, ?_⟩
  exact own_update_self (fun _ => rfl) fun _ => rfl

/-- Whoever waits at the other end is let in. -/
theorem foldl_admit_alike (guests : List Process) (m : Machine) :
    Alike pid m (guests.foldl
      (fun m guest => m.update guest.pid fun q => { q with admitted := true }) m) := by
  induction guests generalizing m with
  | nil => exact .refl pid m
  | cons guest guests ih =>
      have hguest : Alike pid m (m.update guest.pid fun q => { q with admitted := true }) :=
        alike_update fun _ => rfl
      exact hguest.trans (ih _)

/-- One end of the pipe of a fifo. -/
theorem openFifo_grants (hroom : p.descriptors.room ≠ 0) (held : Descriptors) {i : Nat}
    (hname : m.hasName i = true) (reading : Bool) :
    m.Grants p (if reading then .pipeReader i else .pipeWriter i) m.files m.openings
      (m.openFifo held p i reading) := by
  unfold openFifo
  extract_lets own other guests emptied admitted opening
  by_cases hfree : p.admitted ∨ m.isHeld held other ∨ guests.isEmpty = false
  · rw [if_pos hfree]
    have hemptied : Alike p.pid m emptied := by
      simp only [emptied]
      split
      · exact .refl _ _
      · exact ⟨rfl, rfl, rfl, rfl, rfl⟩
    have hadmitted : Alike p.pid emptied admitted := foldl_admit_alike guests emptied
    have hopening : Alike p.pid admitted opening := alike_update fun _ => rfl
    exact ((hemptied.trans hadmitted).trans hopening).grants (allocate_grants hroom own)
  · rw [if_neg hfree]
    exact ⟨i, hname⟩

/-- One end of a pipe. -/
theorem openPipe_grants (hroom : p.descriptors.room ≠ 0) (held : Descriptors) (i : Nat)
    (direction : Direction) :
    m.Grants p (Scene.pipeEnd direction i) m.files m.openings
      (m.openPipe held p i (openMode direction)) := by
  have hend : Scene.pipeEnd direction i =
      if (openMode direction).read then .pipeReader i else .pipeWriter i := by
    cases direction <;> rfl
  have hone : ¬((openMode direction).read = true ∧ (openMode direction).write = true) := by
    cases direction <;> decide
  unfold openPipe
  rw [if_neg hone, hend]
  by_cases hname : m.hasName i = true
  · rw [if_pos hname]
    exact openFifo_grants hroom held hname _
  · rw [if_neg hname]
    exact allocate_grants hroom _

/-- The file of a number. -/
theorem openFile_grants (hroom : p.descriptors.room ≠ 0) (held : Descriptors) {s : Scene}
    {r : Redirection} {n : Nat} (hobtains : s.Obtains r n m.files)
    (hopenings : m.openings = s.openings) :
    ∃ file openings, s.Gets r file m.files openings ∧
      m.Grants p file m.files openings (m.openFile held p n (openMode r.direction)) := by
  unfold openFile
  split
  · rename_i i mode removed system hnode
    refine ⟨_, _, .fifo hobtains hnode rfl, ?_⟩
    rw [← hopenings]
    exact openPipe_grants hroom held i r.direction
  · rename_i hfifo
    have hfresh : ({ node := n
                     readable := (openMode r.direction).read
                     writable := (openMode r.direction).write
                     append := (openMode r.direction).append } : Opening) =
        Scene.fresh r.direction n := by
      cases r.direction <;> rfl
    refine ⟨.opened s.openings.length, _, .file hobtains ?_, ?_⟩
    · rintro ⟨content, mode, removed, system⟩ i hnode rfl
      exact hfifo i mode removed system hnode
    · rw [hfresh, ← hopenings]
      have hgrants : (m.addOpening (Scene.fresh r.direction n)).2.Grants p
          (.opened m.openings.length) m.files (m.openings ++ [Scene.fresh r.direction n]) _ :=
        allocate_grants hroom _
      exact hgrants.of_files rfl rfl rfl

/-- What becomes of the machine when a process opens the file of a redirection. -/
def Answered (m : Machine) (p : Process) (r : Redirection) : Outcome (Except Errno Nat) → Prop
  | .reply (.ok fd) m' =>
    ∃ file files openings, (m.scene p).Gets r file files openings ∧
      m.Granted p file files openings fd m'
  | .reply (.error _) m' => m' = m
  | .blocked m' => ∃ i, m'.hasName i = true

theorem answered_of_grants {r : Redirection} (hgets : (m.scene p).Gets r file files openings)
    (hgrants : m.Grants p file files openings outcome) : m.Answered p r outcome := by
  rcases outcome with ⟨errno | fd, m'⟩ | m'
  · exact hgrants.elim
  · exact ⟨file, files, openings, hgets, hgrants⟩
  · exact hgrants

/-- A path of a descriptor. -/
theorem reopen_answered (hroom : p.descriptors.room ≠ 0) (held : Descriptors) {r : Redirection}
    (hpath : descriptorPath? r.target = some fd) (hfile : p.descriptors.file? fd = some file) :
    m.Answered p r (m.reopen held p file (openMode r.direction)) := by
  cases file with
  | output | diagnostics =>
      exact answered_of_grants (.stream hpath hfile (by simp)) (allocate_grants hroom _)
  | pipeReader i =>
      exact answered_of_grants (.pipe hpath (.inl hfile)) (openPipe_grants hroom held i _)
  | pipeWriter i =>
      exact answered_of_grants (.pipe hpath (.inr hfile)) (openPipe_grants hroom held i _)
  | opened number =>
      unfold reopen
      dsimp only
      cases hnumber : m.openings[number]? with
      | none => exact rfl
      | some o =>
          dsimp only
          cases hallow : m.files.allowOpen o.node (openMode r.direction) with
          | error errno => exact rfl
          | ok files =>
              have hobtains : (m.scene p).Obtains r o.node files :=
                .again hpath hfile hnumber (FileSystem.allowOpen_readied hallow)
              obtain ⟨file, openings, hgets, hgrants⟩ :=
                openFile_grants (m := { m with files := files }) hroom held hobtains rfl
              exact answered_of_grants hgets (hgrants.of_files rfl rfl rfl)

/-- What is told of a process stands in a file under a directory of its own. -/
theorem parts_of_account? {path : Bytes} {process : Int} {item : FileSystem.Account}
    (h : m.account? p path = some (process, item)) :
    ∃ who what, FileSystem.parts path = [utf8 "proc", who, what] := by
  unfold account? at h
  split at h
  · rename_i top who what _ hparts
    split at h
    · cases h
    · rename_i htop
      exact ⟨who, what, by rw [hparts, Decidable.not_not.1 htop]⟩
  · cases h

theorem openAccount_answered (hroom : p.descriptors.room ≠ 0) {r : Redirection} {who what : Bytes}
    (hparts : FileSystem.parts r.target = [utf8 "proc", who, what]) (process : Int)
    (item : FileSystem.Account) :
    m.Answered p r (m.openAccount p process item (openMode r.direction)) := by
  unfold openAccount
  by_cases hdirection : r.direction = .input
  · rw [if_neg (by rw [hdirection]; decide)]
    have hgrants : Grants _ p (.opened m.openings.length)
        (m.files.add { content := .account process item, mode := 0o444 }).2
        (m.openings ++ [Scene.fresh .input m.files.nodes.length]) _ :=
      allocate_grants hroom (m := (addOpening
        { m with files := (m.files.add { content := .account process item, mode := 0o444 }).2 }
        (Scene.fresh .input m.files.nodes.length)).2) (.opened m.openings.length)
    exact answered_of_grants (.account hdirection hparts) (hgrants.of_files rfl rfl rfl)
  · have hwrite : (openMode r.direction).write = true := by
      cases hd : r.direction with
      | input => exact absurd hd hdirection
      | output | append => rfl
    rw [if_pos hwrite]
    exact rfl

/-- **Opening the file of a redirection.**  Either it is refused and nothing has happened, or the
process gets a descriptor for it, or it has to wait for somebody at the other end of a fifo. -/
theorem openPath_answered (held : Descriptors) (r : Redirection) :
    m.Answered p r
      (m.openPath held p r.target (openMode r.direction) fileMode) := by
  unfold openPath
  by_cases hroom : p.descriptors.room = 0
  · rw [if_pos hroom]
    exact rfl
  rw [if_neg hroom]
  -- a path is that of a descriptor, one that the system answers itself, or that of a file
  cases hpath : descriptorPath? r.target with
  | some fd =>
      cases hfile : p.descriptors.file? fd with
      | some file =>
          simp only [hfile]
          exact reopen_answered hroom held hpath hfile
      | none =>
          simp only [hfile]
          exact rfl
  | none =>
      cases haccount : m.account? p r.target with
      | some result =>
          obtain ⟨process, item⟩ := result
          obtain ⟨who, what, hparts⟩ := parts_of_account? haccount
          exact openAccount_answered hroom hparts process item
      | none =>
          dsimp only
          cases hnode : m.files.openNode p.place r.target (openMode r.direction)
              (fileMode &&& (0o7777 ^^^ p.mask)) with
          | error errno => exact rfl
          | ok result =>
              obtain ⟨n, files⟩ := result
              have hobtains : (m.scene p).Obtains r n files := by
                rcases FileSystem.openNode_cases hnode with ⟨hfinds, hreadied⟩ | ⟨hne, hmade⟩
                · exact .found hpath hfinds hreadied
                · obtain ⟨directory, name, hlacks, hmake⟩ := hmade
                  exact .made hpath hne hlacks hmake
              obtain ⟨file, openings, hgets, hgrants⟩ :=
                openFile_grants (m := { m with files := files }) hroom held hobtains rfl
              exact answered_of_grants hgets (hgrants.of_files rfl rfl rfl)

/-- A process that has opened a file by its path, as it is noted. -/
def noted (path : Bytes) (how : OpenMode) (fd : Nat) (q : Process) : Process :=
  { q with
    opened := q.opened ++ (q.descriptors.file? fd).toList.map fun file => ⟨path, how, file⟩ }

theorem noting_ok (path : Bytes) (how : OpenMode) :
    Outcome.noting p path how (.reply (.ok fd) m') =
      .reply (.ok fd) (m'.update p.pid (noted path how fd)) := rfl

/-- The process once it has its descriptor. -/
theorem Granted.own_noted (h : m.Granted p file files openings fd m')
    (hp : m.process? p.pid = some p) (path : Bytes) (how : OpenMode) :
    (m'.update p.pid (noted path how fd)).own p.pid =
      some { p.secluded with
        descriptors := p.descriptors.assign fd file
        opened := p.opened ++ [⟨path, how, file⟩] } := by
  rw [own_update_self (f := noted path how fd) (g := noted path how fd) (fun _ => rfl)
    fun _ => rfl, h.own, Machine.own, hp]
  simp [noted, Descriptors.file?_assign, Process.secluded]

end Machine

end JobShell
