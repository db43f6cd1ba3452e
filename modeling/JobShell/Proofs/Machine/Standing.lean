/-
**What a call leaves of the processes.**

To tell which process has which file open, and how it came by it, little has to be known of a
process: its id, the child of the shell that it descends from, its program, its descriptors, and
the files that it has opened by their paths.  This is its standing.  Of the many calls few change
the standing of the process that makes them, and none gives another process a descriptor: the
worst that a process can do to another one is to end it.

Main definitions:

* `JobShell.Standing` — what matters of a process;
* `JobShell.Call.Affects` — what a call does to the descriptors of its process;
* `JobShell.Machine.Numbered` — no process id is given twice;
* `JobShell.Machine.Keeps`, `JobShell.Machine.Spares`, `JobShell.Machine.Puts` — what becomes of
  all standings.

Main results:

* `JobShell.Machine.standings_finish` — the end of a process;
* `JobShell.Machine.spares_send` — a signal does no more than kill processes;
* `JobShell.Machine.perform_answers` — every call does to its process what `Call.Affects` says,
  and to the others no more than end them.
-/

import JobShell.Machine.Calls
import JobShell.Proofs.Descriptors
import Mathlib.Data.List.Forall2
import Mathlib.Data.List.Nodup

set_option autoImplicit false

namespace JobShell

/-- What matters of a process to the question which files are open where. -/
structure Standing where
  pid : Int
  root : Int
  image : Option Image
  phase : Phase
  descriptors : Descriptors
  opened : List PathOpening
  arrivals : List Arrival

/-- The standing of a process. -/
def Process.standing (p : Process) : Standing :=
  { pid := p.pid
    root := p.root
    image := p.image
    phase := p.phase
    descriptors := p.descriptors
    opened := p.opened
    arrivals := p.arrivals }

namespace Standing

/-- A process after its end. -/
def ended (v : Standing) (ending : Ending) : Standing :=
  { v with phase := .ended ending, descriptors := {} }

/-- A process with other descriptors, and with some more files that it has opened. -/
def put (v : Standing) (d : Descriptors) (opened : List PathOpening) : Standing :=
  { v with descriptors := d, opened := v.opened ++ opened }

/-- What others can make of a process. -/
inductive Spared (v : Standing) : Standing → Prop where
  | same : Spared v v
  | killed {rest : Prog Nat} (signal : Nat) : v.phase = .running rest →
      Spared v (v.ended (.killed signal))

theorem Spared.trans {u v w : Standing} (huv : Spared u v) (hvw : Spared v w) : Spared u w := by
  cases hvw with
  | same => exact huv
  | killed signal hphase =>
      cases huv with
      | same => exact .killed signal hphase
      | killed => cases hphase

theorem Spared.pid_eq {v w : Standing} (h : Spared v w) : w.pid = v.pid := by
  cases h <;> rfl

theorem forall₂_spared_trans {us vs ws : List Standing} (huv : List.Forall₂ Spared us vs)
    (hvw : List.Forall₂ Spared vs ws) : List.Forall₂ Spared us ws := by
  induction huv generalizing ws with
  | nil => exact hvw
  | cons h _ ih =>
      cases hvw with
      | cons h' hrest => exact .cons (h.trans h') (ih hrest)

end Standing

/-- What a call does to the descriptors of its process when it gets a reply: the descriptors
afterwards, and the files that have been opened by their paths.  The numbers of the pipes go up to
`pipes` before the call and to `pipes'` after it. -/
def Call.Affects (pipes pipes' : Nat) (d : Descriptors) :
    (c : Call) → c.Reply → Descriptors → List PathOpening → Prop
  | .openPath path how _, reply, d', opened =>
    match (reply : Except Errno Nat) with
    | .ok fd =>
      ∃ file, d.isOpen fd = false ∧ d' = d.assign fd file ∧ opened = [⟨path, how, file⟩]
    | .error _ => d' = d ∧ opened = []
  | .close fd, reply, d', opened =>
    match (reply : Except Errno Unit) with
    | .ok _ => d' = d.close fd ∧ opened = []
    | .error _ => d' = d ∧ opened = []
  | .dup2 old new, reply, d', opened =>
    match (reply : Except Errno Unit) with
    | .ok _ =>
      ∃ file, d.file? old = some file ∧ d' = (if old = new then d else d.assign new file) ∧
        opened = []
    | .error _ => d' = d ∧ opened = []
  | .duplicate fd _, reply, d', opened =>
    match (reply : Except Errno Nat) with
    | .ok new => ∃ file, d.file? fd = some file ∧ d' = d.assign new file ∧ opened = []
    | .error _ => d' = d ∧ opened = []
  | .pipe, reply, d', opened =>
    match (reply : Except Errno (Nat × Nat)) with
    | .ok (reader, writer) =>
      ∃ i, pipes ≤ i ∧ i < pipes' ∧
        d' = (d.assign reader (.pipeReader i)).assign writer (.pipeWriter i) ∧ opened = []
    | .error _ => d' = d ∧ opened = []
  | _, _, d', opened => d' = d ∧ opened = []

namespace Machine

/-- The standings of all processes. -/
def standings (m : Machine) : List Standing := m.processes.map Process.standing

/-- No standing has changed. -/
structure Keeps (m m' : Machine) : Prop where
  standings : m'.standings = m.standings
  pipes : m.pipes.length ≤ m'.pipes.length
  nextPid : m'.nextPid = m.nextPid

/-- Some processes have been killed. -/
structure Spares (m m' : Machine) : Prop where
  standings : List.Forall₂ Standing.Spared m.standings m'.standings
  pipes : m.pipes.length ≤ m'.pipes.length
  nextPid : m'.nextPid = m.nextPid

/-- No process id is given twice. -/
structure Numbered (m : Machine) : Prop where
  nodup : (m.standings.map (·.pid)).Nodup
  lt : ∀ v ∈ m.standings, v.pid < m.nextPid

/-- One process has other descriptors, and has opened some files. -/
structure Puts (m m' : Machine) (pid : Int) (d : Descriptors) (opened : List PathOpening) :
    Prop where
  standings : m'.standings = m.standings.map fun v => if v.pid = pid then v.put d opened else v
  pipes : m.pipes.length ≤ m'.pipes.length
  nextPid : m'.nextPid = m.nextPid

section

variable {m m' m'' : Machine} {p : Process} {pid : Int} {d : Descriptors}
  {opened : List PathOpening}

/-! ### The three relations -/

@[simp] theorem Keeps.refl (m : Machine) : Keeps m m := ⟨rfl, Nat.le_refl _, rfl⟩

theorem Keeps.trans (h : Keeps m m') (h' : Keeps m' m'') : Keeps m m'' :=
  ⟨h'.standings.trans h.standings, Nat.le_trans h.pipes h'.pipes, h'.nextPid.trans h.nextPid⟩

theorem Keeps.puts (h : Keeps m m') (h' : Puts m' m'' pid d opened) : Puts m m'' pid d opened :=
  ⟨h.standings ▸ h'.standings, Nat.le_trans h.pipes h'.pipes, h'.nextPid.trans h.nextPid⟩

/-- If all that happens to a process is that it may be killed, all are spared. -/
theorem Spares.of_map {f : Standing → Standing} (hf : ∀ v ∈ m.standings, Standing.Spared v (f v))
    (hstandings : m'.standings = m.standings.map f) (hpipes : m.pipes.length ≤ m'.pipes.length)
    (hnextPid : m'.nextPid = m.nextPid) : Spares m m' := by
  refine ⟨?_, hpipes, hnextPid⟩
  rw [hstandings, List.forall₂_map_right_iff, List.forall₂_same]
  exact hf

theorem Keeps.spares (h : Keeps m m') : Spares m m' :=
  Spares.of_map (fun _ _ => .same) (by rw [h.standings, List.map_id']) h.pipes h.nextPid

@[simp] theorem Spares.refl (m : Machine) : Spares m m := (Keeps.refl m).spares

theorem Spares.trans (h : Spares m m') (h' : Spares m' m'') : Spares m m'' :=
  ⟨Standing.forall₂_spared_trans h.standings h'.standings,
    Nat.le_trans h.pipes h'.pipes, h'.nextPid.trans h.nextPid⟩

/-- A process is known by its id. -/
theorem Numbered.eq_of_pid {v w : Standing} (hm : m.Numbered) (hv : v ∈ m.standings)
    (hw : w ∈ m.standings) (hpid : v.pid = w.pid) : v = w :=
  List.inj_on_of_nodup_map hm.nodup hv hw hpid

theorem Numbered.of_pids (hm : m.Numbered)
    (hpids : m'.standings.map (·.pid) = m.standings.map (·.pid)) (hnextPid : m'.nextPid = m.nextPid) :
    m'.Numbered := by
  refine ⟨hpids ▸ hm.nodup, fun v hv => ?_⟩
  have hmem : v.pid ∈ m.standings.map (·.pid) := hpids ▸ List.mem_map_of_mem hv
  obtain ⟨u, hu, hpid⟩ := List.mem_map.1 hmem
  rw [hnextPid, ← hpid]
  exact hm.lt u hu

theorem Spares.numbered (h : Spares m m') (hm : m.Numbered) : m'.Numbered := by
  have hpids : ∀ {vs ws : List Standing}, List.Forall₂ Standing.Spared vs ws →
      ws.map (·.pid) = vs.map (·.pid) := by
    intro vs ws hvw
    induction hvw with
    | nil => rfl
    | cons hspared _ ih => rw [List.map_cons, List.map_cons, hspared.pid_eq, ih]
  exact hm.of_pids (hpids h.standings) h.nextPid

/-! ### Changing one process -/

theorem standing_notice (q : Process) (signal : Nat) : (q.notice signal).standing = q.standing := by
  unfold Process.notice
  split <;> rfl

/-- What a change makes of one standing it makes of all with that id. -/
theorem standings_update {f : Process → Process} {g : Standing → Standing}
    (h : ∀ q, (f q).standing = g q.standing) :
    (m.update pid f).standings = m.standings.map fun v => if v.pid = pid then g v else v := by
  rw [standings, standings, update, List.map_map, List.map_map]
  refine List.map_congr_left fun q _ => ?_
  change (if q.pid = pid then f q else q).standing = if q.pid = pid then g q.standing else q.standing
  split
  · exact h q
  · rfl

/-- A change that does not matter. -/
theorem Keeps.update {f : Process → Process} (h : ∀ q, (f q).standing = q.standing) :
    Keeps m (m.update pid f) := by
  refine ⟨?_, Nat.le_refl _, rfl⟩
  rw [standings_update (g := fun v => v) h]
  simp

/-- The same change is made for many processes. -/
theorem Keeps.foldl {α : Type} {f : Machine → α → Machine} (h : ∀ m a, Keeps m (f m a)) :
    ∀ (as : List α) (m : Machine), Keeps m (as.foldl f m)
  | [], m => .refl m
  | a :: as, m => (h m a).trans (Keeps.foldl h as (f m a))

theorem puts_setDescriptors : Puts m (m.setDescriptors pid d) pid d [] := by
  refine ⟨?_, Nat.le_refl _, rfl⟩
  rw [setDescriptors, standings_update (g := fun v => v.put d []) fun q => ?_]
  simp [Standing.put, Process.standing]

theorem keeps_setPipe (i : Nat) (bytes : Bytes) : Keeps m (m.setPipe i bytes) :=
  ⟨rfl, by simp [setPipe], rfl⟩

/-- Other files, and nothing else. -/
theorem keeps_files (files : FileSystem) : Keeps m { m with files := files } :=
  ⟨rfl, Nat.le_refl _, rfl⟩

theorem keeps_addOpening (o : Opening) : Keeps m (m.addOpening o).2 :=
  ⟨rfl, Nat.le_refl _, rfl⟩

theorem keeps_addPipe : Keeps m m.addPipe.2 :=
  ⟨rfl, by simp [addPipe], rfl⟩

/-! ### Signals -/

theorem mem_standings_of_process? (h : m.process? pid = some p) :
    p.standing ∈ m.standings ∧ p.pid = pid := by
  rw [process?, List.find?_eq_some_iff_append] at h
  obtain ⟨hpid, before, after, hprocesses, -⟩ := h
  refine ⟨List.mem_map_of_mem ?_, by simpa using hpid⟩
  rw [hprocesses]
  exact List.mem_append_right _ (List.mem_cons_self ..)

/-- The end of a process. -/
theorem standings_finish (hp : m.process? pid = some p) (halive : p.alive = true)
    (ending : Ending) :
    (m.finish pid ending).standings =
        m.standings.map (fun v => if v.pid = pid then v.ended ending else v) ∧
      (m.finish pid ending).pipes = m.pipes ∧ (m.finish pid ending).nextPid = m.nextPid := by
  unfold finish
  rw [hp]
  dsimp -zeta only
  rw [if_pos halive]
  extract_lets ended inherited left
  -- only the process itself changes: its heirs get another parent, and its parent a signal
  have hinherited : ∀ q : Process, (inherited q).standing = q.standing := by
    intro q
    simp only [inherited]
    split
    · rfl
    · split
      · exact standing_notice q Signal.child
      · rfl
  have hleft : left.standings =
      m.standings.map fun v => if v.pid = pid then v.ended ending else v := by
    simp only [left]
    rw [standings_update (g := fun v => v.ended ending) fun q => rfl]
    congr 1
    rw [standings, standings, List.map_map]
    exact List.map_congr_left fun q _ => hinherited q
  split
  · exact ⟨hleft, rfl, rfl⟩
  · exact ⟨hleft, rfl, rfl⟩

/-- A signal that ends a process. -/
theorem spares_finish (hm : m.Numbered) (pid : Int) (signal : Nat) :
    Spares m (m.finish pid (.killed signal)) := by
  cases hp : m.process? pid with
  | none =>
      unfold finish
      rw [hp]
      exact .refl m
  | some p =>
      by_cases halive : p.alive = true
      · obtain ⟨hstandings, hpipes, hnextPid⟩ := standings_finish hp halive (.killed signal)
        obtain ⟨hmem, hpid⟩ := mem_standings_of_process? hp
        refine Spares.of_map (fun v hv => ?_) hstandings (Nat.le_of_eq (by rw [hpipes])) hnextPid
        by_cases hv_pid : v.pid = pid
        · rw [if_pos hv_pid]
          obtain rfl := hm.eq_of_pid hv hmem (hv_pid.trans hpid.symm)
          cases hphase : p.phase with
          | running rest => exact .killed signal hphase
          | ended ending => simp [Process.alive, hphase] at halive
        · rw [if_neg hv_pid]
          exact .same
      · unfold finish
        rw [hp]
        dsimp only
        rw [if_neg halive]
        exact .refl m

theorem spares_deliver (hm : m.Numbered) (signal : Nat) (p : Process) :
    Spares m (m.deliver signal p) := by
  unfold deliver
  cases p.disposition signal with
  | ignore => exact .refl m
  | handler => exact (Keeps.update fun q => standing_notice q signal).spares
  | default =>
      cases Signal.default signal with
      | ends => exact spares_finish hm _ _
      | stops =>
          refine Keeps.spares (Keeps.update ?_)
          exact fun _ => rfl
      | continues =>
          refine Keeps.spares (Keeps.update ?_)
          exact fun _ => rfl
      | nothing => exact .refl m

/-- **A signal does no more than kill processes.** -/
theorem spares_send (hm : m.Numbered) {sender senderGroup target : Int} {signal : Nat} {shell : Bool}
    (h : m.send sender senderGroup target signal = .ok (shell, m')) : Spares m m' := by
  have hfoldl : ∀ (ps : List Process) (m : Machine), m.Numbered →
      Spares m (ps.foldl (fun m p => m.deliver signal p) m) := by
    intro ps
    induction ps with
    | nil => exact fun m _ => .refl m
    | cons p ps ih =>
        intro m hm
        have hdeliver := spares_deliver hm signal p
        exact hdeliver.trans (ih _ (hdeliver.numbered hm))
  unfold send at h
  dsimp only at h
  split at h
  · cases h
  · split at h
    · cases h
    · split at h
      · cases h
        exact .refl m
      · cases h
        exact hfoldl _ m hm

/-! ### Opening -/

/-- Opening a file gives its process a descriptor that was free, or does nothing. -/
def Opens (m : Machine) (p : Process) : Outcome (Except Errno Nat) → Prop
  | .reply (.ok fd) m' =>
      ∃ file, p.descriptors.isOpen fd = false ∧
        Puts m m' p.pid (p.descriptors.assign fd file) []
  | .reply (.error _) m' => Keeps m m'
  | .blocked m' => Keeps m m'

theorem Keeps.opens {outcome : Outcome (Except Errno Nat)} (h : Keeps m m')
    (h' : Opens m' p outcome) : Opens m p outcome := by
  rcases outcome with ⟨_ | fd, m''⟩ | m''
  · exact h.trans h'
  · obtain ⟨file, hfree, hputs⟩ := h'
    exact ⟨file, hfree, h.puts hputs⟩
  · exact h.trans h'

theorem allocate_opens (file : OpenFile) : Opens m p (m.allocate p file) := by
  unfold allocate
  cases hallocate : p.descriptors.allocate? file 0 with
  | none => exact Keeps.refl m
  | some result =>
      obtain ⟨fd, d⟩ := result
      obtain ⟨-, rfl, rfl⟩ := Descriptors.allocate?_eq_some_iff.1 hallocate
      exact ⟨file, p.descriptors.leastFree_free 0, puts_setDescriptors⟩

theorem openFifo_opens (held : Descriptors) (i : Nat) (reading : Bool) :
    Opens m p (m.openFifo held p i reading) := by
  unfold openFifo
  extract_lets own other guests emptied admitted opening
  split
  · have hemptied : Keeps m emptied := by
      simp only [emptied]
      split
      · exact .refl m
      · exact keeps_setPipe i []
    have hadmitted : Keeps emptied admitted := by
      refine Keeps.foldl (fun _ guest => Keeps.update ?_) guests emptied
      exact fun _ => rfl
    have hopening : Keeps admitted opening := Keeps.update fun _ => rfl
    exact ((hemptied.trans hadmitted).trans hopening).opens (allocate_opens own)
  · refine Keeps.update ?_
    exact fun _ => rfl

theorem openPipe_opens (held : Descriptors) (i : Nat) (how : OpenMode) :
    Opens m p (m.openPipe held p i how) := by
  unfold openPipe
  split
  · exact allocate_opens _
  · split
    · exact openFifo_opens held i _
    · exact allocate_opens _

theorem openFile_opens (held : Descriptors) (node : Nat) (how : OpenMode) :
    Opens m p (m.openFile held p node how) := by
  unfold openFile
  split
  · exact openPipe_opens held _ how
  · exact (keeps_addOpening _).opens (allocate_opens _)

theorem reopen_opens (held : Descriptors) (file : OpenFile) (how : OpenMode) :
    Opens m p (m.reopen held p file how) := by
  cases file with
  | output | diagnostics => exact allocate_opens _
  | pipeReader i | pipeWriter i => exact openPipe_opens held i how
  | opened number =>
      unfold reopen
      dsimp only
      split
      · exact Keeps.refl m
      · split
        · exact Keeps.refl m
        · exact (keeps_files _).opens (openFile_opens held _ how)

theorem openPath_opens (held : Descriptors) (path : Bytes) (how : OpenMode) (mode : Nat) :
    Opens m p (m.openPath held p path how mode) := by
  unfold openPath
  split
  · exact Keeps.refl m
  · split
    · split
      · exact reopen_opens held _ how
      · exact Keeps.refl m
    · unfold openAccount
      split
      · exact Keeps.refl m
      · exact ((keeps_files _).trans (keeps_addOpening _)).opens (allocate_opens _)
    · split
      · exact Keeps.refl m
      · exact (keeps_files _).opens (openFile_opens held _ how)

/-! ### All calls -/

/-- What becomes of the standings when a process makes a call. -/
def Answers (m : Machine) (p : Process) (c : Call) : Outcome c.Reply → Prop
  | .reply reply m' =>
      (∃ d opened, c.Affects m.pipes.length m'.pipes.length p.descriptors reply d opened ∧
        Puts m m' p.pid d opened) ∨
      c.Affects m.pipes.length m'.pipes.length p.descriptors reply p.descriptors [] ∧ Spares m m'
  | .blocked m' => Keeps m m'

/-- The opening is noted with the file that it gave. -/
theorem noting_answers {outcome : Outcome (Except Errno Nat)} (path : Bytes) (how : OpenMode)
    (mode : Nat) (h : Opens m p outcome) :
    Answers m p (.openPath path how mode) (outcome.noting p path how) := by
  rcases outcome with ⟨errno | fd, m'⟩ | m'
  · exact .inr ⟨⟨rfl, rfl⟩, Keeps.spares h⟩
  · obtain ⟨file, hfree, h⟩ := h
    refine .inl ⟨p.descriptors.assign fd file, [⟨path, how, file⟩], ⟨file, hfree, rfl, rfl⟩, ?_,
      h.pipes, h.nextPid⟩
    rw [standings_update (g := fun v =>
      { v with
        opened := v.opened ++ (v.descriptors.file? fd).toList.map fun file =>
          (⟨path, how, file⟩ : PathOpening) }) fun q => rfl, h.standings, List.map_map]
    refine List.map_congr_left fun v _ => ?_
    by_cases hv : v.pid = p.pid
    · simp [hv, Standing.put, Descriptors.file?_assign]
    · simp [hv]
  · exact h

theorem keeps_setOpening (number : Nat) (o : Opening) : Keeps m (m.setOpening number o) :=
  ⟨rfl, Nat.le_refl _, rfl⟩

theorem keeps_readOpening (number count : Nat) (o : Opening) :
    Keeps m (m.readOpening number o count).2 := by
  unfold readOpening
  split
  · exact .refl m
  · split
    · exact keeps_setOpening number _
    · split
      · exact keeps_setOpening number _
      · exact .refl m
    all_goals exact .refl m

theorem keeps_writeOpening (number : Nat) (o : Opening) (bytes : Bytes) :
    Keeps m (m.writeOpening number o bytes).2 := by
  unfold writeOpening
  split
  · exact .refl m
  · split
    · exact .refl m
    · split
      · exact (keeps_files _).trans (keeps_setOpening number _)
      all_goals exact .refl m

theorem read_answers (held : Descriptors) (fd count : Nat) :
    Answers m p (.read fd count) (m.read held p fd count) := by
  unfold read
  split
  · split
    · split
      · exact Keeps.refl m
      · exact .inr ⟨⟨rfl, rfl⟩, .refl m⟩
    · exact .inr ⟨⟨rfl, rfl⟩, (keeps_setPipe _ _).spares⟩
  · split
    · exact .inr ⟨⟨rfl, rfl⟩, (keeps_readOpening _ count _).spares⟩
    · exact .inr ⟨⟨rfl, rfl⟩, .refl m⟩
  · exact .inr ⟨⟨rfl, rfl⟩, .refl m⟩

theorem write_answers (hm : m.Numbered) (held : Descriptors) (fd : Nat) (bytes : Bytes) :
    Answers m p (.write fd bytes) (m.write held p fd bytes) := by
  unfold write
  split
  · unfold writePipe
    dsimp only
    split
    · exact .inr ⟨⟨rfl, rfl⟩, spares_deliver hm _ p⟩
    · split
      · exact Keeps.refl m
      · exact .inr ⟨⟨rfl, rfl⟩, (keeps_setPipe _ _).spares⟩
  · exact .inr ⟨⟨rfl, rfl⟩, Keeps.spares ⟨rfl, Nat.le_refl _, rfl⟩⟩
  · exact .inr ⟨⟨rfl, rfl⟩, Keeps.spares ⟨rfl, Nat.le_refl _, rfl⟩⟩
  · split
    · exact .inr ⟨⟨rfl, rfl⟩, (keeps_writeOpening _ _ bytes).spares⟩
    · exact .inr ⟨⟨rfl, rfl⟩, .refl m⟩
  · exact .inr ⟨⟨rfl, rfl⟩, .refl m⟩

theorem seek_answers (fd : Nat) (whence : Whence) (distance : Int) :
    Answers m p (.seek fd whence distance) (.ofPair (m.seek p fd whence distance)) := by
  refine .inr ⟨⟨rfl, rfl⟩, Keeps.spares ?_⟩
  unfold seek
  split
  · split
    · split
      · exact keeps_setOpening _ _
      · exact .refl m
    · exact .refl m
  · exact .refl m
  · exact .refl m

theorem resize_answers (fd size : Nat) :
    Answers m p (.resize fd size) (.ofPair (m.resize p fd size)) := by
  refine .inr ⟨⟨rfl, rfl⟩, Keeps.spares ?_⟩
  unfold resize
  split
  · exact .refl m
  · split
    · split
      · exact keeps_files _
      · exact .refl m
    · exact .refl m
  · exact .refl m

theorem dup2_answers (old new : Nat) :
    Answers m p (.dup2 old new) (.ofPair (m.dup2 p old new)) := by
  unfold dup2
  cases hfile : p.descriptors.file? old with
  | none => exact .inr ⟨⟨rfl, rfl⟩, .refl m⟩
  | some file =>
      dsimp only
      split
      · rename_i h
        exact .inr ⟨⟨file, hfile, by rw [if_pos h], rfl⟩, .refl m⟩
      · rename_i h
        exact .inl ⟨_, _, ⟨file, hfile, by rw [if_neg h], rfl⟩, puts_setDescriptors⟩

theorem close_answers (fd : Nat) : Answers m p (.close fd) (.ofPair (m.close p fd)) := by
  unfold close
  split
  · exact .inl ⟨_, _, ⟨rfl, rfl⟩, puts_setDescriptors⟩
  · exact .inr ⟨⟨rfl, rfl⟩, .refl m⟩

theorem makePipe_answers : Answers m p .pipe (.ofPair (m.makePipe p)) := by
  unfold makePipe
  split
  · exact .inr ⟨⟨rfl, rfl⟩, .refl m⟩
  · refine .inl ⟨_, _, ⟨m.pipes.length, Nat.le_refl _, ?_, rfl, rfl⟩,
      keeps_addPipe.puts puts_setDescriptors⟩
    simp [setDescriptors, update, addPipe]

theorem wait_answers (child : Option Int) (how : Waiting) :
    Answers m p (.wait child how) (m.wait p child how) := by
  unfold wait
  extract_lets children dead wakeAt
  have hwakeAt : ∀ time, Answers m p (.wait child how) (wakeAt time) := by
    intro time
    simp only [wakeAt]
    split
    · refine .inr ⟨⟨rfl, rfl⟩, Keeps.spares (Keeps.update ?_)⟩
      exact fun _ => rfl
    · refine Keeps.update ?_
      exact fun _ => rfl
  clear_value wakeAt dead children
  split
  · refine .inr ⟨⟨rfl, rfl⟩, Keeps.spares (Keeps.trans (Keeps.update ?_) (Keeps.update ?_))⟩
    · exact fun _ => rfl
    · exact fun _ => rfl
  · split
    · exact .inr ⟨⟨rfl, rfl⟩, .refl m⟩
    · cases how with
      | patient => exact Keeps.refl m
      | polling => exact .inr ⟨⟨rfl, rfl⟩, .refl m⟩
      | alert =>
          dsimp only
          split
          · exact Keeps.refl m
          · exact hwakeAt _
      | within milliseconds => exact hwakeAt _

theorem sleep_answers (milliseconds : Nat) :
    Answers m p (.sleep milliseconds) (m.sleep p milliseconds) := by
  unfold sleep
  dsimp only
  split
  · refine .inr ⟨⟨rfl, rfl⟩, Keeps.spares (Keeps.update ?_)⟩
    exact fun _ => rfl
  · refine Keeps.update ?_
    exact fun _ => rfl

theorem setsid_answers : Answers m p .setsid (.ofPair (m.setsid p)) := by
  refine .inr ⟨⟨rfl, rfl⟩, Keeps.spares ?_⟩
  unfold setsid
  split
  · exact .refl m
  · refine Keeps.update ?_
    exact fun _ => rfl

theorem changeDirectory_answers (path : Bytes) :
    Answers m p (.changeDirectory path) (.ofPair (m.changeDirectory p path)) := by
  refine .inr ⟨⟨rfl, rfl⟩, Keeps.spares ?_⟩
  unfold changeDirectory
  split
  · exact .refl m
  · refine Keeps.update ?_
    exact fun _ => rfl

theorem alter_answers (change : FileSystem.Change) :
    Answers m p (.alter change) (.ofPair (m.alter p change)) := by
  refine .inr ⟨⟨rfl, rfl⟩, Keeps.spares ?_⟩
  unfold alter
  dsimp only
  split
  · exact .refl m
  · exact keeps_addPipe.trans (keeps_files _)

/-- **What a call does.**  Its process is affected as the call says, and the others are spared. -/
theorem perform_answers (hm : m.Numbered) (held : Descriptors) (c : Call) :
    Answers m p c (m.perform held p c) := by
  -- either the process is put elsewhere, or it is spared with the others
  cases c with
  | openPath path how mode => exact noting_answers path how mode (openPath_opens held path how mode)
  | close fd => exact close_answers fd
  | dup2 old new => exact dup2_answers old new
  | duplicate fd least =>
      unfold perform
      dsimp only
      cases hfile : p.descriptors.file? fd with
      | none => exact .inr ⟨⟨rfl, rfl⟩, .refl m⟩
      | some file =>
          dsimp only
          cases hallocate : p.descriptors.allocate? file least with
          | none => exact .inr ⟨⟨rfl, rfl⟩, .refl m⟩
          | some result =>
              obtain ⟨new, d⟩ := result
              obtain ⟨-, -, rfl⟩ := Descriptors.allocate?_eq_some_iff.1 hallocate
              exact .inl ⟨_, _, ⟨file, hfile, rfl, rfl⟩, puts_setDescriptors⟩
  | read fd count => exact read_answers held fd count
  | write fd bytes => exact write_answers hm held fd bytes
  | seek fd whence distance => exact seek_answers fd whence distance
  | pipe => exact makePipe_answers
  | wait child how => exact wait_answers child how
  | kill pid signal =>
      unfold perform
      dsimp only
      cases hsend : m.send p.pid p.group pid signal with
      | error errno => exact .inr ⟨⟨rfl, rfl⟩, .refl m⟩
      | ok answer =>
          obtain ⟨shell, m'⟩ := answer
          refine .inr ⟨⟨rfl, rfl⟩, (spares_send hm hsend).trans (Keeps.spares ?_)⟩
          split
          · unfold signalShell
            split
            · exact ⟨rfl, Nat.le_refl _, rfl⟩
            · exact .refl m'
          · exact .refl m'
  | setsid => exact setsid_answers
  | dispose signal disposition =>
      refine .inr ⟨⟨rfl, rfl⟩, Keeps.spares (Keeps.update ?_)⟩
      exact fun _ => rfl
  | unblockChild | takeCaught | setMask _ =>
      refine .inr ⟨⟨rfl, rfl⟩, Keeps.spares (Keeps.update ?_)⟩
      exact fun _ => rfl
  | changeDirectory path => exact changeDirectory_answers path
  | alter change => exact alter_answers change
  | resize fd size => exact resize_answers fd size
  | sleep milliseconds => exact sleep_answers milliseconds
  | fork | exec _ _ _ | exit _ | processId | parentId | caught | workingDirectory | access _ _
  | status _ _ | statusOf _ | list _ | readLink _ => exact .inr ⟨⟨rfl, rfl⟩, .refl m⟩

end

end Machine

end JobShell
