/-
**What is told on a machine: to the diagnostics of the shell, and to its kernel.**

The diagnostics of the shell grow only by what some process, or the shell, tells them, and the kernel
of the shell is told only of processes that have ended.  A group is made by the process that leads it,
when it starts a session, and by nobody else: a child is in the group of its parent.  So as long as a
process has not asked for a session of its own there is no group of its name, and it gets one when it
asks.  Of all calls two have to do with diagnostics and groups, and the others leave both as they are.

Main definitions:

* `JobShell.Machine.Deed.text` — what is told to the diagnostics;
* `JobShell.Machine.HasEnded`, `JobShell.Machine.Honest` — whoever the kernel is told of has ended;
* `JobShell.Machine.Calm` — nothing has been told to the diagnostics, and every process is in its
  group;
* `JobShell.Machine.Stirs` — something may have been told, and a process may have made its group.

Main results:

* `JobShell.Machine.perform_calm` — all calls but two;
* `JobShell.Machine.step_stirs` — a turn of a process.
-/

import JobShell.Proofs.Machine.Turns

set_option autoImplicit false

namespace JobShell

/-- What is told to the diagnostics of the shell. -/
def Machine.Deed.text : Machine.Deed → Bytes
  | .tells text => text
  | .runs _ _ _ _ | .denied _ _ _ | .barred _ _ _ _ => []

/-- A process is in its group, and if it has ended it stays so. -/
structure Process.Stays (q q' : Process) : Prop where
  pid : q'.pid = q.pid
  group : q'.group = q.group
  phase : ∀ ending, q.phase = .ended ending → q'.phase = .ended ending

namespace Machine

/-- A process has ended in some way. -/
def HasEnded (m : Machine) (pid : Int) (ending : Ending) : Prop :=
  ∃ v ∈ m.standings, v.pid = pid ∧ v.phase = .ended ending

/-- No id is given twice, and whoever the shell's kernel is to be told of has ended. -/
structure Honest (m : Machine) : Prop where
  numbered : m.Numbered
  deaths : ∀ d ∈ m.deaths, m.HasEnded d.1 d.2

/-- Nothing has been told to the diagnostics, every process is in its group, and the shell is what it
was. -/
structure Calm (m m' : Machine) : Prop where
  diagnostics : m'.diagnostics = m.diagnostics
  groups : m'.groups = m.groups
  shellPid : m'.shellPid = m.shellPid
  environment : m'.environment = m.environment
  honest : m.Honest → m'.Honest

variable {m m' m'' : Machine} {p : Process} {pid : Int}

theorem Calm.refl (m : Machine) : Calm m m := ⟨rfl, rfl, rfl, rfl, id⟩

theorem Calm.trans (h : Calm m m') (h' : Calm m' m'') : Calm m m'' :=
  ⟨h'.diagnostics.trans h.diagnostics, h'.groups.trans h.groups, h'.shellPid.trans h.shellPid,
    h'.environment.trans h.environment, h'.honest ∘ h.honest⟩

theorem Honest.of_standings (hm : m.Honest) (hstandings : m'.standings = m.standings)
    (hnextPid : m'.nextPid = m.nextPid) (hdeaths : ∀ d ∈ m'.deaths, d ∈ m.deaths) : m'.Honest := by
  refine ⟨hm.numbered.of_pids (by rw [hstandings]) hnextPid, fun d hd => ?_⟩
  rw [HasEnded, hstandings]
  exact hm.deaths d (hdeaths d hd)

/-- The processes are the same, and there is no more to be told. -/
theorem Calm.of_processes (hprocesses : m'.processes = m.processes)
    (hnextPid : m'.nextPid = m.nextPid) (hdeaths : m'.deaths = m.deaths)
    (hdiagnostics : m'.diagnostics = m.diagnostics) (hshellPid : m'.shellPid = m.shellPid)
    (henvironment : m'.environment = m.environment) : Calm m m' := by
  have hstandings : m'.standings = m.standings := congrArg (List.map Process.standing) hprocesses
  refine ⟨hdiagnostics, congrArg (List.map Process.group) hprocesses, hshellPid, henvironment, ?_⟩
  exact fun hm => hm.of_standings hstandings hnextPid fun d hd => hdeaths ▸ hd

/-! ### Changes of one process -/

theorem Calm.map {f : Process → Process} (h : ∀ q : Process, q.Stays (f q)) :
    Calm m { m with processes := m.processes.map f } := by
  have hgroups : (m.processes.map f).map Process.group = m.processes.map Process.group := by
    rw [List.map_map]
    exact List.map_congr_left fun q _ => (h q).group
  refine ⟨rfl, hgroups, rfl, rfl, fun hm => ⟨hm.numbered.of_pids ?_ rfl, fun d hd => ?_⟩⟩
  · rw [standings, standings, List.map_map, List.map_map, List.map_map]
    exact List.map_congr_left fun q _ => (h q).pid
  · obtain ⟨v, hv, hpid, hphase⟩ := hm.deaths d hd
    obtain ⟨q, hq, rfl⟩ := List.mem_map.1 hv
    exact ⟨_, List.mem_map_of_mem (List.mem_map_of_mem hq), (h q).pid.trans hpid,
      (h q).phase _ hphase⟩

theorem Calm.update {f : Process → Process} (h : ∀ q : Process, q.Stays (f q)) :
    Calm m (m.update pid f) := by
  refine Calm.map fun q => ?_
  split
  · exact h q
  · exact ⟨rfl, rfl, fun _ => id⟩

theorem Calm.foldl {α : Type} {f : Machine → α → Machine} (h : ∀ m a, Calm m (f m a)) :
    ∀ (as : List α) (m : Machine), Calm m (as.foldl f m)
  | [], m => .refl m
  | a :: as, m => (h m a).trans (Calm.foldl h as (f m a))

theorem stays_notice (q : Process) (signal : Nat) : q.Stays (q.notice signal) := by
  unfold Process.notice
  split
  · exact ⟨rfl, rfl, fun _ => id⟩
  · exact ⟨rfl, rfl, fun _ => id⟩

theorem calm_resume (pid : Int) (rest : Prog Nat) : Calm m (m.resume pid rest) := by
  refine Calm.update fun q => ?_
  by_cases halive : q.alive = true
  · rw [if_pos halive]
    refine ⟨rfl, rfl, fun ending hphase => ?_⟩
    rw [Process.alive, hphase] at halive
    cases halive
  · rw [if_neg halive]
    exact ⟨rfl, rfl, fun _ => id⟩

theorem calm_arrive (p : Process) : Calm m (m.arrive p) := by
  unfold arrive
  split
  · exact Calm.update fun _ => ⟨rfl, rfl, fun _ => id⟩
  · exact .refl m

/-- The end of a process tells nothing to the diagnostics, and its own death to the kernel. -/
theorem finish_leaves (pid : Int) (ending : Ending) :
    (m.finish pid ending).diagnostics = m.diagnostics ∧
      (m.finish pid ending).groups = m.groups ∧ (m.finish pid ending).shellPid = m.shellPid ∧
      (m.finish pid ending).environment = m.environment ∧
      ∀ d ∈ (m.finish pid ending).deaths, d ∈ m.deaths ∨ d = (pid, ending) := by
  unfold finish
  split
  · exact ⟨rfl, rfl, rfl, rfl, fun d => .inl⟩
  · split
    · extract_lets ended inherited left
      -- a parent may be told of the end, and children get another parent; neither changes a group
      have hinherited : Calm m { m with processes := m.processes.map inherited } := by
        refine Calm.map fun q => ?_
        simp only [inherited]
        split
        · exact ⟨rfl, rfl, fun _ => id⟩
        · split
          · exact stays_notice q _
          · exact ⟨rfl, rfl, fun _ => id⟩
      have hgroups : left.groups = m.groups := by
        rw [← hinherited.groups, groups, groups]
        simp only [left, update, List.map_map]
        refine List.map_congr_left fun q _ => ?_
        simp only [Function.comp, ended]
        split <;> rfl
      split
      · refine ⟨rfl, hgroups, rfl, rfl, fun d hd => ?_⟩
        exact (List.mem_append.1 hd).imp_right List.mem_singleton.1
      · exact ⟨rfl, hgroups, rfl, rfl, fun d => .inl⟩
    · exact ⟨rfl, rfl, rfl, rfl, fun d => .inl⟩

/-- Whose death is told has ended. -/
theorem Honest.finish (hm : m.Honest) (pid : Int) (ending : Ending) :
    (m.finish pid ending).Honest := by
  by_cases hliving : ∃ p, m.process? pid = some p ∧ p.alive = true
  · obtain ⟨p, hp, halive⟩ := hliving
    obtain ⟨hmem, rfl⟩ := mem_standings_of_process? hp
    obtain ⟨hstandings, -, hnextPid⟩ := standings_finish hp halive ending
    obtain ⟨-, -, -, -, hdeaths⟩ := @finish_leaves m p.pid ending
    refine ⟨hm.numbered.of_pids ?_ hnextPid, fun d hd => ?_⟩
    · rw [hstandings, List.map_map]
      refine List.map_congr_left fun v _ => ?_
      simp only [Function.comp]
      split <;> rfl
    rw [HasEnded, hstandings]
    rcases hdeaths d hd with hold | rfl
    · obtain ⟨v, hv, hpid, hphase⟩ := hm.deaths d hold
      refine ⟨v, List.mem_map.2 ⟨v, hv, if_neg fun hsame => ?_⟩, hpid, hphase⟩
      obtain rfl := hm.numbered.eq_of_pid hv hmem hsame
      replace hphase : p.phase = .ended d.2 := hphase
      rw [Process.alive, hphase] at halive
      cases halive
    · exact ⟨_, List.mem_map.2 ⟨p.standing, hmem, if_pos rfl⟩, rfl, rfl⟩
  · have hsame : m.finish pid ending = m := by
      unfold Machine.finish
      split
      · rfl
      · rename_i p hp
        exact if_neg fun halive => hliving ⟨p, hp, halive⟩
    rwa [hsame]

theorem calm_finish (pid : Int) (ending : Ending) : Calm m (m.finish pid ending) := by
  obtain ⟨hdiagnostics, hgroups, hshellPid, henvironment, -⟩ := @finish_leaves m pid ending
  exact ⟨hdiagnostics, hgroups, hshellPid, henvironment, fun hm => hm.finish pid ending⟩

theorem calm_deliver (signal : Nat) (p : Process) : Calm m (m.deliver signal p) := by
  unfold deliver
  split
  · exact .refl m
  · exact Calm.update fun q => stays_notice q signal
  · split
    · exact calm_finish _ _
    · exact Calm.update fun _ => ⟨rfl, rfl, fun _ => id⟩
    · exact Calm.update fun _ => ⟨rfl, rfl, fun _ => id⟩
    · exact .refl m

theorem calm_send {sender senderGroup target : Int} {signal : Nat} {shell : Bool}
    (h : m.send sender senderGroup target signal = .ok (shell, m')) : Calm m m' := by
  unfold send at h
  dsimp only at h
  split at h
  · cases h
  · split at h
    · cases h
    · split at h
      · cases h
        exact .refl m
      · cases h
        exact Calm.foldl (fun m p => calm_deliver signal p) _ m

/-! ### Calls -/

/-- The machine after a call. -/
def Outcome.machine {ρ : Type} : Outcome ρ → Machine
  | .reply _ m => m
  | .blocked m => m

theorem calm_allocate (file : OpenFile) : Calm m (m.allocate p file).machine := by
  unfold allocate
  split
  · exact Calm.update fun _ => ⟨rfl, rfl, fun _ => id⟩
  · exact .refl m

theorem calm_openFifo (held : Descriptors) (i : Nat) (reading : Bool) :
    Calm m (m.openFifo held p i reading).machine := by
  unfold openFifo
  extract_lets own other guests emptied admitted opening
  split
  · have hemptied : Calm m emptied := by
      simp only [emptied]
      split
      · exact .refl m
      · exact .of_processes rfl rfl rfl rfl rfl rfl
    have hadmitted : Calm emptied admitted := by
      refine Calm.foldl (fun _ guest => Calm.update ?_) guests emptied
      exact fun _ => ⟨rfl, rfl, fun _ => id⟩
    have hopening : Calm admitted opening := Calm.update fun _ => ⟨rfl, rfl, fun _ => id⟩
    exact ((hemptied.trans hadmitted).trans hopening).trans (calm_allocate own)
  · exact Calm.update fun _ => ⟨rfl, rfl, fun _ => id⟩

theorem calm_openPipe (held : Descriptors) (i : Nat) (how : OpenMode) :
    Calm m (m.openPipe held p i how).machine := by
  unfold openPipe
  split
  · exact calm_allocate _
  · split
    · exact calm_openFifo held i _
    · exact calm_allocate _

/-- Other files, and nothing else. -/
theorem calm_files (files : FileSystem) : Calm m { m with files := files } :=
  .of_processes rfl rfl rfl rfl rfl rfl

theorem calm_addOpening (o : Opening) : Calm m (m.addOpening o).2 :=
  .of_processes rfl rfl rfl rfl rfl rfl

theorem calm_setOpening (number : Nat) (o : Opening) : Calm m (m.setOpening number o) :=
  .of_processes rfl rfl rfl rfl rfl rfl

theorem calm_openFile (held : Descriptors) (node : Nat) (how : OpenMode) :
    Calm m (m.openFile held p node how).machine := by
  unfold openFile
  split
  · exact calm_openPipe held _ how
  · exact (calm_addOpening _).trans (calm_allocate _)

theorem calm_reopen (held : Descriptors) (file : OpenFile) (how : OpenMode) :
    Calm m (m.reopen held p file how).machine := by
  unfold reopen
  split
  · exact calm_allocate _
  · exact calm_allocate _
  · exact calm_openPipe held _ how
  · exact calm_openPipe held _ how
  · split
    · exact .refl m
    · split
      · exact .refl m
      · exact (calm_files _).trans (calm_openFile held _ how)

theorem calm_openPath (held : Descriptors) (path : Bytes) (how : OpenMode) (mode : Nat) :
    Calm m (m.openPath held p path how mode).machine := by
  unfold openPath
  split
  · exact .refl m
  · split
    · split
      · exact calm_reopen held _ how
      · exact .refl m
    · unfold openAccount
      split
      · exact .refl m
      · exact ((calm_files _).trans (calm_addOpening _)).trans (calm_allocate _)
    · split
      · exact .refl m
      · exact (calm_files _).trans (calm_openFile held _ how)

theorem calm_noting {outcome : Outcome (Except Errno Nat)} (path : Bytes) (how : OpenMode)
    (h : Calm m outcome.machine) : Calm m (outcome.noting p path how).machine := by
  rcases outcome with ⟨_ | fd, m'⟩ | m'
  · exact h
  · exact h.trans (Calm.update fun _ => ⟨rfl, rfl, fun _ => id⟩)
  · exact h

theorem calm_readOpening (number count : Nat) (o : Opening) :
    Calm m (m.readOpening number o count).2 := by
  unfold readOpening
  split
  · exact .refl m
  · split
    · exact calm_setOpening _ _
    · split
      · exact calm_setOpening _ _
      · exact .refl m
    all_goals exact .refl m

theorem calm_writeOpening (number : Nat) (o : Opening) (bytes : Bytes) :
    Calm m (m.writeOpening number o bytes).2 := by
  unfold writeOpening
  split
  · exact .refl m
  · split
    · exact .refl m
    · split
      · exact (calm_files _).trans (calm_setOpening _ _)
      all_goals exact .refl m

theorem calm_read (held : Descriptors) (fd count : Nat) :
    Calm m (m.read held p fd count).machine := by
  unfold read
  split
  · split
    · split <;> exact .refl m
    · exact .of_processes rfl rfl rfl rfl rfl rfl
  · split
    · exact calm_readOpening _ count _
    · exact .refl m
  · exact .refl m

theorem calm_write (held : Descriptors) {fd : Nat} (hfile : p.descriptors.file? fd ≠ some .diagnostics)
    (bytes : Bytes) : Calm m (m.write held p fd bytes).machine := by
  unfold write
  split
  · unfold writePipe
    dsimp only
    split
    · exact calm_deliver _ p
    · split
      · exact .refl m
      · exact .of_processes rfl rfl rfl rfl rfl rfl
  · exact .of_processes rfl rfl rfl rfl rfl rfl
  · rename_i hdiagnostics
    exact absurd hdiagnostics hfile
  · split
    · exact calm_writeOpening _ _ bytes
    · exact .refl m
  · exact .refl m

theorem calm_wait (child : Option Int) (how : Waiting) : Calm m (m.wait p child how).machine := by
  unfold wait
  extract_lets children dead wakeAt
  have hwakeAt : ∀ time, Calm m (wakeAt time).machine := by
    intro time
    simp only [wakeAt]
    split
    · exact Calm.update fun _ => ⟨rfl, rfl, fun _ => id⟩
    · exact Calm.update fun _ => ⟨rfl, rfl, fun _ => id⟩
  clear_value wakeAt dead children
  split
  · refine Calm.trans (Calm.update ?_) (Calm.update ?_)
    · exact fun _ => ⟨rfl, rfl, fun _ => id⟩
    · exact fun _ => ⟨rfl, rfl, fun _ => id⟩
  · split
    · exact .refl m
    · cases how with
      | patient | polling => exact .refl m
      | alert =>
          dsimp only
          split
          · exact .refl m
          · exact hwakeAt _
      | within milliseconds => exact hwakeAt _

theorem calm_sleep (milliseconds : Nat) : Calm m (m.sleep p milliseconds).machine := by
  unfold sleep
  dsimp only
  split
  · exact Calm.update fun _ => ⟨rfl, rfl, fun _ => id⟩
  · exact Calm.update fun _ => ⟨rfl, rfl, fun _ => id⟩

theorem calm_seek (fd : Nat) (whence : Whence) (distance : Int) :
    Calm m (m.seek p fd whence distance).2 := by
  unfold seek
  split
  · split
    · split
      · exact calm_setOpening _ _
      · exact .refl m
    · exact .refl m
  · exact .refl m
  · exact .refl m

theorem calm_resize (fd size : Nat) : Calm m (m.resize p fd size).2 := by
  unfold resize
  split
  · exact .refl m
  · split
    · split
      · exact calm_files _
      · exact .refl m
    · exact .refl m
  · exact .refl m

theorem calm_alter (change : FileSystem.Change) : Calm m (m.alter p change).2 := by
  unfold alter
  dsimp only
  split
  · exact .refl m
  · exact .of_processes rfl rfl rfl rfl rfl rfl

/-- **All calls but two**: one makes a group, and one tells the diagnostics something. -/
theorem perform_calm (held : Descriptors) {c : Call} (hsetsid : c ≠ .setsid)
    (htells : ∀ fd bytes, c = .write fd bytes → p.descriptors.file? fd ≠ some .diagnostics) :
    Calm m (m.perform held p c).machine := by
  cases c with
  | openPath path how mode => exact calm_noting path how (calm_openPath held path how mode)
  | close fd =>
      change Calm m (m.close p fd).2
      unfold close
      split
      · -- a process may change in all but its group, and does not end by these calls
        exact Calm.update fun _ => ⟨rfl, rfl, fun _ => id⟩
      · exact .refl m
  | dup2 old new =>
      change Calm m (m.dup2 p old new).2
      unfold dup2
      split
      · exact .refl m
      · split
        · exact .refl m
        · exact Calm.update fun _ => ⟨rfl, rfl, fun _ => id⟩
  | duplicate fd least =>
      unfold perform
      dsimp only
      split
      · exact .refl m
      · split
        · exact .refl m
        · exact Calm.update fun _ => ⟨rfl, rfl, fun _ => id⟩
  | read fd count => exact calm_read held fd count
  | write fd bytes => exact calm_write held (htells fd bytes rfl) bytes
  | seek fd whence distance => exact calm_seek fd whence distance
  | pipe =>
      change Calm m (m.makePipe p).2
      unfold makePipe
      split
      · exact .refl m
      · have hpipe : Calm m m.addPipe.2 := .of_processes rfl rfl rfl rfl rfl rfl
        exact hpipe.trans (Calm.update fun _ => ⟨rfl, rfl, fun _ => id⟩)
  | wait child how => exact calm_wait child how
  | kill pid signal =>
      unfold perform
      dsimp only
      cases hsend : m.send p.pid p.group pid signal with
      | error errno => exact .refl m
      | ok answer =>
          obtain ⟨shell, m'⟩ := answer
          refine (calm_send hsend).trans ?_
          change Calm m' (if shell then m'.signalShell signal else m')
          split
          · unfold signalShell
            split
            · -- a signal for the shell waits beside the processes
              exact .of_processes rfl rfl rfl rfl rfl rfl
            · exact .refl m'
          · exact .refl m'
  | setsid => exact absurd rfl hsetsid
  | dispose _ _ | unblockChild | takeCaught | setMask _ =>
      exact Calm.update fun _ => ⟨rfl, rfl, fun _ => id⟩
  | changeDirectory path =>
      change Calm m (m.changeDirectory p path).2
      unfold changeDirectory
      split
      · exact .refl m
      · exact Calm.update fun _ => ⟨rfl, rfl, fun _ => id⟩
  | alter change => exact calm_alter change
  | resize fd size => exact calm_resize fd size
  | sleep milliseconds => exact calm_sleep milliseconds
  | fork | exec _ _ _ | exit _ | processId | parentId | caught | workingDirectory | access _ _
  | status _ _ | statusOf _ | list _ | readLink _ => exact .refl m

/-! ### A turn of a process -/

/-- Something may have been told, and a process may have made the group of its name. -/
structure Stirs (m : Machine) (pid : Int) (deeds : List Deed) (m' : Machine) : Prop where
  diagnostics : m'.diagnostics = m.diagnostics ++ deeds.flatMap Deed.text
  groups : ∀ g ∈ m'.groups, g ∈ m.groups ∨ g = pid
  shellPid : m'.shellPid = m.shellPid
  environment : m'.environment = m.environment
  honest : m.Honest → m'.Honest

theorem Calm.stirs {deeds : List Deed} (h : Calm m m') (hdeeds : deeds.flatMap Deed.text = []) :
    Stirs m pid deeds m' :=
  ⟨by rw [h.diagnostics, hdeeds, List.append_nil], fun g hg => .inl (h.groups ▸ hg), h.shellPid,
    h.environment, h.honest⟩

theorem Stirs.calm {deeds : List Deed} (h : Stirs m pid deeds m') (h' : Calm m' m'') :
    Stirs m pid deeds m'' :=
  ⟨h'.diagnostics.trans h.diagnostics, fun g hg => h.groups g (h'.groups ▸ hg),
    h'.shellPid.trans h.shellPid, h'.environment.trans h.environment, h'.honest ∘ h.honest⟩

theorem stirs_setsid : Stirs m p.pid [] (m.setsid p).2 := by
  unfold setsid
  split
  · exact (Calm.refl m).stirs rfl
  · have hkeeps : Keeps m (m.update p.pid fun p => { p with group := p.pid, session := p.pid }) := by
      refine Keeps.update ?_
      exact fun _ => rfl
    refine ⟨by simp [update], fun g hg => ?_, rfl, rfl, fun hm => ?_⟩
    · rw [groups, update, List.map_map] at hg
      obtain ⟨q, hq, rfl⟩ := List.mem_map.1 hg
      dsimp only [Function.comp]
      split
      · rename_i hpid
        exact .inr hpid
      · exact .inl (List.mem_map_of_mem hq)
    · exact hm.of_standings hkeeps.standings hkeeps.nextPid fun d => id

/-- A process is added, and nobody is told anything. -/
theorem Honest.add (hm : m.Honest) {v : Standing} (hpid : v.pid = m.nextPid)
    (hstandings : m'.standings = m.standings ++ [v]) (hnextPid : m'.nextPid = m.nextPid + 1)
    (hdeaths : m'.deaths = m.deaths) : m'.Honest := by
  refine ⟨⟨?_, fun w hw => ?_⟩, fun d hd => ?_⟩
  · rw [hstandings, List.map_append, List.map_singleton, hpid, List.nodup_append]
    refine ⟨hm.numbered.nodup, List.nodup_singleton _, ?_⟩
    rintro pid hold _ hnew rfl
    obtain ⟨w, hw, rfl⟩ := List.mem_map.1 hold
    exact absurd (List.mem_singleton.1 hnew) (Int.ne_of_lt (hm.numbered.lt w hw))
  · rw [hstandings, List.mem_append, List.mem_singleton] at hw
    rw [hnextPid]
    rcases hw with hw | rfl
    · exact Int.lt_add_one_of_le (Int.le_of_lt (hm.numbered.lt w hw))
    · exact Int.lt_add_one_of_le (Int.le_of_eq hpid)
  · obtain ⟨w, hw, hdead⟩ := hm.deaths d (hdeaths ▸ hd)
    exact ⟨w, hstandings ▸ List.mem_append_left _ hw, hdead⟩

theorem stirs_addProcess {child : Process} (hgroup : child.group ∈ m.groups) :
    Stirs m pid [] (m.addProcess child) := by
  refine ⟨by simp [addProcess], fun g hg => .inl ?_, rfl, rfl, fun hm => ?_⟩
  · rw [groups, addProcess, List.map_append, List.mem_append] at hg
    rcases hg with hg | hg
    · exact hg
    · obtain rfl := List.mem_singleton.1 hg
      exact hgroup
  · exact hm.add (v := { child with pid := m.nextPid }.standing) rfl
      (by simp [addProcess, standings]) rfl rfl

/-- A program is run, which leaves the deaths and the groups. -/
theorem exec_leaves {path : Bytes} {words : List Bytes} {environment : Environment}
    (h : m.exec p path words environment = .ok m') :
    m'.diagnostics = m.diagnostics ∧ m'.groups = m.groups ∧ m'.shellPid = m.shellPid ∧
      m'.environment = m.environment ∧ m'.deaths = m.deaths := by
  obtain ⟨_, _, _, -, rfl⟩ := eq_of_exec h
  refine ⟨rfl, ?_, rfl, rfl, rfl⟩
  rw [groups, groups, update, List.map_map]
  refine List.map_congr_left fun q _ => ?_
  dsimp only [Function.comp]
  split <;> rfl

/-- Who runs a program is not one of those who have ended. -/
theorem Honest.exec (hm : m.Honest) {path : Bytes} {words : List Bytes} {environment : Environment}
    (h : m.exec p path words environment = .ok m')
    (hliving : ∀ v ∈ m.standings, v.pid = p.pid → ∀ ending, v.phase ≠ .ended ending) :
    m'.Honest := by
  obtain ⟨image, rest, hstandings, -, hnextPid⟩ := exec_eq_ok h
  obtain ⟨-, -, -, -, hdeaths⟩ := exec_leaves h
  refine ⟨hm.numbered.of_pids ?_ hnextPid, fun d hd => ?_⟩
  · rw [hstandings, List.map_map]
    refine List.map_congr_left fun v _ => ?_
    dsimp only [Function.comp]
    split <;> rfl
  · obtain ⟨v, hv, hpid, hphase⟩ := hm.deaths d (hdeaths ▸ hd)
    refine ⟨v, ?_, hpid, hphase⟩
    rw [hstandings]
    exact List.mem_map.2 ⟨v, hv, if_neg fun hsame => hliving v hv hsame _ hphase⟩

/-- **A process runs a program.** -/
theorem stirs_exec (hp : p ∈ m.processes) {rest : Prog Nat} (hphase : p.phase = .running rest)
    {path : Bytes} {words : List Bytes} {environment : Environment} {deed : Deed}
    (hdeed : deed.text = []) (h : (m.arrive p).exec p path words environment = .ok m') :
    Stirs m p.pid [deed] m' := by
  have harrive := @calm_arrive m p
  obtain ⟨hdiagnostics, hgroups, hshellPid, henvironment, -⟩ := exec_leaves h
  refine ⟨by simp [hdiagnostics, harrive.diagnostics, hdeed],
    fun g hg => .inl (harrive.groups ▸ hgroups ▸ hg), hshellPid.trans harrive.shellPid,
    henvironment.trans harrive.environment, fun hm => ?_⟩
  have hmem : p.standing ∈ m.standings := List.mem_map_of_mem hp
  refine (harrive.honest hm).exec h fun v hv hpid ending hended => ?_
  rw [standings_arrive hm.numbered hmem] at hv
  obtain ⟨u, hu, rfl⟩ := List.mem_map.1 hv
  have hsame : u.pid = p.pid := by
    split at hpid
    · assumption
    · exact hpid
  obtain rfl := hm.numbered.eq_of_pid hu hmem hsame
  rw [if_pos hsame] at hended
  have hphase' : p.standing.arrived.phase = p.phase := by
    unfold Standing.arrived
    split <;> rfl
  rw [hphase', hphase] at hended
  cases hended

/-- What can be noticed of a call is told to the diagnostics only if it is written there. -/
theorem text_deeds {c : Call} {d : Descriptors} (outcome : Outcome c.Reply)
    (htells : ∀ fd bytes, c = .write fd bytes → d.file? fd ≠ some .diagnostics) :
    (outcome.deeds c d).flatMap Deed.text = [] := by
  cases outcome with
  | blocked m' => rfl
  | reply reply m' =>
      cases c with
      | write fd bytes =>
          have hnone : (Call.write fd bytes).deeds d reply = [] := if_neg (htells fd bytes rfl)
          rw [Outcome.deeds, hnone]
          rfl
      | openPath path how mode =>
          rcases (reply : Except Errno Nat) with errno | fd
          · rfl
          · rfl
      | _ => rfl

theorem perform_stirs (held : Descriptors) (c : Call) :
    Stirs m p.pid ((m.perform held p c).deeds c p.descriptors) (m.perform held p c).machine := by
  by_cases htells : ∃ fd bytes, c = .write fd bytes ∧ p.descriptors.file? fd = some .diagnostics
  · obtain ⟨fd, bytes, rfl, hfile⟩ := htells
    have hone : (m.perform held p (.write fd bytes)).deeds (.write fd bytes) p.descriptors =
        [.tells bytes] := by
      rw [perform_diagnostics hfile]
      exact if_pos hfile
    rw [hone, perform_diagnostics hfile]
    refine ⟨by simp [Outcome.machine, Deed.text], fun g hg => .inl hg, rfl, rfl, fun hm => ?_⟩
    exact hm.of_standings rfl rfl fun d => id
  · have hsilent : ∀ fd bytes, c = .write fd bytes → p.descriptors.file? fd ≠ some .diagnostics :=
      fun fd bytes hc hfile => htells ⟨fd, bytes, hc, hfile⟩
    by_cases hsetsid : c = .setsid
    · rw [hsetsid]
      exact stirs_setsid
    · exact (perform_calm held hsetsid hsilent).stirs (text_deeds _ hsilent)

/-- A process goes on when its call has got a reply. -/
theorem reply_stirs {c : Call} {next : c.Reply → Prog Nat} (held : Descriptors) :
    Stirs m p.pid ((m.perform held p c).deeds c p.descriptors)
      (match m.perform held p c with
      | .reply value m => (true, m.resume p.pid (next value))
      | .blocked m => (false, m)).2 := by
  have hstirs := @perform_stirs m p held c
  cases houtcome : m.perform held p c with
  | reply value m' =>
      rw [houtcome] at hstirs
      exact hstirs.calm (calm_resume _ _)
  | blocked m' =>
      rw [houtcome] at hstirs
      exact hstirs

/-- **A turn of a process.** -/
theorem step_stirs (hp : p ∈ m.processes) (held : Descriptors) :
    Stirs m p.pid (m.deeds held p) (m.step held p).2 := by
  unfold step deeds
  cases hphase : p.phase with
  | ended ending =>
      simp only [ite_self]
      exact (Calm.refl m).stirs rfl
  | running rest =>
      dsimp only
      by_cases hstopped : p.stopped = true
      · rw [if_pos hstopped, if_pos hstopped]
        exact (Calm.refl m).stirs rfl
      rw [if_neg hstopped, if_neg hstopped]
      cases rest with
      | done code => exact (calm_finish _ _).stirs rfl
      | call c next =>
          cases c with
          | fork =>
              -- who is forked joins the group of its parent
              have hgroup : p.group ∈ m.groups := List.mem_map_of_mem hp
              dsimp only
              refine Stirs.calm (stirs_addProcess ?_) (calm_resume _ _)
              exact hgroup
          | exec path words environment =>
              dsimp only
              cases hexec : (m.arrive p).exec p path words environment with
              | ok m' => exact stirs_exec hp hphase rfl hexec
              | error errno => exact ((calm_arrive p).trans (calm_resume _ _)).stirs rfl
          | exit code => exact (calm_finish _ _).stirs rfl
          | _ => exact reply_stirs held

end Machine

end JobShell
