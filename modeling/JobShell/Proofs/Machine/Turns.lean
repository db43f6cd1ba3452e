/-
**What a turn leaves of the processes.**

In one turn of the machine one process makes a call, and what this leaves of all standings is one
of few things: some processes have ended, one has gone on with its program, perhaps with other
descriptors, or it has started another program, or a process has been forked.  The shell adds to
this only that it starts children.  Process ids are never given twice.

Main definitions:

* `JobShell.Standing.Next`, `JobShell.Standing.Born` — what can become of a process in one step,
  and a process that has just been forked;
* `JobShell.Standing.Turn`, `JobShell.Machine.Turned` — what becomes of a process that has its turn,
  with what it does, and what becomes of all processes then;
* `JobShell.Machine.Advances` — one step of the standings;
* `JobShell.Machine.Happens` — whatever the machine does by itself or for the shell.

Main results:

* `JobShell.Machine.step_turned`, `JobShell.Machine.step_advances` — a call of a process is its turn,
  and a step of the standings;
* `JobShell.Machine.Happens.advances` — so is everything that happens;
* `JobShell.Machine.Advances.numbered` — ids stay unique.
-/

import JobShell.Proofs.Machine.Alone
import JobShell.Proofs.Machine.Deeds
import Mathlib.Logic.Relation

set_option autoImplicit false

namespace JobShell

namespace Standing

/-- A process that is about to run a program, which is noted if it is the first one. -/
def arrived (v : Standing) : Standing :=
  if v.image.isNone then { v with arrivals := v.arrivals ++ [⟨v.descriptors, v.opened⟩] } else v

/-- A process that goes on, if it has not ended. -/
def resumed (v : Standing) (rest : Prog Nat) : Standing :=
  match v.phase with
  | .running _ => { v with phase := .running rest }
  | .ended _ => v

/-- A child of the shell, before its first call. -/
def launched (pid : Int) (a : Assignment) (environment : Environment) : Standing :=
  { pid := pid
    root := pid
    image := none
    phase := .running (a.run environment)
    descriptors := a.descriptors
    opened := []
    arrivals := [] }

/-- What can become of a process in one step. -/
inductive Next (pipes pipes' : Nat) (v : Standing) : Standing → Prop where
  | same : Next pipes pipes' v v
  | ended (ending : Ending) : Next pipes pipes' v (v.ended ending)
  | called {c : Call} {next : c.Reply → Prog Nat} {reply : c.Reply} {d : Descriptors}
      {opened : List PathOpening} :
      v.phase = .running (.call c next) → c.Affects pipes pipes' v.descriptors reply d opened →
        Next pipes pipes' v { v.put d opened with phase := .running (next reply) }
  | executed {path : Bytes} {words : List Bytes} {environment : Environment}
      {next : Errno → Prog Nat} (image : Image) (rest : Prog Nat) :
      v.phase = .running (.call (.exec path words environment) next) →
        Next pipes pipes' v
          { v.arrived with
            descriptors := v.descriptors.kept
            image := some image
            phase := .running rest }
  | refused {path : Bytes} {words : List Bytes} {environment : Environment}
      {next : Errno → Prog Nat} (errno : Errno) :
      v.phase = .running (.call (.exec path words environment) next) →
        Next pipes pipes' v { v.arrived with phase := .running (next errno) }

/-- What becomes of a process when it has its turn, with what it does.  It leads a group or not. -/
inductive Turn (pipes pipes' : Nat) (leads : Prop) (v : Standing) :
    List Machine.Deed → Standing → Prop where
  | waits : Turn pipes pipes' leads v [] v
  | killed {rest : Prog Nat} (signal : Nat) : v.phase = .running rest →
      Turn pipes pipes' leads v [] (v.ended (.killed signal))
  | finished {code : Nat} : v.phase = .running (.done code) →
      Turn pipes pipes' leads v [] (v.ended (.exited (code % 256 : Nat)))
  | exited {code : Nat} {next : Unit → Prog Nat} : v.phase = .running (.call (.exit code) next) →
      Turn pipes pipes' leads v [] (v.ended (.exited (code % 256 : Nat)))
  | called {c : Call} {next : c.Reply → Prog Nat} {reply : c.Reply} {d : Descriptors}
      {opened : List PathOpening} :
      v.phase = .running (.call c next) → c.Affects pipes pipes' v.descriptors reply d opened →
        c.Grants leads v.descriptors reply →
          Turn pipes pipes' leads v (c.deeds v.descriptors reply)
            { v.put d opened with phase := .running (next reply) }
  | executed {path : Bytes} {words : List Bytes} {environment : Environment}
      {next : Errno → Prog Nat} (image : Image) (rest : Prog Nat) :
      v.phase = .running (.call (.exec path words environment) next) →
        Turn pipes pipes' leads v [.runs path words environment ⟨v.descriptors, v.opened⟩]
          { v.arrived with
            descriptors := v.descriptors.kept
            image := some image
            phase := .running rest }
  | refused {path : Bytes} {words : List Bytes} {environment : Environment}
      {next : Errno → Prog Nat} (errno : Errno) :
      v.phase = .running (.call (.exec path words environment) next) →
        Turn pipes pipes' leads v [.barred path words environment errno]
          { v.arrived with phase := .running (next errno) }

/-- A process that another one has just forked. -/
def Born (pid : Int) (v child : Standing) : Prop :=
  ∃ next, v.phase = .running (.call .fork next) ∧
    child =
      { v with
        pid := pid
        phase := .running (next (.ok .child))
        opened := []
        arrivals := [] }

variable {pipes pipes' : Nat} {leads : Prop} {v w : Standing} {deeds : List Machine.Deed}

@[simp] theorem put_self : v.put v.descriptors [] = v := by
  simp [put]

@[simp] theorem arrived_pid : v.arrived.pid = v.pid := by
  unfold arrived
  split <;> rfl

@[simp] theorem arrived_image : v.arrived.image = v.image := by
  unfold arrived
  split <;> rfl

@[simp] theorem arrived_descriptors : v.arrived.descriptors = v.descriptors := by
  unfold arrived
  split <;> rfl

theorem Next.pid_eq (h : Next pipes pipes' v w) : w.pid = v.pid := by
  cases h with
  | same | ended | called => rfl
  | executed | refused => exact arrived_pid

/-- Who has run a program goes on with one. -/
theorem Next.image_isSome (h : Next pipes pipes' v w) (hv : v.image.isSome = true) :
    w.image.isSome = true := by
  cases h with
  | same | ended | called => exact hv
  | executed => rfl
  | refused =>
      change v.arrived.image.isSome = true
      rwa [arrived_image]

theorem Spared.next (h : Spared v w) : Next pipes pipes' v w := by
  cases h with
  | same => exact .same
  | killed signal => exact .ended (.killed signal)

/-- A turn is one of the things that can become of a process. -/
theorem Turn.next (h : Turn pipes pipes' leads v deeds w) : Next pipes pipes' v w := by
  cases h with
  | waits => exact .same
  | killed | finished | exited => exact .ended _
  | called hphase haffects => exact .called hphase haffects
  | executed image rest hphase => exact .executed image rest hphase
  | refused errno hphase => exact .refused errno hphase

end Standing

namespace Machine

open Standing (Next Turn Born Spared)

/-- One step of the standings.  The shell starts children with some assignments. -/
inductive Advances (launching : Assignment → Prop) (m m' : Machine) : Prop where
  | next : List.Forall₂ (Next m.pipes.length m'.pipes.length) m.standings m'.standings →
      m.pipes.length ≤ m'.pipes.length → m'.nextPid = m.nextPid → Advances launching m m'
  | fork {v child : Standing} {old : List Standing} : v ∈ m.standings → Born m.nextPid v child →
      List.Forall₂ (Next m.pipes.length m'.pipes.length) m.standings old → m'.standings = old ++ [child] →
      m.pipes.length ≤ m'.pipes.length → m'.nextPid = m.nextPid + 1 → Advances launching m m'
  | start {a : Assignment} {environment : Environment} : launching a →
      m'.standings = m.standings ++ [.launched m.nextPid a environment] →
      m.pipes.length ≤ m'.pipes.length → m'.nextPid = m.nextPid + 1 → Advances launching m m'

/-- What becomes of one process when another one, or it itself, has its turn. -/
inductive Fares (pipes pipes' : Nat) (leads : Prop) (v : Standing) (deeds : List Deed)
    (u w : Standing) : Prop where
  | self : u = v → Turn pipes pipes' leads v deeds w → Fares pipes pipes' leads v deeds u w
  | other : u.pid ≠ v.pid → Spared u w → Fares pipes pipes' leads v deeds u w

/-- **A process has its turn** and does something, and the other ones are spared. -/
inductive Turned (m : Machine) (v : Standing) (deeds : List Deed) (m' : Machine) : Prop where
  | alone : List.Forall₂ (Fares m.pipes.length m'.pipes.length (v.pid ∈ m.groups) v deeds)
      m.standings m'.standings →
        m.pipes.length ≤ m'.pipes.length → m'.nextPid = m.nextPid → Turned m v deeds m'
  | fork {child : Standing} {old : List Standing} : v ∈ m.standings → Born m.nextPid v child →
      List.Forall₂ (Fares m.pipes.length m'.pipes.length (v.pid ∈ m.groups) v deeds)
        m.standings old →
        m'.standings = old ++ [child] → m.pipes.length ≤ m'.pipes.length →
          m'.nextPid = m.nextPid + 1 → Turned m v deeds m'

/-- Whatever the machine does by itself or for the shell. -/
inductive Happens (launching : Assignment → Prop) (m : Machine) : Machine → Prop where
  | turn {held : Descriptors} {m' : Machine} :
      m.turnOnce held = some m' → Happens launching m m'
  /-- The shell's kernel is told of deaths. -/
  | tell (deaths : List (Int × Ending)) : Happens launching m { m with deaths := deaths }
  | pipe : Happens launching m m.addPipe.2
  | write (file : OpenFile) (bytes : Bytes) : Happens launching m (m.shellWrite file bytes)
  | kill {pid : Int} {signal : Nat} {self : Bool} {m' : Machine} :
      m.send m.shellPid m.shellPid pid signal = .ok (self, m') → Happens launching m m'
  | start {a : Assignment} : launching a → Happens launching m (m.start m.nextPid a)

variable {launching : Assignment → Prop} {m m' : Machine} {p : Process} {v : Standing}
  {deeds : List Deed}

/-! ### Steps of the standings -/

/-- A turn is a step of the standings. -/
theorem Turned.advances (h : Turned m v deeds m') : Advances launching m m' := by
  have hnext : ∀ {u w : Standing},
      Fares m.pipes.length m'.pipes.length (v.pid ∈ m.groups) v deeds u w →
        Next m.pipes.length m'.pipes.length u w := by
    rintro u w (⟨rfl, hturn⟩ | ⟨-, hspared⟩)
    · exact hturn.next
    · exact hspared.next
  cases h with
  | alone hfares hpipes hnextPid => exact .next (hfares.imp fun _ _ => hnext) hpipes hnextPid
  | fork hv hborn hfares hstandings hpipes hnextPid =>
      exact .fork hv hborn (hfares.imp fun _ _ => hnext) hstandings hpipes hnextPid

/-- A process that waits. -/
theorem Keeps.turned (h : Keeps m m') (hm : m.Numbered) (hv : v ∈ m.standings) :
    Turned m v [] m' := by
  refine .alone ?_ h.pipes h.nextPid
  rw [h.standings, List.forall₂_same]
  intro u hu
  by_cases hpid : u.pid = v.pid
  · obtain rfl := hm.eq_of_pid hu hv hpid
    exact .self rfl .waits
  · exact .other hpid .same

theorem Spares.advances (h : Spares m m') : Advances launching m m' :=
  .next (h.standings.imp fun _ _ => Spared.next) h.pipes h.nextPid

theorem Keeps.advances (h : Keeps m m') : Advances launching m m' := h.spares.advances

/-- Every process has a past, unless it has just been made. -/
theorem Advances.past (h : Advances launching m m') {w : Standing} (hw : w ∈ m'.standings) :
    (∃ v ∈ m.standings, Next m.pipes.length m'.pipes.length v w) ∨
      (∃ v ∈ m.standings, Born m.nextPid v w) ∨
        ∃ a environment, launching a ∧ w = .launched m.nextPid a environment := by
  have hold : ∀ {l : List Standing}, List.Forall₂ (Next m.pipes.length m'.pipes.length) m.standings l → w ∈ l →
      ∃ v ∈ m.standings, Next m.pipes.length m'.pipes.length v w := by
    intro l hl hmem
    obtain ⟨i, hi, rfl⟩ := List.getElem_of_mem hmem
    have hi' : i < m.standings.length := hl.length_eq ▸ hi
    exact ⟨m.standings[i], List.getElem_mem _, hl.get hi' hi⟩
  cases h with
  | next hnext => exact .inl (hold hnext hw)
  | fork hv hborn hold' hstandings =>
      rw [hstandings, List.mem_append, List.mem_singleton] at hw
      rcases hw with hw | rfl
      · exact .inl (hold hold' hw)
      · exact .inr (.inl ⟨_, hv, hborn⟩)
  | @start a environment ha hstandings =>
      rw [hstandings, List.mem_append, List.mem_singleton] at hw
      rcases hw with hw | rfl
      · exact .inl ⟨w, hw, .same⟩
      · exact .inr (.inr ⟨a, environment, ha, rfl⟩)

/-- No process is forgotten. -/
theorem Advances.future (h : Advances launching m m') (hv : v ∈ m.standings) :
    ∃ w ∈ m'.standings, Next m.pipes.length m'.pipes.length v w := by
  have hold : ∀ {l : List Standing}, List.Forall₂ (Next m.pipes.length m'.pipes.length) m.standings l →
      ∃ w ∈ l, Next m.pipes.length m'.pipes.length v w := by
    intro l hl
    obtain ⟨i, hi, rfl⟩ := List.getElem_of_mem hv
    have hi' : i < l.length := hl.length_eq ▸ hi
    exact ⟨l[i], List.getElem_mem _, hl.get hi hi'⟩
  cases h with
  | next hnext => exact hold hnext
  | fork _ _ hold' hstandings =>
      obtain ⟨w, hw, hnext⟩ := hold hold'
      exact ⟨w, hstandings ▸ List.mem_append_left _ hw, hnext⟩
  | start _ hstandings => exact ⟨v, hstandings ▸ List.mem_append_left _ hv, .same⟩

theorem Advances.pipes_le (h : Advances launching m m') : m.pipes.length ≤ m'.pipes.length := by
  cases h with
  | next _ hpipes | fork _ _ _ _ hpipes | start _ _ hpipes => exact hpipes

theorem Advances.nextPid_le (h : Advances launching m m') : m.nextPid ≤ m'.nextPid := by
  cases h with
  | next _ _ hnextPid => omega
  | fork _ _ _ _ _ hnextPid => omega
  | start _ _ _ hnextPid => omega

theorem forall₂_next_pids {pipes pipes' : Nat} {l l' : List Standing}
    (h : List.Forall₂ (Next pipes pipes') l l') : l'.map (·.pid) = l.map (·.pid) := by
  induction h with
  | nil => rfl
  | cons hnext _ ih => rw [List.map_cons, List.map_cons, hnext.pid_eq, ih]

/-- **Ids stay unique.** -/
theorem Advances.numbered (h : Advances launching m m') (hm : m.Numbered) : m'.Numbered := by
  have hpids : ∀ pids : List Int, m'.standings.map (·.pid) = pids →
      pids.Nodup → (∀ pid ∈ pids, pid < m'.nextPid) → m'.Numbered := by
    rintro pids rfl hnodup hlt
    exact ⟨hnodup, fun v hv => hlt v.pid (List.mem_map_of_mem hv)⟩
  have hlt : ∀ pid ∈ m.standings.map (·.pid), pid < m.nextPid := by
    intro pid hpid
    obtain ⟨v, hv, rfl⟩ := List.mem_map.1 hpid
    exact hm.lt v hv
  -- the id of a process that is new is greater than all others
  have hnew : ∀ pids : List Int, pids = m.standings.map (·.pid) →
      (pids ++ [m.nextPid]).Nodup ∧ ∀ pid ∈ pids ++ [m.nextPid], pid < m.nextPid + 1 := by
    rintro pids rfl
    constructor
    · refine List.Nodup.append hm.nodup (List.nodup_singleton _) ?_
      intro pid hpid hpid'
      rw [List.mem_singleton] at hpid'
      exact absurd (hlt pid hpid) (by omega)
    · intro pid hpid
      rw [List.mem_append, List.mem_singleton] at hpid
      rcases hpid with hpid | rfl
      · exact Int.lt_trans (hlt pid hpid) (by omega)
      · omega
  cases h with
  | next hnext _ hnextPid =>
      exact hpids _ (forall₂_next_pids hnext) hm.nodup (hnextPid ▸ hlt)
  | fork _ hborn hold hstandings _ hnextPid =>
      obtain ⟨next, -, rfl⟩ := hborn
      have := hnew _ rfl
      refine hpids _ ?_ this.1 (hnextPid ▸ this.2)
      rw [hstandings, List.map_append, forall₂_next_pids hold]
      rfl
  | start _ hstandings _ hnextPid =>
      have := hnew _ rfl
      refine hpids _ ?_ this.1 (hnextPid ▸ this.2)
      rw [hstandings, List.map_append]
      rfl

/-! ### A call of a process -/

theorem standings_resume (pid : Int) (rest : Prog Nat) :
    (m.resume pid rest).standings =
      m.standings.map fun v => if v.pid = pid then v.resumed rest else v := by
  refine standings_update (g := fun v => v.resumed rest) fun q => ?_
  cases hphase : q.phase with
  | running _ => simp [Process.alive, Standing.resumed, Process.standing, hphase]
  | ended _ => simp [Process.alive, Standing.resumed, Process.standing, hphase]

@[simp] theorem pipes_resume (pid : Int) (rest : Prog Nat) : (m.resume pid rest).pipes = m.pipes :=
  rfl

theorem standings_arrive (hm : m.Numbered) (hp : p.standing ∈ m.standings) :
    (m.arrive p).standings = m.standings.map fun v => if v.pid = p.pid then v.arrived else v := by
  have hself : ∀ v ∈ m.standings, v.pid = p.pid → v.arrived =
      if p.image.isNone then { v with arrivals := v.arrivals ++ [⟨v.descriptors, v.opened⟩] }
      else v := by
    intro v hv hpid
    obtain rfl := hm.eq_of_pid hv hp hpid
    rfl
  unfold arrive
  by_cases himage : p.image.isNone = true
  · rw [if_pos himage, standings_update (g := fun v =>
      { v with arrivals := v.arrivals ++ [⟨v.descriptors, v.opened⟩] }) fun q => rfl]
    refine List.map_congr_left fun v hv => ?_
    by_cases hpid : v.pid = p.pid
    · rw [if_pos hpid, if_pos hpid, hself v hv hpid, if_pos himage]
    · rw [if_neg hpid, if_neg hpid]
  · rw [if_neg himage]
    refine (List.map_congr_left fun v hv => ?_).trans (List.map_id' _) |>.symm
    by_cases hpid : v.pid = p.pid
    · rw [if_pos hpid, hself v hv hpid, if_neg himage]
    · rw [if_neg hpid]

theorem arrive_pipes (p : Process) :
    (m.arrive p).pipes = m.pipes ∧ (m.arrive p).nextPid = m.nextPid := by
  unfold arrive
  split <;> exact ⟨rfl, rfl⟩

/-- One process goes on and the others stay as they are. -/
theorem fares_of_map (hm : m.Numbered) (hp : p.standing ∈ m.standings) {pipes pipes' : Nat}
    {leads : Prop} {f : Standing → Standing}
    (hf : Turn pipes pipes' leads p.standing deeds (f p.standing)) :
    List.Forall₂ (Fares pipes pipes' leads p.standing deeds) m.standings
      (m.standings.map fun v => if v.pid = p.pid then f v else v) := by
  rw [List.forall₂_map_right_iff, List.forall₂_same]
  intro v hv
  by_cases hpid : v.pid = p.pid
  · rw [if_pos hpid]
    obtain rfl := hm.eq_of_pid hv hp hpid
    exact .self rfl hf
  · rw [if_neg hpid]
    exact .other hpid .same

theorem turned_of_map (hm : m.Numbered) (hp : p.standing ∈ m.standings) {f : Standing → Standing}
    (hf : Turn m.pipes.length m'.pipes.length (p.pid ∈ m.groups) p.standing deeds (f p.standing))
    (hstandings : m'.standings = m.standings.map fun v => if v.pid = p.pid then f v else v)
    (hpipes : m.pipes.length ≤ m'.pipes.length) (hnextPid : m'.nextPid = m.nextPid) :
    Turned m p.standing deeds m' :=
  .alone (hstandings ▸ fares_of_map hm hp hf) hpipes hnextPid

/-- A program comes to its end. -/
theorem finish_turned (hm : m.Numbered) (hp : m.process? p.pid = some p) {rest : Prog Nat}
    (hphase : p.phase = .running rest) {ending : Ending}
    (hturn : Turn m.pipes.length m.pipes.length (p.pid ∈ m.groups) p.standing []
      (p.standing.ended ending)) :
    Turned m p.standing [] (m.finish p.pid ending) := by
  have halive : p.alive = true := by rw [Process.alive, hphase]
  obtain ⟨hstandings, hpipes, hnextPid⟩ := standings_finish hp halive ending
  refine turned_of_map (f := fun v => v.ended ending) hm (mem_standings_of_process? hp).1 ?_
    hstandings (Nat.le_of_eq (by rw [hpipes])) hnextPid
  rw [hpipes]
  exact hturn

/-- The process that forks goes on, and the child is the last of all processes. -/
theorem fork_turned {next : Except Errno ForkSide → Prog Nat} (hm : m.Numbered)
    (hp : p.standing ∈ m.standings) (hphase : p.phase = .running (.call .fork next))
    {child : Process} (hborn : Born m.nextPid p.standing { child with pid := m.nextPid }.standing) :
    Turned m p.standing []
      ((m.addProcess child).resume p.pid (next (.ok (.parent m.nextPid)))) := by
  have hadd : (m.addProcess child).standings =
      m.standings ++ [{ child with pid := m.nextPid }.standing] := by
    simp [addProcess, standings]
  have hturn : Turn m.pipes.length m.pipes.length (p.pid ∈ m.groups) p.standing []
      (p.standing.resumed (next (.ok (.parent m.nextPid)))) := by
    have hcalled : Turn m.pipes.length m.pipes.length (p.pid ∈ m.groups) p.standing []
        { p.standing.put p.descriptors [] with
          phase := .running (next (.ok (.parent m.nextPid))) } :=
      .called (c := .fork) (d := p.descriptors) hphase ⟨rfl, rfl⟩ trivial
    have hput : p.standing.put p.descriptors [] = p.standing := Standing.put_self
    rw [hput] at hcalled
    simpa [Standing.resumed, Process.standing, hphase] using hcalled
  refine .fork hp hborn
    (fares_of_map (f := fun v => v.resumed (next (.ok (.parent m.nextPid)))) hm hp hturn) ?_
    (Nat.le_refl _) rfl
  rw [standings_resume, hadd, List.map_append, List.map_singleton, if_neg]
  exact (Int.ne_of_lt (hm.lt _ hp)).symm

/-- What it means that a program has been started. -/
theorem exec_eq_ok {path : Bytes} {words : List Bytes} {environment : Environment}
    (h : m.exec p path words environment = .ok m') :
    ∃ (image : Descriptors → Image) (rest : Prog Nat),
      m'.standings = (m.standings.map fun v =>
        if v.pid = p.pid then
          { v with
            descriptors := v.descriptors.kept
            image := some (image v.descriptors.kept)
            phase := .running rest }
        else v) ∧ m'.pipes = m.pipes ∧ m'.nextPid = m.nextPid := by
  obtain ⟨_, words', program, -, rfl⟩ := eq_of_exec h
  refine ⟨fun d => ⟨(Bytes.splitAt slash path).getLast?.getD [], words', d⟩,
    program words' environment, ?_, rfl, rfl⟩
  exact standings_update fun q => rfl

theorem exec_turned {path : Bytes} {words : List Bytes} {environment : Environment}
    {next : Errno → Prog Nat} (hm : m.Numbered) (hp : p.standing ∈ m.standings)
    (hphase : p.phase = .running (.call (.exec path words environment) next)) :
    Turned m p.standing
      (match (m.arrive p).exec p path words environment with
      | .ok _ => [.runs path words environment ⟨p.descriptors, p.opened⟩]
      | .error errno => [.barred path words environment errno])
      (match (m.arrive p).exec p path words environment with
      | .ok m => (true, m)
      | .error errno => (true, (m.arrive p).resume p.pid (next errno))).2 := by
  have harrive := standings_arrive hm hp
  obtain ⟨hpipes, hnextPid⟩ := @arrive_pipes m p
  cases hexec : (m.arrive p).exec p path words environment with
  | error errno =>
      -- arriving is noted before the program is looked for, so it stays when the call is refused
      refine turned_of_map (f := fun v => v.arrived.resumed (next errno)) hm hp ?_ ?_
        (Nat.le_of_eq (congrArg List.length hpipes.symm)) hnextPid
      · have hphase' : p.standing.arrived.phase =
            .running (.call (.exec path words environment) next) := by
          unfold Standing.arrived
          split <;> exact hphase
        have hrefused : ∀ pipes', Turn m.pipes.length pipes' (p.pid ∈ m.groups) p.standing
            [.barred path words environment errno]
            { p.standing.arrived with phase := .running (next errno) } :=
          fun _ => .refused errno hphase
        simpa [Standing.resumed, hphase'] using hrefused _
      · rw [standings_resume, harrive, List.map_map]
        refine List.map_congr_left fun v _ => ?_
        by_cases hpid : v.pid = p.pid
        · simp [hpid]
        · simp [hpid]
  | ok m'' =>
      obtain ⟨image, rest, hstandings, hpipes', hnextPid'⟩ := exec_eq_ok hexec
      refine turned_of_map (f := fun v =>
          { v.arrived with
            descriptors := v.descriptors.kept
            image := some (image v.descriptors.kept)
            phase := .running rest })
        hm hp (.executed _ rest hphase) ?_
        (Nat.le_of_eq (congrArg List.length (hpipes'.trans hpipes).symm)) (hnextPid'.trans hnextPid)
      rw [hstandings, harrive, List.map_map]
      refine List.map_congr_left fun v _ => ?_
      by_cases hpid : v.pid = p.pid
      · simp [hpid]
      · simp [hpid]

/-- A call that gets its reply, of which nothing can be noticed. -/
theorem reply_turned {c : Call} {next : c.Reply → Prog Nat} {reply : c.Reply} (hm : m.Numbered)
    (hp : p.standing ∈ m.standings) (hphase : p.phase = .running (.call c next))
    (hdeeds : c.deeds p.descriptors reply = [])
    (hgrants : c.Grants (p.pid ∈ m.groups) p.descriptors reply)
    (h : Answers m p c (.reply reply m')) :
    Turned m p.standing [] (m'.resume p.pid (next reply)) := by
  have hcalled : ∀ {pipes' : Nat} {d : Descriptors} {opened : List PathOpening},
      c.Affects m.pipes.length pipes' p.descriptors reply d opened →
        Turn m.pipes.length pipes' (p.pid ∈ m.groups) p.standing []
          ((p.standing.put d opened).resumed (next reply)) := by
    intro pipes' d opened haffects
    have hturn : Turn m.pipes.length pipes' (p.pid ∈ m.groups) p.standing
        (c.deeds p.descriptors reply) { p.standing.put d opened with phase := .running (next reply) } :=
      .called hphase haffects hgrants
    rw [hdeeds] at hturn
    simpa [Standing.resumed, Standing.put, Process.standing, hphase] using hturn
  -- the process is put elsewhere, and the others are what they were; or a signal that it has
  -- sent may have ended some of them, itself too
  rcases h with ⟨d, opened, haffects, hputs⟩ | ⟨haffects, hspares⟩
  · refine turned_of_map (f := fun v => (v.put d opened).resumed (next reply)) hm hp
      (hcalled haffects) ?_ hputs.pipes hputs.nextPid
    rw [standings_resume, hputs.standings, List.map_map]
    refine List.map_congr_left fun v _ => ?_
    by_cases hpid : v.pid = p.pid
    · simp [hpid, Standing.put]
    · simp [hpid]
  · refine .alone ?_ hspares.pipes hspares.nextPid
    rw [standings_resume, List.forall₂_map_right_iff]
    have hspared := (List.forall₂_and_left (p := (· ∈ m.standings)) _ _).2
      ⟨fun _ h => h, hspares.standings⟩
    refine hspared.imp fun v w h => ?_
    obtain ⟨hv, hvw⟩ := h
    by_cases hpid : v.pid = p.pid
    · rw [if_pos (hvw.pid_eq.trans hpid)]
      obtain rfl := hm.eq_of_pid hv hp hpid
      refine .self rfl ?_
      cases hvw with
      | same =>
          have hput : p.standing.put p.descriptors [] = p.standing := Standing.put_self
          have hturn := hcalled haffects
          rw [hput] at hturn
          exact hturn
      | killed signal hrunning => exact .killed signal hrunning
    · rw [if_neg (by rw [hvw.pid_eq]; exact hpid)]
      exact .other hpid hvw

theorem perform_turned {c : Call} {next : c.Reply → Prog Nat} (hm : m.Numbered)
    (hp : p.standing ∈ m.standings) (hphase : p.phase = .running (.call c next))
    (held : Descriptors) :
    Turned m p.standing ((m.perform held p c).deeds c p.descriptors)
      (match m.perform held p c with
      | .reply value m => (true, m.resume p.pid (next value))
      | .blocked m => (false, m)).2 := by
  have hanswers := @perform_answers m p hm held c
  cases houtcome : m.perform held p c with
  | blocked m' =>
      rw [houtcome] at hanswers
      exact Keeps.turned hanswers hm hp
  | reply reply m' =>
      rw [houtcome] at hanswers
      have hgrants := perform_grants houtcome
      by_cases hdeeds : c.deeds p.descriptors reply = []
      · rw [Outcome.deeds, hdeeds]
        exact reply_turned hm hp hphase hdeeds hgrants hanswers
      · -- what can be noticed of a call harms nobody, not even the process itself
        obtain ⟨hkeeps, haffects⟩ := keeps_of_deeds houtcome hdeeds
        refine turned_of_map (f := fun v => v.resumed (next reply)) hm hp ?_ ?_ hkeeps.pipes
          hkeeps.nextPid
        · have hput : p.standing.put p.descriptors [] = p.standing := Standing.put_self
          have hturn : Turn m.pipes.length m'.pipes.length (p.pid ∈ m.groups) p.standing
              (c.deeds p.descriptors reply)
              { p.standing.put p.descriptors [] with phase := .running (next reply) } :=
            .called hphase haffects hgrants
          rw [hput] at hturn
          simpa [Outcome.deeds, Standing.resumed, Process.standing, hphase] using hturn
        · rw [standings_resume, hkeeps.standings]

/-- **A process has its turn.** -/
theorem step_turned (hm : m.Numbered) (hp : m.process? p.pid = some p) (held : Descriptors) :
    Turned m p.standing (m.deeds held p) (m.step held p).2 := by
  have hmem := (mem_standings_of_process? hp).1
  unfold step deeds
  cases hphase : p.phase with
  | ended ending =>
      simp only [ite_self]
      exact (Keeps.refl m).turned hm hmem
  | running rest =>
      dsimp only
      by_cases hstopped : p.stopped = true
      · rw [if_pos hstopped, if_pos hstopped]
        exact (Keeps.refl m).turned hm hmem
      rw [if_neg hstopped, if_neg hstopped]
      cases rest with
      | done code => exact finish_turned hm hp hphase (.finished hphase)
      | call c next =>
          cases c with
          | fork => exact fork_turned hm hmem hphase ⟨next, hphase, rfl⟩
          | exec path words environment => exact exec_turned hm hmem hphase
          | exit code => exact finish_turned hm hp hphase (.exited hphase)
          | _ => exact perform_turned hm hmem hphase held

/-- **A call of a process is a step of the standings**, and without a reply it is none. -/
theorem step_advances (hm : m.Numbered) (hp : m.process? p.pid = some p) (held : Descriptors) :
    Advances launching m (m.step held p).2 :=
  (step_turned hm hp held).advances

/-! ### Everything that happens -/

/-- Steps of the standings, of which there may be none. -/
abbrev AdvancesMany (launching : Assignment → Prop) : Machine → Machine → Prop :=
  Relation.ReflTransGen (Advances launching)

theorem AdvancesMany.numbered (h : AdvancesMany launching m m') (hm : m.Numbered) :
    m'.Numbered := by
  induction h with
  | refl => exact hm
  | tail _ hstep ih => exact hstep.numbered ih

theorem AdvancesMany.pipes_le (h : AdvancesMany launching m m') :
    m.pipes.length ≤ m'.pipes.length := by
  induction h with
  | refl => exact Nat.le_refl _
  | tail _ hstep ih => exact Nat.le_trans ih hstep.pipes_le

theorem AdvancesMany.nextPid_le (h : AdvancesMany launching m m') : m.nextPid ≤ m'.nextPid := by
  induction h with
  | refl => exact Int.le_refl _
  | tail _ hstep ih => exact Int.le_trans ih hstep.nextPid_le

theorem stepFirst_advances (hm : m.Numbered) (held : Descriptors) (pids : List Int) :
    AdvancesMany launching m (m.stepFirst held pids).2 := by
  induction pids generalizing m with
  | nil => exact .refl
  | cons pid pids ih =>
      unfold stepFirst
      cases hprocess : m.process? pid with
      | none => exact ih hm
      | some p =>
          obtain rfl : p.pid = pid := (mem_standings_of_process? hprocess).2
          have hstep : Advances launching m (m.step held p).2 := step_advances hm hprocess held
          dsimp only
          rcases hresult : m.step held p with ⟨_ | _, m'⟩
          · rw [hresult] at hstep
            exact (ih (hstep.numbered hm)).head hstep
          · rw [hresult] at hstep
            exact Relation.ReflTransGen.single hstep

theorem turnOnce_advances (hm : m.Numbered) {held : Descriptors} (h : m.turnOnce held = some m') :
    AdvancesMany launching m m' := by
  unfold turnOnce at h
  have hcounted : Advances launching m { m with turns := m.turns + 1 } :=
    Keeps.advances ⟨rfl, Nat.le_refl _, rfl⟩
  have hfirst : AdvancesMany launching m
      ({ m with turns := m.turns + 1 }.stepFirst held m.candidates).2 :=
    (stepFirst_advances (hcounted.numbered hm) held _).head hcounted
  rcases hresult : { m with turns := m.turns + 1 }.stepFirst held m.candidates with ⟨_ | _, m''⟩
  · rw [hresult] at h hfirst
    obtain ⟨time, -, rfl⟩ := Option.map_eq_some_iff.1 h
    exact hfirst.tail (Keeps.advances ⟨rfl, Nat.le_refl _, rfl⟩)
  · rw [hresult] at h hfirst
    obtain rfl : m'' = m' := by simpa using h
    exact hfirst

theorem keeps_shellWrite (file : OpenFile) (bytes : Bytes) : Keeps m (m.shellWrite file bytes) := by
  unfold shellWrite
  split
  · exact ⟨rfl, Nat.le_refl _, rfl⟩
  · exact ⟨rfl, Nat.le_refl _, rfl⟩
  · exact keeps_setPipe _ _
  · split
    · exact keeps_writeOpening _ _ bytes
    · exact .refl m
  · exact .refl m

theorem start_advances {a : Assignment} (ha : launching a) :
    Advances launching m (m.start m.nextPid a) := by
  refine @Advances.start _ _ _ a m.environment ha ?_ (Nat.le_refl _) ?_
  · simp [start, standings, shellChild, Process.standing, Standing.launched]
  · simp [start]

theorem Happens.mono {launching' : Assignment → Prop} (h : Happens launching m m')
    (hle : ∀ a, launching a → launching' a) : Happens launching' m m' := by
  cases h with
  | turn hturn => exact .turn hturn
  | tell deaths => exact .tell deaths
  | pipe => exact .pipe
  | write file bytes => exact .write file bytes
  | kill hsend => exact .kill hsend
  | start ha => exact .start (hle _ ha)

/-- **Everything that happens is made of steps of the standings.** -/
theorem Happens.advances (h : Happens launching m m') (hm : m.Numbered) :
    AdvancesMany launching m m' := by
  cases h with
  | turn hturn => exact turnOnce_advances hm hturn
  | tell deaths => exact .single (Keeps.advances ⟨rfl, Nat.le_refl _, rfl⟩)
  | pipe => exact .single keeps_addPipe.advances
  | write file bytes => exact .single (keeps_shellWrite file bytes).advances
  | kill hsend => exact .single (spares_send hm hsend).advances
  | start ha => exact .single (start_advances ha)

end Machine

end JobShell
