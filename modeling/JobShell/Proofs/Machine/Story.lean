/-
**What has happened on the machine, act by act.**

Whatever happens on the machine is made of acts: a process has its turn, the clock goes on, or the
shell asks for something.  A story is a run of the machine with what is done in it, and by whom.  The
diagnostics of the shell hold what has been told in the story, in order, and nothing else.

Main definitions:

* `JobShell.Machine.Act`, `JobShell.Machine.Story` — one act, and acts one after another;
* `JobShell.deedsOf` — what one process has done;
* `JobShell.Machine.Grouped` — no id is given twice, and no group is there before its leader.

Main results:

* `JobShell.Machine.runFor_story`, `JobShell.Machine.runUntilDeath_story` — turns are stories;
* `JobShell.Machine.Story.diagnostics` — the diagnostics of the shell hold what has been told;
* `JobShell.Machine.Act.cases_of` — what an act means for one process;
* `JobShell.Machine.Story.hasEnded` — whoever has ended stays so.
-/

import JobShell.Proofs.Machine.Custody
import JobShell.Proofs.Machine.Groups
import JobShell.Proofs.Machine.Hosting

set_option autoImplicit false

namespace JobShell

/-- What one process has done. -/
def deedsOf (pid : Int) (deeds : List (Int × Machine.Deed)) : List Machine.Deed :=
  (deeds.filter (·.1 = pid)).map (·.2)

section

variable {pid : Int} {deeds more : List (Int × Machine.Deed)}

@[simp] theorem deedsOf_nil : deedsOf pid [] = [] := rfl

@[simp] theorem deedsOf_append :
    deedsOf pid (deeds ++ more) = deedsOf pid deeds ++ deedsOf pid more := by
  simp [deedsOf]

theorem deedsOf_self (done : List Machine.Deed) :
    deedsOf pid (done.map fun deed => (pid, deed)) = done := by
  simp [deedsOf, List.filter_map, Function.comp_def]

/-- Who is not named has done nothing. -/
theorem deedsOf_eq_nil (h : ∀ deed ∈ deeds, deed.1 ≠ pid) : deedsOf pid deeds = [] := by
  rw [deedsOf, List.filter_eq_nil_iff.2 fun deed hdeed => by simpa using h deed hdeed, List.map_nil]

end

namespace Machine

open Standing (Turn Spared)

/-- One act on the machine, with what is done in it. -/
inductive Act (m : Machine) : List (Int × Deed) → Machine → Prop where
  /-- A process has its turn. -/
  | turn {p : Process} (held : Descriptors) : m.process? p.pid = some p →
      Act m ((m.deeds held p).map fun deed => (p.pid, deed)) (m.step held p).2
  /-- Time goes on, and the shell's kernel is told of deaths. -/
  | pass (turns clock : Nat) {deaths : List (Int × Ending)} : (∀ d ∈ deaths, d ∈ m.deaths) →
      Act m [] { m with turns := turns, clock := clock, deaths := deaths }
  | pipe : Act m [] m.addPipe.2
  /-- The shell writes. -/
  | write (file : OpenFile) (bytes : Bytes) :
      Act m (if file = .diagnostics then [(m.shellPid, .tells bytes)] else [])
        (m.shellWrite file bytes)
  | kill {pid : Int} {signal : Nat} {self : Bool} {m' : Machine} :
      m.send m.shellPid m.shellPid pid signal = .ok (self, m') → Act m [] m'
  | start (a : Assignment) : Act m [] (m.start m.nextPid a)

/-- **A story**: acts one after another, with what has been done in them. -/
inductive Story (m : Machine) : List (Int × Deed) → Machine → Prop where
  | nil : Story m [] m
  | snoc {deeds more : List (Int × Deed)} {m' m'' : Machine} :
      Story m deeds m' → Act m' more m'' → Story m (deeds ++ more) m''

variable {launching : Assignment → Prop} {m m' m'' : Machine} {deeds more : List (Int × Deed)}
  {v : Standing}

theorem Act.story (h : Act m deeds m') : Story m deeds m' := .snoc .nil h

theorem Story.trans (h : Story m deeds m') (h' : Story m' more m'') :
    Story m (deeds ++ more) m'' := by
  induction h' with
  | nil => rwa [List.append_nil]
  | snoc _ hact ih =>
      rw [← List.append_assoc]
      exact .snoc ih hact

/-! ### Turns are stories -/

theorem stepFirst_story (held : Descriptors) (pids : List Int) :
    ∃ deeds, Story m deeds (m.stepFirst held pids).2 := by
  induction pids generalizing m with
  | nil => exact ⟨[], .nil⟩
  | cons pid pids ih =>
      unfold stepFirst
      cases hprocess : m.process? pid with
      | none => exact ih
      | some p =>
          obtain rfl : p.pid = pid := (mem_standings_of_process? hprocess).2
          have hact := Act.turn held hprocess
          dsimp only
          rcases hresult : m.step held p with ⟨_ | _, m'⟩
          · rw [hresult] at hact
            obtain ⟨deeds, hstory⟩ := @ih m'
            exact ⟨_, hact.story.trans hstory⟩
          · rw [hresult] at hact
            exact ⟨_, hact.story⟩

theorem turnOnce_story {held : Descriptors} (h : m.turnOnce held = some m') :
    ∃ deeds, Story m deeds m' := by
  unfold turnOnce at h
  have hcounted : Act m [] { m with turns := m.turns + 1 } := .pass _ m.clock fun _ => id
  obtain ⟨deeds, hfirst⟩ :=
    @stepFirst_story { m with turns := m.turns + 1 } held m.candidates
  rcases hresult : { m with turns := m.turns + 1 }.stepFirst held m.candidates with ⟨_ | _, m''⟩
  · rw [hresult] at h hfirst
    obtain ⟨time, -, rfl⟩ := Option.map_eq_some_iff.1 h
    exact ⟨_, .snoc (hcounted.story.trans hfirst) (.pass m''.turns (max m''.clock time) fun _ => id)⟩
  · rw [hresult] at h hfirst
    obtain rfl : m'' = m' := by simpa using h
    exact ⟨_, hcounted.story.trans hfirst⟩

theorem runFor_story (held : Descriptors) (n : Nat) : ∃ deeds, Story m deeds (m.runFor held n) := by
  induction n generalizing m with
  | zero => exact ⟨[], .nil⟩
  | succ n ih =>
      unfold runFor
      cases hturn : m.turnOnce held with
      | none => exact ⟨[], .nil⟩
      | some m' =>
          obtain ⟨deeds, hfirst⟩ := turnOnce_story hturn
          obtain ⟨more, hrest⟩ := @ih m'
          exact ⟨_, hfirst.trans hrest⟩

/-- Turns until the shell's kernel has a death to be told of. -/
theorem runUntilDeath_story {held : Descriptors} {n : Nat} {death : Int × Ending}
    (h : m.runUntilDeath held n = .ok (death, m')) :
    ∃ deeds m₁, Story m deeds m₁ ∧ death ∈ m₁.deaths ∧ Act m₁ [] m' ∧
      m'.standings = m₁.standings := by
  -- turns come first, and the last act is that the kernel is told
  induction n generalizing m with
  | zero => cases h
  | succ n ih =>
      unfold runUntilDeath at h
      cases hkilled : m.shellKilled with
      | some signal => simp [hkilled] at h
      | none =>
          cases hdeaths : m.deaths with
          | cons first rest =>
              have hpass : Act m [] { m with deaths := rest } :=
                .pass m.turns m.clock fun d hd => hdeaths ▸ List.mem_cons_of_mem _ hd
              rw [hkilled] at hpass
              rw [hkilled, hdeaths] at h
              cases h
              exact ⟨[], m, .nil, by simp [hdeaths], hpass, rfl⟩
          | nil =>
              rw [hkilled, hdeaths] at h
              dsimp only at h
              cases hturn : m.turnOnce held with
              | none => simp [hturn] at h
              | some m'' =>
                  rw [hturn] at h
                  obtain ⟨deeds, hfirst⟩ := turnOnce_story hturn
                  obtain ⟨more, m₁, hrest, hlast⟩ := ih h
                  exact ⟨_, m₁, hfirst.trans hrest, hlast⟩

/-- Turns after which there is no death to be told of. -/
theorem runUntilDeath_spent {held : Descriptors} {n : Nat} {loss : Loss}
    (h : m.runUntilDeath held n = .error (loss, m')) : ∃ deeds, Story m deeds m' := by
  induction n generalizing m with
  | zero =>
      cases h
      exact ⟨[], .nil⟩
  | succ n ih =>
      unfold runUntilDeath at h
      cases hkilled : m.shellKilled with
      | some signal =>
          simp only [hkilled] at h
          cases h
          exact ⟨[], .nil⟩
      | none =>
          cases hdeaths : m.deaths with
          | cons first rest => simp [hkilled, hdeaths] at h
          | nil =>
              cases hturn : m.turnOnce held with
              | none =>
                  simp only [hkilled, hdeaths, hturn] at h
                  cases h
                  exact ⟨[], .nil⟩
              | some m'' =>
                  simp only [hkilled, hdeaths, hturn] at h
                  obtain ⟨deeds, hfirst⟩ := turnOnce_story hturn
                  obtain ⟨more, hrest⟩ := ih h
                  exact ⟨_, hfirst.trans hrest⟩

/-! ### A machine in order -/

/-- No id is given twice, the shell has one of its own, no group is there before its leader, and the
shell's kernel is told of nobody who has not ended. -/
structure Grouped (m : Machine) : Prop extends m.Honest where
  shell : m.shellPid < m.nextPid
  apart : ∀ v ∈ m.standings, v.pid ≠ m.shellPid
  groups : ∀ g ∈ m.groups, g < m.nextPid

/-- A machine without processes. -/
theorem Grouped.of_nil {m : Machine} (hprocesses : m.processes = []) (hdeaths : m.deaths = [])
    (hshell : m.shellPid < m.nextPid) : m.Grouped := by
  have hstandings : m.standings = [] := by rw [standings, hprocesses, List.map_nil]
  have hgroups : m.groups = [] := by rw [Machine.groups, hprocesses, List.map_nil]
  refine ⟨⟨⟨?_, ?_⟩, ?_⟩, hshell, ?_, ?_⟩
  · rw [hstandings]
    exact List.nodup_nil
  · simp [hstandings]
  · simp [hdeaths]
  · simp [hstandings]
  · simp [hgroups]

/-- What an act leaves of the groups and the diagnostics. -/
structure Moved (m : Machine) (deeds : List (Int × Deed)) (m' : Machine) : Prop where
  diagnostics : m'.diagnostics = m.diagnostics ++ deeds.flatMap (·.2.text)
  groups : ∀ g ∈ m'.groups, g < m.nextPid ∨ g = m.shellPid
  shellPid : m'.shellPid = m.shellPid
  environment : m'.environment = m.environment
  honest : m'.Honest

theorem Calm.moved (h : Calm m m') (hm : m.Grouped) : Moved m [] m' :=
  ⟨by simp [h.diagnostics], fun g hg => .inl (hm.groups g (h.groups ▸ hg)), h.shellPid,
    h.environment, h.honest hm.toHonest⟩

theorem Act.advances (h : Act m deeds m') (hm : m.Numbered) : Advances (fun _ => True) m m' := by
  cases h with
  | turn held hp => exact step_advances hm hp held
  | pass => exact Keeps.advances ⟨rfl, Nat.le_refl _, rfl⟩
  | pipe => exact keeps_addPipe.advances
  | write file bytes => exact (keeps_shellWrite file bytes).advances
  | kill hsend => exact (spares_send hm hsend).advances
  | start a => exact start_advances trivial

theorem groups_shellWrite (file : OpenFile) (bytes : Bytes) :
    (m.shellWrite file bytes).groups = m.groups := by
  unfold shellWrite
  split
  · rfl
  · rfl
  · rfl
  · split
    · exact (calm_writeOpening _ _ bytes).groups
    · rfl
  · rfl

/-- What the shell writes changes no more than its diagnostics. -/
theorem shellWrite_moved (hm : m.Grouped) (file : OpenFile) (bytes : Bytes) :
    Moved m (if file = .diagnostics then [(m.shellPid, .tells bytes)] else [])
      (m.shellWrite file bytes) := by
  cases file with
  | diagnostics =>
      refine ⟨by simp [shellWrite, Deed.text], fun g hg => .inl (hm.groups g hg), rfl, rfl, ?_⟩
      exact hm.toHonest.of_standings rfl rfl fun _ => id
  | opened number =>
      refine Calm.moved ?_ hm
      unfold shellWrite
      dsimp only
      split
      · exact calm_writeOpening _ _ bytes
      · exact .refl m
  | _ => exact Calm.moved (.of_processes rfl rfl rfl rfl rfl rfl) hm

theorem mem_groups_start {a : Assignment} {g : Int} (hg : g ∈ (m.start m.nextPid a).groups) :
    g ∈ m.groups ∨ g = m.shellPid := by
  rw [groups, start, List.map_append, List.mem_append] at hg
  exact hg.imp_right List.mem_singleton.1

theorem start_moved (hm : m.Grouped) (a : Assignment) : Moved m [] (m.start m.nextPid a) := by
  refine ⟨by simp [Machine.start], fun g hg => ?_, rfl, rfl, ?_⟩
  · exact (mem_groups_start hg).imp_left (hm.groups g)
  · exact hm.toHonest.add (v := (m.shellChild m.nextPid a).standing) rfl
      (by simp [Machine.start, standings]) (by simp [Machine.start]) rfl

/-- **What an act tells**, and which groups there are afterwards. -/
theorem Act.moved (h : Act m deeds m') (hm : m.Grouped) : Moved m deeds m' := by
  cases h with
  | @turn p held hp =>
      obtain ⟨hmem, -⟩ := mem_standings_of_process? hp
      have hstirs := step_stirs (List.mem_of_find?_eq_some hp) held
      refine ⟨?_, fun g hg => ?_, hstirs.shellPid, hstirs.environment, hstirs.honest hm.toHonest⟩
      · rw [hstirs.diagnostics, List.flatMap_map]
      · rcases hstirs.groups g hg with hg | rfl
        · exact .inl (hm.groups g hg)
        · exact .inl (hm.numbered.lt _ hmem)
  | pass turns clock hdeaths =>
      refine ⟨by simp, fun g hg => .inl (hm.groups g hg), rfl, rfl, ?_⟩
      exact hm.toHonest.of_standings rfl rfl hdeaths
  | pipe => exact Calm.moved (.of_processes rfl rfl rfl rfl rfl rfl) hm
  | write file bytes => exact shellWrite_moved hm file bytes
  | kill hsend => exact (calm_send hsend).moved hm
  | start a => exact start_moved hm a

/-- **A machine in order stays in order.** -/
theorem Act.grouped (h : Act m deeds m') (hm : m.Grouped) : m'.Grouped := by
  have hadvances := h.advances hm.numbered
  have hmoved := h.moved hm
  have hle := hadvances.nextPid_le
  refine ⟨hmoved.honest, ?_, fun w hw => ?_, fun g hg => ?_⟩
  · rw [hmoved.shellPid]
    exact Int.lt_of_lt_of_le hm.shell hle
  · rw [hmoved.shellPid]
    rcases hadvances.past hw with ⟨u, hu, hnext⟩ | ⟨u, -, next, -, rfl⟩ | ⟨a, environment, -, rfl⟩
    · exact hnext.pid_eq ▸ hm.apart u hu
    · exact (Int.ne_of_lt hm.shell).symm
    · exact (Int.ne_of_lt hm.shell).symm
  · rcases hmoved.groups g hg with hlt | rfl
    · exact Int.lt_of_lt_of_le hlt hle
    · exact Int.lt_of_lt_of_le hm.shell hle

/-- Only processes that there are, and the shell, do something. -/
theorem Act.doer_lt (h : Act m deeds m') (hm : m.Grouped) : ∀ deed ∈ deeds, deed.1 < m.nextPid := by
  intro deed hdeed
  cases h with
  | turn held hp =>
      obtain ⟨done, -, rfl⟩ := List.mem_map.1 hdeed
      exact hm.numbered.lt _ (mem_standings_of_process? hp).1
  | write file bytes =>
      split at hdeed
      · obtain rfl := List.mem_singleton.1 hdeed
        exact hm.shell
      · cases hdeed
  | _ => cases hdeed

theorem Story.grouped (h : Story m deeds m') (hm : m.Grouped) : m'.Grouped := by
  induction h with
  | nil => exact hm
  | snoc _ hact ih => exact hact.grouped ih

/-- **What every act keeps is kept by a story.** -/
theorem Story.keeps {I : Machine → Prop} (h : Story m deeds m') (hm : m.Grouped)
    (hact : ∀ m m' deeds, m.Grouped → Act m deeds m' → I m → I m') (hI : I m) : I m' := by
  induction h with
  | nil => exact hI
  | snoc hstory hlast ih => exact hact _ _ _ (hstory.grouped hm) hlast ih

theorem Story.nextPid_le (h : Story m deeds m') (hm : m.Grouped) : m.nextPid ≤ m'.nextPid :=
  Story.keeps (I := fun t => m.nextPid ≤ t.nextPid) h hm
    (fun _ _ _ ht hact hle => Int.le_trans hle (hact.advances ht.numbered).nextPid_le)
    (Int.le_refl _)

theorem Story.pipes_le (h : Story m deeds m') (hm : m.Grouped) :
    m.pipes.length ≤ m'.pipes.length :=
  Story.keeps (I := fun t => m.pipes.length ≤ t.pipes.length) h hm
    (fun _ _ _ ht hact hle => Nat.le_trans hle (hact.advances ht.numbered).pipes_le)
    (Nat.le_refl _)

theorem Story.environment (h : Story m deeds m') (hm : m.Grouped) :
    m'.environment = m.environment :=
  Story.keeps (I := fun t => t.environment = m.environment) h hm
    (fun _ _ _ ht hact heq => (hact.moved ht).environment.trans heq) rfl

theorem Story.doer_lt (h : Story m deeds m') (hm : m.Grouped) :
    ∀ deed ∈ deeds, deed.1 < m'.nextPid := by
  induction h with
  | nil => simp
  | snoc hstory hact ih =>
      have hm' := hstory.grouped hm
      have hle := (hact.advances hm'.numbered).nextPid_le
      intro deed hdeed
      rcases List.mem_append.1 hdeed with hdeed | hdeed
      · exact Int.lt_of_lt_of_le (ih deed hdeed) hle
      · exact Int.lt_of_lt_of_le (hact.doer_lt hm' deed hdeed) hle

/-- Who is not there yet has done nothing. -/
theorem Story.deedsOf_of_le (h : Story m deeds m') (hm : m.Grouped) {pid : Int}
    (hpid : m'.nextPid ≤ pid) : deedsOf pid (deeds ++ more) = deedsOf pid more := by
  rw [deedsOf_append, deedsOf_eq_nil, List.nil_append]
  intro deed hdeed heq
  have hlt := h.doer_lt hm deed hdeed
  omega

/-- **The diagnostics of the shell hold what has been told**, in order. -/
theorem Story.diagnostics (h : Story m deeds m') (hm : m.Grouped) :
    m'.diagnostics = m.diagnostics ++ deeds.flatMap (·.2.text) := by
  induction h with
  | nil => simp
  | snoc hstory hact ih =>
      rw [(hact.moved (hstory.grouped hm)).diagnostics, ih, List.flatMap_append, List.append_assoc]

/-! ### One process -/

/-- A spared process is still there. -/
theorem Spares.exists_spared (h : Spares m m') (hv : v ∈ m.standings) :
    ∃ w ∈ m'.standings, Spared v w := by
  obtain ⟨i, hi, rfl⟩ := List.getElem_of_mem hv
  have hi' : i < m'.standings.length := h.standings.length_eq ▸ hi
  exact ⟨m'.standings[i], List.getElem_mem _, h.standings.get hi hi'⟩

/-- What becomes of a process when one has its turn. -/
theorem Turned.exists_fares {p : Standing} {done : List Deed} (h : Turned m p done m')
    (hv : v ∈ m.standings) :
    ∃ w ∈ m'.standings,
      Fares m.pipes.length m'.pipes.length (p.pid ∈ m.groups) p done v w := by
  have hold : ∀ {l : List Standing},
      List.Forall₂ (Fares m.pipes.length m'.pipes.length (p.pid ∈ m.groups) p done) m.standings l →
        ∃ w ∈ l, Fares m.pipes.length m'.pipes.length (p.pid ∈ m.groups) p done v w := by
    intro l hl
    obtain ⟨i, hi, rfl⟩ := List.getElem_of_mem hv
    have hi' : i < l.length := hl.length_eq ▸ hi
    exact ⟨l[i], List.getElem_mem _, hl.get hi hi'⟩
  cases h with
  | alone hfares => exact hold hfares
  | fork _ _ hfares hstandings =>
      obtain ⟨w, hw, hvw⟩ := hold hfares
      exact ⟨w, hstandings ▸ List.mem_append_left _ hw, hvw⟩

/-- A process has its turn. -/
theorem exists_turn {p : Process} (hm : m.Numbered) (hp : m.process? p.pid = some p)
    (held : Descriptors) : ∃ w ∈ (m.step held p).2.standings, Turn m.pipes.length
      (m.step held p).2.pipes.length (p.pid ∈ m.groups) p.standing (m.deeds held p) w := by
  have hv := (mem_standings_of_process? hp).1
  obtain ⟨w, hw, ⟨-, hturn⟩ | ⟨hne, -⟩⟩ := (step_turned hm hp held).exists_fares hv
  · exact ⟨w, hw, hturn⟩
  · exact absurd rfl hne

/-- **What an act means for one process**: it has its turn, or it does nothing, is spared, and does
not come to lead a group. -/
theorem Act.cases_of (h : Act m deeds m') (hm : m.Grouped) (hv : v ∈ m.standings) :
    (∃ p held, m.process? p.pid = some p ∧ p.standing = v ∧ m' = (m.step held p).2 ∧
      deedsOf v.pid deeds = m.deeds held p) ∨
    deedsOf v.pid deeds = [] ∧ (∃ w ∈ m'.standings, Spared v w) ∧
      (v.pid ∉ m.groups → v.pid ∉ m'.groups) := by
  -- what is done beside the processes spares all of them
  have hkept : ∀ {m' : Machine}, Keeps m m' → ∃ w ∈ m'.standings, Spared v w :=
    fun hkeeps => hkeeps.spares.exists_spared hv
  cases h with
  | @turn p held hp =>
      obtain ⟨hmem, -⟩ := mem_standings_of_process? hp
      -- the turn is its own or that of another one, which cannot put it into a group
      by_cases hpid : v.pid = p.pid
      · obtain rfl := hm.numbered.eq_of_pid hv hmem hpid
        exact .inl ⟨p, held, hp, rfl, rfl, deedsOf_self _⟩
      · refine .inr ⟨deedsOf_eq_nil fun deed hdeed => ?_, ?_, fun hleads hmem' => ?_⟩
        · obtain ⟨done, -, rfl⟩ := List.mem_map.1 hdeed
          exact Ne.symm hpid
        · obtain ⟨w, hw, hself | ⟨-, hspared⟩⟩ :=
            (step_turned hm.numbered hp held).exists_fares hv
          · exact absurd (congrArg Standing.pid hself) hpid
          · exact ⟨w, hw, hspared⟩
        · rcases (step_stirs (List.mem_of_find?_eq_some hp) held).groups _ hmem' with hg | hg
          · exact hleads hg
          · exact hpid hg
  | pass => exact .inr ⟨rfl, hkept ⟨rfl, Nat.le_refl _, rfl⟩, id⟩
  | pipe => exact .inr ⟨rfl, hkept keeps_addPipe, id⟩
  | write file bytes =>
      -- what the shell writes is its own deed, and it is no process of the machine
      refine .inr ⟨deedsOf_eq_nil fun deed hdeed => ?_, hkept (keeps_shellWrite file bytes), ?_⟩
      · split at hdeed
        · obtain rfl := List.mem_singleton.1 hdeed
          exact (hm.apart v hv).symm
        · cases hdeed
      · rw [groups_shellWrite]
        exact id
  | kill hsend =>
      exact .inr ⟨rfl, (spares_send hm.numbered hsend).exists_spared hv,
        fun hleads hmem => hleads ((calm_send hsend).groups ▸ hmem)⟩
  | start a =>
      refine .inr ⟨rfl, ⟨v, mem_standings_start.2 (.inl hv), .same⟩, fun hleads hmem => ?_⟩
      exact (mem_groups_start hmem).elim hleads (hm.apart v hv)

/-! ### Who has ended -/

theorem Turn.of_ended {pipes pipes' : Nat} {leads : Prop} {w : Standing} {done : List Deed}
    {ending : Ending} (h : Turn pipes pipes' leads v done w) (hv : v.phase = .ended ending) :
    w = v := by
  cases h with
  | waits => rfl
  | killed _ hphase | finished hphase | exited hphase | called hphase | executed _ _ hphase
  | refused _ hphase =>
      rw [hv] at hphase
      cases hphase

theorem Spared.of_ended {w : Standing} {ending : Ending} (h : Spared v w)
    (hv : v.phase = .ended ending) : w = v := by
  cases h with
  | same => rfl
  | killed _ hphase =>
      rw [hv] at hphase
      cases hphase

/-- **Who has ended stays so.** -/
theorem Act.hasEnded (h : Act m deeds m') (hm : m.Grouped) {pid : Int} {ending : Ending}
    (hended : m.HasEnded pid ending) : m'.HasEnded pid ending := by
  obtain ⟨v, hv, rfl, hphase⟩ := hended
  rcases h.cases_of hm hv with ⟨p, held, hp, rfl, rfl, -⟩ | ⟨-, ⟨w, hw, hspared⟩, -⟩
  · obtain ⟨w, hw, hturn⟩ := exists_turn hm.numbered hp held
    obtain rfl := Turn.of_ended hturn hphase
    exact ⟨_, hw, rfl, hphase⟩
  · obtain rfl := Spared.of_ended hspared hphase
    exact ⟨w, hw, rfl, hphase⟩

theorem Story.hasEnded (h : Story m deeds m') (hm : m.Grouped) {pid : Int} {ending : Ending}
    (hended : m.HasEnded pid ending) : m'.HasEnded pid ending :=
  Story.keeps (I := fun t => t.HasEnded pid ending) h hm
    (fun _ _ _ ht hact hended => hact.hasEnded ht hended) hended

end Machine

end JobShell
