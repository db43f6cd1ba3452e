/-
**What the shell is told of deaths is true.**

When the machine is the host of the shell, all that its supervisor does is a story of the machine:
processes have their turns, and the shell asks for something.  If the journal of the supervisor says
that a child has died, then its process has ended, in the same way.

Main definitions:

* `JobShell.Event.TrueOn` — an event that speaks of the death of nobody who has not ended.

Main results:

* `JobShell.Supervisor.Moves.story`, `JobShell.Supervisor.Moves.attests` — one move;
* `JobShell.Supervisor.Comes.story` — a computation of the shell;
* `JobShell.Supervisor.Reaches.attests` — **what the journal says of deaths is true.**
-/

import JobShell.Proofs.Machine.Story
import JobShell.Proofs.Pipeline.Forks

set_option autoImplicit false

namespace JobShell

open Machine (Story)

/-- An event that speaks of the death of nobody who has not ended. -/
def Event.TrueOn (m : Machine) : Event → Prop
  | .died pid ending => m.HasEnded pid ending
  | _ => True

/-! ### Deaths in a journal -/

/-- Every fork begins one life, with its process id. -/
theorem lives_pids (journal : List Event) :
    (lives journal).map (·.pid) = Supervisor.forkedPids journal := by
  induction journal using List.reverseRecOn with
  | nil => rfl
  | append_singleton journal e ih =>
      rw [lives_append, Supervisor.forkedPids_append, ← ih]
      cases e <;>
        simp [Event.enter, Supervisor.forkedPids, List.map_map, Function.comp_def]

/-- Whoever has ended has died. -/
theorem died_of_ending {journal : List Event} {l : Life} {ending : Ending}
    (hl : l ∈ lives journal) (hending : l.ending = some ending) : .died l.pid ending ∈ journal := by
  -- only a death gives a life its ending, and what comes later leaves it
  induction journal using List.reverseRecOn generalizing l with
  | nil => cases hl
  | append_singleton journal e ih =>
      rw [lives_append] at hl
      have hold : ∀ l' ∈ lives journal, l'.ending = some ending → l'.pid = l.pid →
          Event.died l.pid ending ∈ journal ++ [e] :=
        fun l' hl' hending' hpid => hpid ▸ List.mem_append_left _ (ih hl' hending')
      cases e with
      | forked pid jobClass =>
          rcases List.mem_append.1 hl with hl | hl
          · exact hold l hl hending rfl
          · obtain rfl := List.mem_singleton.1 hl
            cases hending
      | died pid ending' =>
          obtain ⟨l', hl', rfl⟩ := List.mem_map.1 hl
          by_cases hdies : l'.pid = pid ∧ l'.ending = none
          · rw [Life.die, if_pos hdies] at hending ⊢
            obtain rfl := Option.some.inj hending
            exact List.mem_append_right _ (by simp [hdies.1])
          · rw [Life.die, if_neg hdies] at hending
            exact hold l' hl' hending (by rw [Life.die_pid])
      | reaped status _ =>
          obtain ⟨l', hl', rfl⟩ := List.mem_map.1 hl
          rw [Life.reap_ending] at hending
          exact hold l' hl' hending (by rw [Life.reap_pid])
      | undecodable pid _ =>
          obtain ⟨l', hl', rfl⟩ := List.mem_map.1 hl
          rw [Life.reap_ending] at hending
          exact hold l' hl' hending (by rw [Life.reap_pid])
      | _ => exact hold l hl hending rfl

namespace Supervisor

variable {launching : Assignment → Prop} {s t u : Supervisor Machine}

/-! ### Stories of the supervisor -/

theorem drifted_story (held : Descriptors) (s : Supervisor Machine) :
    ∃ deeds, Story s.host deeds (s.drifted held).host := by
  obtain ⟨deeds, hstory⟩ := Machine.runFor_story (m := s.host) held (s.host.pace s.host.turns)
  rw [drifted_host]
  exact ⟨_, hstory.snoc (.pass _ _ fun _ => nofun)⟩

theorem forked_story (hs : s.Registered) (a : Assignment) : Story s.host [] (s.forked a).host :=
  hs.forked_host a ▸ (Machine.Act.start a).story

/-- The machine has run, and a death that it tells of has been noted. -/
theorem buried_story {held : Descriptors} {death : Int × Ending} {host : Machine}
    (hawait : Host.await held s.host = .ok (death, host)) :
    ∃ deeds, Story s.host deeds (bury death { s with host := host }).host := by
  obtain ⟨deeds, m₁, hstory, -, hact, -⟩ := Machine.runUntilDeath_story hawait
  rw [bury_host]
  exact ⟨_, hstory.snoc hact⟩

/-- **A move of the supervisor is a story.** -/
theorem Moves.story (h : Moves launching s t) (hs : s.Registered) :
    ∃ deeds, Story s.host deeds t.host := by
  cases h with
  | drift held => exact drifted_story held s
  | pipe => exact ⟨_, Machine.Act.pipe.story⟩
  | write file text => exact ⟨_, (Machine.Act.write file text).story⟩
  | kill hkill => exact ⟨_, (Machine.Act.kill hkill).story⟩
  | signal | builtin | wait | reap => exact ⟨[], .nil⟩
  | @launch a jobs _ _ => exact ⟨[], forked_story hs a⟩
  | wake _ _ hawait => exact buried_story hawait

/-- So is a stop. -/
theorem Stops.story {stop : Stop} (h : Stops launching s stop t) (hs : s.Registered) :
    ∃ deeds, Story s.host deeds t.host := by
  cases h with
  | refused | childless | undecodable => exact ⟨[], .nil⟩
  | lose _ _ hawait => exact Machine.runUntilDeath_spent hawait
  | doze _ _ hawait _ => exact buried_story hawait
  | @relisted a _ _ => exact ⟨[], forked_story hs a⟩
  | struck hkill => exact ⟨_, (Machine.Act.kill hkill).story⟩

/-- Moves one after another are a story. -/
theorem Reaches.story (h : Reaches launching s t) (hs : s.Registered) :
    t.Registered ∧ ∃ deeds, Story s.host deeds t.host := by
  induction h with
  | refl => exact ⟨hs, [], .nil⟩
  | tail _ hmove ih =>
      obtain ⟨hregistered, deeds, hstory⟩ := ih
      obtain ⟨more, hmore⟩ := hmove.story hregistered
      exact ⟨(hmove.happens hregistered).2, _, hstory.trans hmore⟩

/-- **All that a computation of the shell comes to is a story**, whether it stops early or not. -/
theorem Comes.story {α : Type} {r : Except Stop α} (h : Comes launching s r t)
    (hs : s.Registered) : ∃ deeds, Story s.host deeds t.host := by
  cases r with
  | ok _ => exact (Reaches.story h hs).2
  | error stop =>
      obtain ⟨s₁, s₂, h₁, hstop, h₂⟩ := h
      obtain ⟨hs₁, deeds₁, hstory₁⟩ := Reaches.story h₁ hs
      obtain ⟨deeds₂, hstory₂⟩ := hstop.story hs₁
      obtain ⟨-, deeds₃, hstory₃⟩ := Reaches.story h₂ (hstop.happens hs₁).2
      exact ⟨_, (hstory₁.trans hstory₂).trans hstory₃⟩

/-! ### Deaths -/

theorem bury_attests {P : Event → Prop} (death : Int × Ending) (hdeath : P (.died death.1 death.2)) :
    Adds P s (s.bury death) := by
  unfold bury
  split
  · exact .single rfl hdeath
  · exact .refl s

theorem foldl_bury_attests {P : Event → Prop} (deaths : List (Int × Ending))
    (hdeaths : ∀ d ∈ deaths, P (.died d.1 d.2)) (s : Supervisor Machine) :
    Adds P s (deaths.foldl (fun s death => s.bury death) s) := by
  induction deaths generalizing s with
  | nil => exact .refl s
  | cons death deaths ih =>
      rw [List.forall_mem_cons] at hdeaths
      exact (bury_attests death hdeaths.1).trans (ih hdeaths.2 _)

/-- **A move adds nothing to the journal about somebody who has not ended.** -/
theorem Moves.attests (h : Moves launching s t) (hm : s.host.Grouped) :
    Adds (Event.TrueOn t.host) s t := by
  cases h with
  | drift held =>
      obtain ⟨deeds, hstory⟩ := Machine.runFor_story (m := s.host) held (s.host.pace s.host.turns)
      have hdeaths : ∀ d ∈ (Host.drift held s.host).1,
          Event.TrueOn (s.drifted held).host (.died d.1 d.2) := by
        intro d hd
        rw [drifted_host]
        exact (hstory.grouped hm).deaths d hd
      exact foldl_bury_attests _ hdeaths { s with host := (Host.drift held s.host).2 }
  | pipe | write | kill | signal => exact ⟨[], by simp⟩
  | builtin | launch | wait | reap => exact .single rfl trivial
  | @wake held death host _ _ _ hawait =>
      obtain ⟨deeds, m₁, hstory, hdeath, -, hstandings⟩ := Machine.runUntilDeath_story hawait
      have hended : host.HasEnded death.1 death.2 := by
        have hbefore := (hstory.grouped hm).deaths death hdeath
        unfold Machine.HasEnded at hbefore ⊢
        rwa [hstandings]
      refine bury_attests (s := { s with host := host }) death ?_
      rw [bury_host]
      exact hended

theorem Adds.trueOn_mono (h : Adds (Event.TrueOn t.host) s t) (ht : t.host.Grouped)
    {deeds : List (Int × Machine.Deed)} (hstory : Story t.host deeds u.host) :
    Adds (Event.TrueOn u.host) s t := by
  refine h.mono fun e he => ?_
  cases e with
  | died pid ending => exact hstory.hasEnded ht he
  | _ => trivial

/-- **What the journal says of deaths is true**, and stays so. -/
theorem Reaches.attests (h : Reaches launching s t) (hs : s.Registered) (hm : s.host.Grouped) :
    t.Registered ∧ t.host.Grouped ∧ (∃ deeds, Story s.host deeds t.host) ∧
      Adds (Event.TrueOn t.host) s t := by
  induction h with
  | refl => exact ⟨hs, hm, ⟨[], .nil⟩, .refl s⟩
  | tail _ hmove ih =>
      obtain ⟨hregistered, hgrouped, ⟨deeds, hstory⟩, hattests⟩ := ih
      obtain ⟨more, hmore⟩ := hmove.story hregistered
      exact ⟨(hmove.happens hregistered).2, hmore.grouped hgrouped, ⟨_, hstory.trans hmore⟩,
        (hattests.trueOn_mono hgrouped hmore).trans (hmove.attests hgrouped)⟩

end Supervisor

end JobShell
