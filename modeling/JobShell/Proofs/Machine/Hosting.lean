/-
**The shell on a machine.**

When the machine is the host of the shell, every move of the shell's supervisor is made of things
that happen on the machine: turns of processes, and what the shell asks for.  The process id that
the shell gives to a child is the next one of the machine, since all children have smaller ones.

Main definitions:

* `JobShell.Supervisor.Registered` — the ids of the children are known to the machine;
* `JobShell.Machine.HappensMany` — whatever happens, one thing after another.

Main results:

* `JobShell.Supervisor.choosePid_eq` — a child gets the machine's next id;
* `JobShell.Supervisor.Comes.happens` — what a computation of the shell comes to on the machine.
-/

import JobShell.Proofs.Job.Children
import JobShell.Proofs.Machine.Turns

set_option autoImplicit false

namespace JobShell

namespace Machine

variable {launching : Assignment → Prop} {m m' : Machine}

/-- Whatever happens, one thing after another. -/
abbrev HappensMany (launching : Assignment → Prop) : Machine → Machine → Prop :=
  Relation.ReflTransGen (Happens launching)

theorem HappensMany.advances (h : HappensMany launching m m') (hm : m.Numbered) :
    AdvancesMany launching m m' := by
  induction h with
  | refl => exact .refl
  | tail _ hstep ih => exact ih.trans (hstep.advances (AdvancesMany.numbered ih hm))

theorem HappensMany.mono {launching' : Assignment → Prop} (h : HappensMany launching m m')
    (hle : ∀ a, launching a → launching' a) : HappensMany launching' m m' :=
  Relation.ReflTransGen.mono (fun _ _ h => Happens.mono h hle) _ _ h

/-! ### Turns -/

theorem runFor_happens (held : Descriptors) (n : Nat) :
    HappensMany launching m (m.runFor held n) := by
  induction n generalizing m with
  | zero => exact .refl
  | succ n ih =>
      unfold runFor
      cases hturn : m.turnOnce held with
      | none => exact .refl
      | some m' => exact ih.head (.turn hturn)

/-- The machine after it has run until a death, or until there is nothing to wait for. -/
theorem runUntilDeath_happens (held : Descriptors) (n : Nat) :
    match m.runUntilDeath held n with
    | .ok (_, m') | .error (_, m') => HappensMany launching m m' := by
  -- one turn and then the rest, or the death that there is
  induction n generalizing m with
  | zero => exact .refl
  | succ n ih =>
      unfold runUntilDeath
      cases hkilled : m.shellKilled with
      | some signal => exact .refl
      | none =>
          cases hdeaths : m.deaths with
          | cons death deaths =>
              have htell : Happens launching m { m with deaths := deaths } := .tell deaths
              rw [hkilled] at htell
              exact .single htell
          | nil =>
              dsimp only
              cases hturn : m.turnOnce held with
              | none => exact .refl
              | some m' =>
                  have ih' := @ih m'
                  dsimp only
                  cases hrun : m'.runUntilDeath held n with
                  | ok result =>
                      rw [hrun] at ih'
                      exact ih'.head (.turn hturn)
                  | error result =>
                      rw [hrun] at ih'
                      exact ih'.head (.turn hturn)

/-- Whatever waiting for a death comes to, the machine has got there. -/
theorem await_happens (launching : Assignment → Prop) (m : Machine) (held : Descriptors) :
    match Host.await held m with
    | .ok (_, m') | .error (_, m') => HappensMany launching m m' :=
  runUntilDeath_happens held patience

theorem drift_happens (held : Descriptors) : HappensMany launching m (m.drift held).2 :=
  (runFor_happens held _).tail (.tell [])

end Machine

namespace Supervisor

open Machine (Happens HappensMany)

variable {launching : Assignment → Prop} {s s' : Supervisor Machine}

/-- All children are known to the machine, which has not given an id twice. -/
structure Registered (s : Supervisor Machine) : Prop where
  positive : 0 < s.host.nextPid
  children : ∀ c ∈ s.children, c.pid < s.host.nextPid
  numbered : s.host.Numbered

/-- **A child gets the machine's next id.** -/
theorem choosePid_eq (h : s.Registered) : s.choosePid = s.host.nextPid := by
  unfold choosePid
  change (if s.host.nextPid ≤ 0 ∨ s.children.any (·.pid = s.host.nextPid) = true then
    unusedPid s.children else s.host.nextPid) = _
  rw [if_neg]
  rintro (hle | hany)
  · exact absurd h.positive (by omega)
  · obtain ⟨c, hc, hpid⟩ := List.any_eq_true.1 hany
    have := h.children c hc
    simp only [decide_eq_true_eq] at hpid
    omega

/-- The machine goes on, and there are no more children than before. -/
theorem Registered.of_happens (h : s.Registered) (hhost : HappensMany launching s.host s'.host)
    (hchildren : ∀ c ∈ s'.children, ∃ c' ∈ s.children, c.pid = c'.pid) : s'.Registered := by
  have hadvances := HappensMany.advances hhost h.numbered
  have hle : s.host.nextPid ≤ s'.host.nextPid := Machine.AdvancesMany.nextPid_le hadvances
  refine ⟨Int.lt_of_lt_of_le h.positive hle, ?_, Machine.AdvancesMany.numbered hadvances h.numbered⟩
  intro c hc
  obtain ⟨c', hc', hpid⟩ := hchildren c hc
  exact hpid ▸ Int.lt_of_lt_of_le (h.children c' hc') hle

theorem Registered.forked_host (h : s.Registered) (a : Assignment) :
    (s.forked a).host = s.host.start s.host.nextPid a :=
  congrArg (fun pid => s.host.start pid a) (choosePid_eq h)

theorem Registered.forked (h : s.Registered) (a : Assignment) : (s.forked a).Registered := by
  have hpid := choosePid_eq h
  have hadvances : Machine.Advances (fun _ => True) s.host (s.host.start s.host.nextPid a) :=
    Machine.start_advances trivial
  have hhost := h.forked_host a
  have hnext : (s.forked a).host.nextPid = s.host.nextPid + 1 := by
    rw [hhost]
    simp [Machine.start]
  have hpositive := h.positive
  refine ⟨by omega, ?_, hhost ▸ hadvances.numbered h.numbered⟩
  intro c hc
  rcases List.mem_append.1 hc with hc | hc
  · have := h.children c hc
    omega
  · obtain rfl := List.mem_singleton.1 hc
    change s.choosePid < _
    omega

theorem mem_pids_of_eq {cs cs' : List Child} (h : cs'.map (·.pid) = cs.map (·.pid)) :
    ∀ c ∈ cs', ∃ c' ∈ cs, c.pid = c'.pid := by
  intro c hc
  have hmem : c.pid ∈ cs.map (·.pid) := h ▸ List.mem_map_of_mem hc
  obtain ⟨c', hc', hpid⟩ := List.mem_map.1 hmem
  exact ⟨c', hc', hpid.symm⟩

theorem mem_pids_of_unlinked {cs rest : List Child} {death : Int × Ending}
    (h : unlinkDead cs = some (death, rest)) : ∀ c ∈ rest, ∃ c' ∈ cs, c.pid = c'.pid :=
  fun c hc => ⟨c, (unlinkDead_sublist h).subset hc, rfl⟩

/-- The children are registered still if their numbers are those of children before. -/
theorem Registered.kept (hs : s.Registered) (hhost : HappensMany launching s.host s'.host)
    (hchildren : ∀ c ∈ s'.children, ∃ c' ∈ s.children, c.pid = c'.pid) :
    HappensMany launching s.host s'.host ∧ s'.Registered :=
  ⟨hhost, hs.of_happens hhost hchildren⟩

/-- The machine has run, and a death that it tells of has been noted. -/
theorem Registered.buried (hs : s.Registered) {held : Descriptors} {death : Int × Ending}
    {host : Machine} (hawait : Host.await held s.host = .ok (death, host)) :
    HappensMany launching s.host (bury death { s with host := host }).host ∧
      (bury death { s with host := host }).Registered := by
  have hrun := Machine.await_happens launching s.host held
  rw [hawait] at hrun
  refine hs.kept ?_ (mem_pids_of_eq (bury_pids death))
  rw [bury_host]
  exact hrun

/-- A move of the supervisor is made of what happens on the machine. -/
theorem Moves.happens (h : Moves launching s s') (hs : s.Registered) :
    HappensMany launching s.host s'.host ∧ s'.Registered := by
  cases h with
  | drift held =>
      refine hs.kept ?_ (mem_pids_of_eq (drifted_pids held))
      rw [drifted_host]
      exact Machine.drift_happens held
  | pipe => exact hs.kept (.single .pipe) (mem_pids_of_eq rfl)
  | write file text => exact hs.kept (.single (.write file text)) (mem_pids_of_eq rfl)
  | kill hkill => exact hs.kept (.single (.kill hkill)) (mem_pids_of_eq rfl)
  | signal | builtin | wait => exact hs.kept .refl (mem_pids_of_eq rfl)
  | @launch a jobs _ ha =>
      have hforked := hs.forked a
      refine ⟨?_, ⟨hforked.positive, hforked.children, hforked.numbered⟩⟩
      change HappensMany launching s.host (s.forked a).host
      rw [hs.forked_host]
      exact .single (.start ha)
  | wake _ _ hawait => exact hs.buried hawait
  | reap hdead => exact hs.kept .refl (mem_pids_of_unlinked hdead)

/-- So is a stop. -/
theorem Stops.happens {stop : Stop} (h : Stops launching s stop s') (hs : s.Registered) :
    HappensMany launching s.host s'.host ∧ s'.Registered := by
  cases h with
  | refused | childless => exact ⟨.refl, hs⟩
  | undecodable hdead => exact hs.kept .refl (mem_pids_of_unlinked hdead)
  | @lose held loss host _ _ _ hawait =>
      have hrun := Machine.await_happens launching s.host held
      rw [hawait] at hrun
      exact hs.kept hrun (mem_pids_of_eq rfl)
  | doze _ _ hawait _ => exact hs.buried hawait
  | @relisted a _ ha =>
      refine ⟨?_, hs.forked a⟩
      rw [hs.forked_host]
      exact .single (.start ha)
  | struck hkill => exact hs.kept (.single (.kill hkill)) (mem_pids_of_eq rfl)

theorem Reaches.happens (h : Reaches launching s s') (hs : s.Registered) :
    HappensMany launching s.host s'.host ∧ s'.Registered := by
  induction h with
  | refl => exact ⟨.refl, hs⟩
  | tail _ hmove ih =>
      obtain ⟨hhost, hregistered⟩ := hmove.happens ih.2
      exact ⟨ih.1.trans hhost, hregistered⟩

/-- **What a computation of the shell comes to is made of what happens on the machine.** -/
theorem Comes.happens {α : Type} {r : Except Stop α} (h : Comes launching s r s')
    (hs : s.Registered) : HappensMany launching s.host s'.host ∧ s'.Registered := by
  cases r with
  | ok _ => exact Reaches.happens h hs
  | error stop =>
      obtain ⟨s₁, s₂, h₁, hstop, h₂⟩ := h
      obtain ⟨hhost₁, hs₁⟩ := Reaches.happens h₁ hs
      obtain ⟨hhost₂, hs₂⟩ := hstop.happens hs₁
      obtain ⟨hhost₃, hs₃⟩ := Reaches.happens h₂ hs₂
      exact ⟨(hhost₁.trans hhost₂).trans hhost₃, hs₃⟩

end Supervisor

end JobShell
