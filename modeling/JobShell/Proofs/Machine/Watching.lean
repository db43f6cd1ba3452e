/-
**What the shell does on a machine that is watched.**

The record makes no difference to the shell: whatever it does on a watched machine it could do on the
machine alone, step by step.  And all that happens meanwhile is in the record, so the children that
have been started in the moments of a launch are those that have been launched.

Main definitions:

* `JobShell.Supervisor.bare` — the supervisor without the record.

Main results:

* `JobShell.Supervisor.Moves.bare` — the record makes no difference;
* `JobShell.Supervisor.Reaches.goes` — what happens is in the record;
* `JobShell.Supervisor.Dispatches.goes` — **the children in the record of a launch are those that have
  been launched.**
-/

import JobShell.Proofs.Machine.Moments
import JobShell.Proofs.Machine.Testimony
import JobShell.Proofs.Pipeline.Shortage

set_option autoImplicit false

namespace JobShell

namespace Supervisor

/-- The supervisor without the record. -/
def bare (s : Supervisor Watched) : Supervisor Machine :=
  { host := s.host.machine
    children := s.children
    signal := s.signal
    jobs := s.jobs
    journal := s.journal }

variable {launching : Assignment → Prop} {s t : Supervisor Watched}

/-! ### Without the record -/

theorem bare_bury (death : Int × Ending) (s : Supervisor Watched) :
    (s.bury death).bare = s.bare.bury death := by
  unfold bury
  rw [apply_ite bare]
  rfl

theorem bare_foldl_bury (deaths : List (Int × Ending)) (s : Supervisor Watched) :
    (deaths.foldl (fun s death => s.bury death) s).bare =
      deaths.foldl (fun s death => s.bury death) s.bare := by
  induction deaths generalizing s with
  | nil => rfl
  | cons death deaths ih => rw [List.foldl_cons, ih, bare_bury, List.foldl_cons]

theorem bare_drifted (held : Descriptors) (s : Supervisor Watched) :
    (s.drifted held).bare = s.bare.drifted held := bare_foldl_bury _ _

/-- A signal that is sent on a watched machine is sent on the machine. -/
theorem kill_goes {pid : Int} {signal : Nat} {self : Bool} {w w' : Watched}
    (h : Host.kill pid signal w = .ok (self, w')) :
    Host.kill pid signal w.machine = .ok (self, w'.machine) ∧ Watched.Goes [] w w' := by
  have hhost : Host.kill pid signal w.machine =
      w.machine.send w.machine.shellPid w.machine.shellPid pid signal := rfl
  change (w.machine.send _ _ pid signal).map _ = _ at h
  rw [hhost]
  cases hsend : w.machine.send w.machine.shellPid w.machine.shellPid pid signal with
  | error errno =>
      rw [hsend] at h
      cases h
  | ok answer =>
      rw [hsend] at h
      cases h
      exact ⟨rfl, Watched.note_goes w (.other (.kill hsend))⟩

/-- **A move on a watched machine is one on the machine.** -/
theorem Moves.bare (h : Moves launching s t) : Moves launching s.bare t.bare := by
  cases h with
  | drift held =>
      rw [bare_drifted]
      exact .drift held s.bare
  | pipe => exact .pipe s.bare
  | write file text => exact .write file text s.bare
  | kill hkill => exact .kill (s := s.bare) (kill_goes hkill).1
  | signal signal => exact .signal signal s.bare
  | builtin name => exact .builtin name s.bare
  | launch ha hregister => exact .launch (s := s.bare) ha hregister
  | wait hforeground => exact .wait (s := s.bare) hforeground
  | wake hchildren hdead hawait =>
      rw [bare_bury]
      exact .wake (s := s.bare) hchildren hdead (Watched.await_goes hawait).1
  | reap hdead hdecode => exact .reap (s := s.bare) hdead hdecode

/-! ### The record -/

theorem drifted_goes (held : Descriptors) (s : Supervisor Watched) :
    Watched.Goes [] s.host (s.drifted held).host := by
  rw [drifted_host]
  exact Watched.drift_goes s.host held

theorem forked_goes (hs : s.bare.Registered) (a : Assignment) :
    Watched.Goes [(s.choosePid, a)] s.host (s.forked a).host := by
  have hpid : s.choosePid = s.host.machine.nextPid := choosePid_eq hs
  have hhost : (s.forked a).host = s.host.note (.start s.choosePid a)
      (s.host.machine.start s.choosePid a) := rfl
  -- the child that the record names is the one that the machine has started
  rw [hhost, hpid]
  exact Watched.note_goes s.host (.start s.host.machine a)

/-- **What a move does is in the record.** -/
theorem Moves.goes (h : Moves launching s t) (hs : s.bare.Registered) :
    ∃ children, Watched.Goes children s.host t.host ∧ ∀ c ∈ children, launching c.2 := by
  cases h with
  | drift held => exact ⟨[], drifted_goes held s, by simp⟩
  | pipe => exact ⟨[], Watched.note_goes s.host (.other .pipe), by simp⟩
  | write file text => exact ⟨[], Watched.note_goes s.host (.other (.write file text)), by simp⟩
  | kill hkill => exact ⟨[], (kill_goes hkill).2, by simp⟩
  | signal | builtin | wait | reap => exact ⟨[], .refl s.host, by simp⟩
  | launch ha hregister => exact ⟨_, forked_goes hs _, by simpa using ha⟩
  | wake hchildren hdead hawait =>
      rw [bury_host]
      exact ⟨[], (Watched.await_goes hawait).2, by simp⟩

/-- The jobs are accounted for without the host. -/
theorem accounted_of_bare (h : s.bare.Accounted) : s.Accounted := by
  obtain ⟨⟨hdistinct, hends, hattested⟩, honce, hchildren, hdecoded⟩ := h
  exact ⟨⟨hdistinct, hends, hattested⟩, honce, hchildren, hdecoded⟩

theorem Moves.registered (h : Moves launching s t) (hs : s.bare.Registered) : t.bare.Registered :=
  (h.bare.happens hs).2

/-- **What moves do one after another is in the record.** -/
theorem Reaches.goes (h : Reaches launching s t) (hs : s.bare.Registered) :
    t.bare.Registered ∧
      ∃ children, Watched.Goes children s.host t.host ∧ ∀ c ∈ children, launching c.2 := by
  induction h with
  | refl => exact ⟨hs, [], .refl s.host, by simp⟩
  | tail _ hmove ih =>
      obtain ⟨hregistered, children, hgoes, hlaunching⟩ := ih
      obtain ⟨more, hmore, hlaunching'⟩ := hmove.goes hregistered
      refine ⟨hmove.registered hregistered, children ++ more, hgoes.trans hmore, ?_⟩
      rw [List.forall_mem_append]
      exact ⟨hlaunching, hlaunching'⟩

/-- Where no child is launched none is started. -/
theorem Reaches.goes_alone (h : Reaches (fun _ => False) s t) (hs : s.bare.Registered) :
    Watched.Goes [] s.host t.host := by
  obtain ⟨-, children, hgoes, hnone⟩ := h.goes hs
  obtain rfl : children = [] := List.eq_nil_iff_forall_not_mem.2 hnone
  exact hgoes

/-- **The children in the record of a launch are those that have been launched.** -/
theorem Dispatches.goes {as : List Assignment} {pipes : List Nat} {pids : List Int}
    (h : Dispatches as pipes pids s t) (hs : s.bare.Registered) :
    t.bare.Registered ∧ Watched.Goes (pids.zip as) s.host t.host := by
  induction h with
  | nil s => exact ⟨hs, .refl s.host⟩
  | @drift as pipes pids s t held _ ih =>
      have hmove : Moves (fun _ => True) s (s.drifted held) := .drift held s
      obtain ⟨hregistered, hgoes⟩ := ih (hmove.registered hs)
      exact ⟨hregistered, (drifted_goes held s).trans hgoes⟩
  | @pipe as pipes pids s t _ ih =>
      have hmove : Moves (fun _ => True) s { s with host := (Host.newPipe s.host).2 } := .pipe s
      obtain ⟨hregistered, hgoes⟩ := ih (hmove.registered hs)
      exact ⟨hregistered, (Watched.note_goes s.host (.other .pipe)).trans hgoes⟩
  | @launch a as pipes jobs pids s t hregister _ ih =>
      have hmove : Moves (fun _ => True) s { s.forked a with jobs := jobs } :=
        .launch trivial hregister
      obtain ⟨hregistered, hgoes⟩ := ih (hmove.registered hs)
      exact ⟨hregistered, (forked_goes hs a).trans hgoes⟩

end Supervisor

end JobShell
