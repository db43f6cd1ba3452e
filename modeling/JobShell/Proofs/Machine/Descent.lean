/-
**Who descends from a child.**

A child of the shell that has not come to its program forks nobody, and it writes to the diagnostics
only.  So until then it is the only process that descends from it, and none of them writes to an open
file of the tree.

Main definitions:

* `JobShell.Machine.Rooted` — everybody descends from somebody who has been started;
* `JobShell.Machine.Solitary` — nobody descends from a child that has not come to its program.

Main results:

* `JobShell.Machine.Solitary.passage` — **it stays alone**;
* `JobShell.Machine.Rears.writing?_eq_none` — and it writes to no file of the tree.
-/

import JobShell.Proofs.Machine.Succession

set_option autoImplicit false

namespace JobShell

namespace Machine

variable {a : Assignment} {m m' : Machine} {pid : Int} {p : Process} {acts : List (Int × Deed)}
  {xs : List Moment}

/-! ### Descent -/

/-- Everybody descends from somebody who has been started. -/
def Rooted (m : Machine) : Prop := ∀ v ∈ m.standings, v.root < m.nextPid

theorem Rooted.act (h : m.Rooted) (hm : m.Grouped) (hact : Act m acts m') : m'.Rooted := by
  have hadvances := hact.advances hm.numbered
  have hle := hadvances.nextPid_le
  intro w hw
  rcases hadvances.past hw with ⟨v, hv, hnext⟩ | ⟨v, hv, next, -, rfl⟩ | ⟨b, environment, -, rfl⟩
  · rw [hnext.root_eq]
    exact Int.lt_of_lt_of_le (h v hv) hle
  · exact Int.lt_of_lt_of_le (h v hv) hle
  · exact (hact.grouped hm).numbered.lt _ hw

theorem Rooted.passage (h : m.Rooted) (hm : m.Grouped) (hpassage : Passage m xs m') :
    m'.Rooted := by
  induction hpassage with
  | nil => exact h
  | snoc hxs hx ih =>
      obtain ⟨deeds, hact⟩ := hx.act
      exact ih.act (hxs.grouped hm) hact

/-! ### A child that has not come to its program -/

/-- Nobody descends from a child that has not come to its program, but the child itself. -/
def Solitary (m : Machine) (pid : Int) : Prop :=
  ∀ v ∈ m.standings, v.pid = pid → v.image = none → ∀ u ∈ m.standings, u.root = pid → u.pid = pid

/-- **Who has come to its program has come to it for good.** -/
theorem Passage.image_isSome (hpassage : Passage m xs m') (hm : m.Grouped) {v : Standing}
    (hv : v ∈ m.standings) (himage : v.image.isSome = true) :
    ∃ w ∈ m'.standings, w.pid = v.pid ∧ w.image.isSome = true := by
  induction hpassage with
  | nil => exact ⟨v, hv, rfl, himage⟩
  | snoc hxs hx ih =>
      obtain ⟨w, hw, hpid, hsome⟩ := ih
      obtain ⟨deeds, hact⟩ := hx.act
      obtain ⟨w', hw', hnext⟩ := (hact.advances (hxs.grouped hm).numbered).future hw
      exact ⟨w', hw', hnext.pid_eq.trans hpid, hnext.image_isSome hsome⟩

theorem Solitary.act (h : m.Solitary pid) (hrears : m.Rears pid a) (hm : m.Grouped)
    (hact : Act m acts m') : m'.Solitary pid := by
  intro w hw hpid himage u' hu' hroot
  obtain ⟨v, hv, rfl, ⟨environment, deeds, hcourse⟩, -⟩ := hrears
  have hadvances := hact.advances hm.numbered
  have himage' : v.image = none := by
    by_contra hsome
    obtain ⟨w', hw', hnext⟩ := hadvances.future hv
    obtain rfl := (hact.grouped hm).numbered.eq_of_pid hw' hw (hnext.pid_eq.trans hpid.symm)
    have hsome' := hnext.image_isSome (Option.isSome_iff_ne_none.2 hsome)
    rw [himage] at hsome'
    cases hsome'
  rcases hadvances.past hu' with
    ⟨u, hu, hnext⟩ | ⟨u, hu, next, hphase, rfl⟩ | ⟨b, environment', -, rfl⟩
  · rw [hnext.pid_eq]
    exact h v hv rfl himage' u hu (hnext.root_eq ▸ hroot)
  · -- the child itself would have forked
    obtain rfl := hm.numbered.eq_of_pid hu hv (h v hv rfl himage' u hu hroot)
    rcases hcourse.permits himage' hphase with hcall | ⟨e, hcall, -⟩ | hcall
    · cases hcall
    · cases hcall
    · exact hcall.elim
  · have hlt := hm.numbered.lt v hv
    have heq : m.nextPid = v.pid := hroot
    omega

theorem Solitary.start (hroots : m.Rooted) :
    (m.start m.nextPid a).Solitary m.nextPid := by
  rintro - - - - u hu hroot
  rcases mem_standings_start.1 hu with hu | rfl
  · have hlt := hroots u hu
    omega
  · rfl

/-- **It stays alone.** -/
theorem Solitary.passage (h : m.Solitary pid) (hrears : m.Rears pid a) (hable : a.Able)
    (ha : a.command.outlets ≠ []) (hm : m.Grouped) (hpassage : Passage m xs m') :
    m'.Solitary pid := by
  induction hpassage with
  | nil => exact h
  | snoc hxs hx ih =>
      obtain ⟨deeds, hact⟩ := hx.act
      exact ih.act (hrears.passage hable ha hm hxs).1 (hxs.grouped hm) hact

/-- **A child that has not come to its program writes to no file of the tree.** -/
theorem Rears.writing?_eq_none (h : m.Rears pid a) (hm : m.Grouped) (hp : m.process? pid = some p)
    (himage : p.image = none) : p.writing? = none := by
  obtain ⟨v, hv, rfl, ⟨environment, deeds, hcourse⟩, -⟩ := h
  obtain ⟨hmem, hpid⟩ := mem_standings_of_process? hp
  obtain rfl := hm.numbered.eq_of_pid hv hmem hpid.symm
  rw [Option.eq_none_iff_forall_ne_some]
  rintro ⟨number, bytes⟩ hwriting
  obtain ⟨-, fd, next, hphase, hfile⟩ := Process.writing?_eq_some_iff.1 hwriting
  rcases hcourse.permits himage hphase with hcall | ⟨e, hcall, hdiagnostics⟩ | hcall
  · cases hcall
  · obtain ⟨rfl, -⟩ := Call.write.inj hcall
    cases hfile.symm.trans hdiagnostics
  · exact hcall.elim

end Machine

end JobShell
