/-
**The children and the journal agree.**

No two unreaped children have the same process id, although a process id may come back as soon as
the child that had it is reaped.  The end that the kernel keeps for a dead child is the last one
that the journal has for the process, so what a wait call says of a child is how that child ended.

Main definitions:

* `JobShell.lastDeath` — how a process ended last, according to a journal;
* `JobShell.Event.Attested` — what a wait call said is what happened;
* `JobShell.Supervisor.Truthful` — the invariant;
* `JobShell.Supervisor.forkedPids` — the children that have been forked, in order.

Main results:

* `JobShell.Supervisor.choosePid_fresh` — a new child gets a process id of its own;
* `JobShell.Supervisor.Moves.truthful`, `JobShell.Supervisor.Stops.truthful` — the invariant is
  kept;
* `JobShell.Supervisor.Comes.forkedPids` — where no child is launched none is forked.
-/

import JobShell.Proofs.Job.Supervision
import Mathlib.Data.List.Nodup

set_option autoImplicit false

namespace JobShell

/-! ### Deaths in the journal -/

/-- How a process ended last, according to a journal. -/
def lastDeath (journal : List Event) (pid : Int) : Option Ending :=
  journal.foldl (fun last e =>
    match e with
    | .died pid' ending => if pid' = pid then some ending else last
    | _ => last) none

theorem lastDeath_append (journal : List Event) (e : Event) (pid : Int) :
    lastDeath (journal ++ [e]) pid =
      match e with
      | .died pid' ending => if pid' = pid then some ending else lastDeath journal pid
      | _ => lastDeath journal pid := by
  simp only [lastDeath, List.foldl_append, List.foldl_cons, List.foldl_nil]

/-- What a wait call said of a child is how the child ended, as the journal before it has it. -/
def Event.Attested (before : List Event) : Event → Prop
  | .reaped status _ =>
      ∃ pid ending, lastDeath before pid = some ending ∧ ending.decode pid = .ok status
  | .undecodable pid ending =>
      lastDeath before pid = some ending ∧ ∃ errno, ending.decode pid = .error errno
  | _ => True

/-- Every event of a journal is attested by those before it. -/
def Attested (journal : List Event) : Prop :=
  ∀ before e after, journal = before ++ e :: after → e.Attested before

theorem attested_nil : Attested [] := by
  intro before e after h
  simp at h

/-- What holds of every event of a journal and of one more event holds of the longer journal. -/
theorem forall_events_append {P : List Event → Event → Prop} {journal : List Event} {e : Event}
    (h : ∀ before e after, journal = before ++ e :: after → P before e) (he : P journal e) :
    ∀ before e' after, journal ++ [e] = before ++ e' :: after → P before e' := by
  intro before e' after heq
  rcases List.eq_nil_or_concat after with rfl | ⟨after, last, rfl⟩
  · obtain ⟨rfl, rfl⟩ : journal = before ∧ e = e' := by
      simpa using List.append_inj' heq rfl
    exact he
  · rw [List.concat_eq_append, ← List.cons_append, ← List.append_assoc] at heq
    exact h before e' after (List.append_inj' heq rfl).1

theorem Attested.append {journal : List Event} {e : Event} (h : Attested journal)
    (he : e.Attested journal) : Attested (journal ++ [e]) :=
  forall_events_append h he

namespace Supervisor

variable {σ : Type}

/-! ### Process ids -/

theorem unusedPid_foldl_le (children : List Child) (start : Int) :
    start ≤ children.foldl (fun pid c => max pid (c.pid + 1)) start ∧
      ∀ c ∈ children, c.pid < children.foldl (fun pid c => max pid (c.pid + 1)) start := by
  induction children generalizing start with
  | nil => simp
  | cons c children ih =>
      obtain ⟨hstart, hmem⟩ := ih (max start (c.pid + 1))
      rw [List.foldl_cons]
      refine ⟨by omega, fun c' hc' => ?_⟩
      rcases List.mem_cons.1 hc' with rfl | hc'
      · omega
      · exact hmem c' hc'

/-- **A new child gets a process id that no unreaped child has.** -/
theorem choosePid_fresh [Host σ] (s : Supervisor σ) :
    s.choosePid ∉ s.children.map (·.pid) := by
  intro hmem
  obtain ⟨c, hc, hpid⟩ := List.mem_map.1 hmem
  unfold choosePid at hpid
  simp only at hpid
  split at hpid
  · have := (unusedPid_foldl_le s.children 1).2 c hc
    simp only [unusedPid] at hpid
    omega
  · next h =>
      rw [not_or] at h
      exact h.2 (List.any_eq_true.2 ⟨c, hc, by simpa using hpid⟩)

/-! ### The invariant -/

/-- No two children have the same process id, the ends of the dead ones are those of the journal,
and every event is attested. -/
structure Truthful (s : Supervisor σ) : Prop where
  distinct : (s.children.map (·.pid)).Nodup
  ends : ∀ c ∈ s.children, ∀ ending, c.ending = some ending →
    lastDeath s.journal c.pid = some ending
  attested : Attested s.journal

/-- At the start there are no children, and nothing has happened. -/
theorem truthful_initial (host : σ) : Truthful ({ host := host } : Supervisor σ) :=
  ⟨by simp, by simp, attested_nil⟩

section Keeping

variable {s : Supervisor σ}

/-- An event that is no death and that is attested changes nothing. -/
theorem Truthful.note (h : s.Truthful) {e : Event} (he : e.Attested s.journal)
    (hdied : ∀ pid ending, e ≠ .died pid ending) :
    Truthful { s with journal := s.journal ++ [e] } := by
  refine ⟨h.distinct, fun c hc ending hending => ?_, h.attested.append he⟩
  rw [lastDeath_append, ← h.ends c hc ending hending]
  cases e with
  | died pid ending => exact absurd rfl (hdied pid ending)
  | _ => rfl

/-- A death is buried with the child whose death it is. -/
theorem Truthful.bury (h : s.Truthful) (death : Int × Ending) : Truthful (s.bury death) := by
  have hdistinct : ((s.bury death).children.map (·.pid)).Nodup := by
    rw [bury_pids]
    exact h.distinct
  unfold Supervisor.bury at hdistinct ⊢
  split
  · next hliving =>
      rw [if_pos hliving] at hdistinct
      refine ⟨hdistinct, ?_, h.attested.append trivial⟩
      obtain ⟨d, hd, hdead⟩ := List.any_eq_true.1 hliving
      obtain ⟨hpid, hnone⟩ : d.pid = death.1 ∧ d.ending = none := by simpa using hdead
      intro c hc ending hending
      obtain ⟨c', hc', rfl⟩ := List.mem_map.1 hc
      rw [lastDeath_append]
      by_cases hc'_dead : c'.pid = death.1 ∧ c'.ending = none
      · rw [if_pos hc'_dead] at hending ⊢
        simpa [hc'_dead.1] using hending
      · rw [if_neg hc'_dead] at hending ⊢
        -- a child that is dead already is another one, with another process id
        have hne : death.1 ≠ c'.pid := by
          intro heq
          have : c' = d := List.inj_on_of_nodup_map h.distinct hc' hd (by rw [hpid, heq])
          exact hc'_dead ⟨heq.symm, this ▸ hnone⟩
        simpa [hne] using h.ends c' hc' ending hending
  · exact h

/-- Any part of the children is as truthful as all of them. -/
theorem Truthful.sublist (h : s.Truthful) {rest : List Child} (hrest : rest.Sublist s.children) :
    Truthful { s with children := rest } :=
  ⟨(hrest.map _).nodup h.distinct, fun c hc => h.ends c (hrest.subset hc), h.attested⟩

variable [Host σ]

theorem Truthful.drifted (h : s.Truthful) (held : Descriptors) : Truthful (s.drifted held) :=
  foldl_bury (fun _ death h => h.bury death) _ { s with host := (Host.drift held s.host).2 }
    ⟨h.distinct, h.ends, h.attested⟩

theorem Truthful.forked (h : s.Truthful) (a : Assignment) : Truthful (s.forked a) := by
  have hnoted := h.note (e := .forked s.choosePid a.jobClass) trivial (by simp)
  refine ⟨?_, ?_, hnoted.attested⟩
  · rw [Supervisor.forked, List.map_append, List.nodup_append]
    refine ⟨h.distinct, by simp, ?_⟩
    rintro pid hpid _ hfresh rfl
    obtain rfl : pid = s.choosePid := by simpa using hfresh
    exact choosePid_fresh s hpid
  · intro c hc ending hending
    rcases List.mem_append.1 hc with hc | hc
    · exact hnoted.ends c hc ending hending
    · obtain rfl : c = { pid := s.choosePid } := by simpa using hc
      simp at hending

omit [Host σ] in
/-- The child that is unlinked ended as the journal has it. -/
theorem Truthful.unlinked (h : s.Truthful) {pid : Int} {ending : Ending} {rest : List Child}
    (hdead : unlinkDead s.children = some ((pid, ending), rest)) :
    lastDeath s.journal pid = some ending ∧ rest.Sublist s.children :=
  ⟨h.ends ⟨pid, some ending⟩ (mem_of_unlinkDead hdead) ending rfl, unlinkDead_sublist hdead⟩

variable {launching : Assignment → Prop} {s' : Supervisor σ}

/-- **Every move keeps the children and the journal in agreement.** -/
theorem Moves.truthful (hmove : Moves launching s s') (h : s.Truthful) : s'.Truthful := by
  cases hmove with
  | drift held => exact h.drifted held
  | pipe | write | kill | signal => exact ⟨h.distinct, h.ends, h.attested⟩
  | builtin name => exact h.note trivial (by simp)
  | @launch a =>
      have hforked := h.forked a
      exact ⟨hforked.distinct, hforked.ends, hforked.attested⟩
  | wait => exact h.note trivial (by simp)
  | @wake held death host =>
      exact Truthful.bury (s := { s with host := host }) ⟨h.distinct, h.ends, h.attested⟩ death
  | @reap pid ending status rest _ hdead hdecode =>
      obtain ⟨hlast, hrest⟩ := h.unlinked hdead
      have hnoted := (h.sublist hrest).note (e := .reaped status (s.jobs.classOf? pid))
        ⟨pid, ending, hlast, hdecode⟩ (by simp)
      exact ⟨hnoted.distinct, hnoted.ends, hnoted.attested⟩

/-- The same holds when a computation stops early. -/
theorem Stops.truthful {stop : Stop} (hstop : Stops launching s stop s') (h : s.Truthful) :
    s'.Truthful := by
  cases hstop with
  | refused | childless => exact h
  | lose | struck => exact ⟨h.distinct, h.ends, h.attested⟩
  | @doze held death host =>
      exact Truthful.bury (s := { s with host := host }) ⟨h.distinct, h.ends, h.attested⟩ death
  | @relisted a => exact h.forked a
  | @undecodable pid ending errno rest _ hdead hdecode =>
      obtain ⟨hlast, hrest⟩ := h.unlinked hdead
      exact (h.sublist hrest).note (e := .undecodable pid ending) ⟨hlast, errno, hdecode⟩ (by simp)

end Keeping

/-! ### The children that have been forked -/

section Forked

variable [Host σ] {s s' : Supervisor σ}

/-- The children that have been forked, in order. -/
def forkedPids (journal : List Event) : List Int :=
  journal.filterMap fun
    | .forked pid _ => some pid
    | _ => none

theorem forkedPids_append (journal more : List Event) :
    forkedPids (journal ++ more) = forkedPids journal ++ forkedPids more :=
  List.filterMap_append ..

omit [Host σ] in
theorem forkedPids_bury (death : Int × Ending) :
    forkedPids (s.bury death).journal = forkedPids s.journal := by
  unfold bury
  split
  · rw [forkedPids_append]
    exact List.append_nil _
  · rfl

theorem forkedPids_drifted (held : Descriptors) :
    forkedPids (s.drifted held).journal = forkedPids s.journal :=
  foldl_bury (I := fun t => forkedPids t.journal = forkedPids s.journal)
    (fun t death h => by rw [forkedPids_bury, h]) _ _ rfl

/-- **Where no child is launched none is forked.** -/
theorem Comes.forkedPids {α : Type} {r : Except Stop α} (h : Comes (fun _ => False) s r s') :
    Supervisor.forkedPids s'.journal = Supervisor.forkedPids s.journal := by
  refine Comes.keeps
    (I := fun t => Supervisor.forkedPids t.journal = Supervisor.forkedPids s.journal) h ?_ ?_ rfl
  · rintro u v hmove (hu : _ = _)
    cases hmove with
    | drift held => exact (forkedPids_drifted held).trans hu
    | pipe | write | kill | signal => exact hu
    | builtin | wait =>
        rw [forkedPids_append, hu]
        exact List.append_nil _
    | launch ha => exact ha.elim
    | wake => exact (forkedPids_bury _).trans hu
    | reap =>
        rw [reaped, forkedPids_append, hu]
        exact List.append_nil _
  · rintro u stop v hstop (hu : _ = _)
    cases hstop with
    | refused | childless | lose | struck => exact hu
    | undecodable =>
        rw [dropped, forkedPids_append, hu]
        exact List.append_nil _
    | doze => exact (forkedPids_bury _).trans hu
    | relisted ha => exact ha.elim

end Forked

end Supervisor

end JobShell
