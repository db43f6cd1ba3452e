/-
**No death goes unnoticed.**

One flag stands for any number of deaths.  It is raised by the signal of a death, at once or when
the signal is no longer blocked, and it is cleared before dead children are reaped, never after.  So
whenever a child is dead and waits to be reaped, the flag is raised, or a signal waits behind the
mask, or a reaping is under way that has cleared the flag and does not end before it has found that
no child is dead.  That is why reaping only if the flag is raised misses nothing.

Deeds are taken apart into single changes, so that the invariant is one of every point of them.

Main definitions:

* `JobShell.Watch`, `JobShell.Watch.Alert` — a supervisor, with a reaping under way or not, and the
  invariant;
* `JobShell.Shifts`, `JobShell.Goes` — one change, and any number of them;
* `JobShell.Supervisor.GoesOn` — changes that say nothing of a reaping.

Main results:

* `JobShell.Shifts.alert` — every change keeps the invariant;
* `JobShell.Deed.body_ran` — every deed is made of changes, and no reaping is under way after it
  unless a status could not be decoded;
* `JobShell.Supervisor.reapIfNotified_agrees` — reaping if the flag is raised, and reaping;
* `JobShell.Account.notice_after` — **no death goes unnoticed**, after and within any deeds.
-/

import JobShell.Job.Exercise
import JobShell.Proofs.Job.Delivery
import JobShell.Proofs.Job.Elementary
import JobShell.Proofs.Job.Outstanding

set_option autoImplicit false

namespace JobShell

namespace Supervisor

variable {σ : Type} {s : Supervisor σ}

/-- All deaths are decoded, if they can be. -/
theorem Truthful.not_undecodable (h : s.Truthful) (hnamed : Named s.journal) (pid : Int)
    (ending : Ending) : .undecodable pid ending ∉ s.journal := by
  intro hmem
  obtain ⟨before, after, heq⟩ := List.append_of_mem hmem
  obtain ⟨hlast, errno, hdecode⟩ := h.attested before _ after heq
  obtain ⟨-, n, rfl, hn⟩ := Ending.decode_error_iff.1 hdecode
  have hdied : Event.died pid (.killed n) ∈ s.journal := by
    rw [heq]
    exact List.mem_append_left _ (died_of_lastDeath hlast)
  exact hn (hnamed _ hdied)

end Supervisor

/-! ### Changes -/

/-- A supervisor, and whether a reaping is under way: the flag has been cleared for it, and it has
not yet found that no child is dead. -/
structure Watch (σ : Type) where
  supervisor : Supervisor σ
  reaping : Bool

/-- One change. -/
inductive Shifts {σ : Type} : Watch σ → Watch σ → Prop where
  | host (host : σ) (s : Supervisor σ) (reaping : Bool) :
      Shifts ⟨s, reaping⟩ ⟨{ s with host := host }, reaping⟩
  | jobs (jobs : JobTable) (s : Supervisor σ) (reaping : Bool) :
      Shifts ⟨s, reaping⟩ ⟨{ s with jobs := jobs }, reaping⟩
  | note {e : Event} {s : Supervisor σ} {reaping : Bool} : e.isDeath = false →
      Shifts ⟨s, reaping⟩ ⟨{ s with journal := s.journal ++ [e] }, reaping⟩
  /-- A child ends. -/
  | die (death : Int × Ending) (s : Supervisor σ) (reaping : Bool) :
      Shifts ⟨s, reaping⟩ ⟨s.bury death, reaping⟩
  /-- A child is there. -/
  | start (pid : Int) (s : Supervisor σ) (reaping : Bool) :
      Shifts ⟨s, reaping⟩ ⟨{ s with children := s.children ++ [{ pid := pid }] }, reaping⟩
  /-- A dead child is gone. -/
  | unlink {death : Int × Ending} {rest : List Child} {s : Supervisor σ} {reaping : Bool} :
      Supervisor.unlinkDead s.children = some (death, rest) →
        Shifts ⟨s, reaping⟩ ⟨{ s with children := rest }, reaping⟩
  | block (s : Supervisor σ) (reaping : Bool) :
      Shifts ⟨s, reaping⟩ ⟨{ s with signal := s.signal.block }, reaping⟩
  | restore (previous : Bool) (s : Supervisor σ) (reaping : Bool) :
      Shifts ⟨s, reaping⟩ ⟨{ s with signal := s.signal.restore previous }, reaping⟩
  /-- A reaping begins. -/
  | clear (s : Supervisor σ) (reaping : Bool) :
      Shifts ⟨s, reaping⟩ ⟨{ s with signal := s.signal.clear }, true⟩
  /-- A reaping ends. -/
  | reaped {s : Supervisor σ} : s.hasDead = false → Shifts ⟨s, true⟩ ⟨s, false⟩

/-- Any number of changes. -/
abbrev Goes {σ : Type} : Watch σ → Watch σ → Prop := Relation.ReflTransGen Shifts

/-- While a child is dead and waits to be reaped, the flag is raised, or a signal waits, or a
reaping is under way; and a signal waits only behind the mask. -/
structure Watch.Alert {σ : Type} (w : Watch σ) : Prop where
  told : w.supervisor.hasDead = true →
    w.reaping = true ∨ w.supervisor.signal.notified = true ∨ w.supervisor.signal.pending = true
  masked : w.supervisor.signal.pending = true → w.supervisor.signal.blocked = true

section Changes

variable {σ : Type} {v w : Watch σ}

/-- A death raises the flag, or its signal waits behind the mask. -/
theorem ChildSignal.raise_told (c : ChildSignal) :
    c.raise.notified = true ∨ c.raise.pending = true := by
  unfold ChildSignal.raise
  split
  · exact .inr rfl
  · exact .inl rfl

/-- When the mask is put back, a signal that has waited raises the flag or goes on waiting. -/
theorem ChildSignal.restore_told {c : ChildSignal} (previous : Bool)
    (h : c.notified = true ∨ c.pending = true) :
    (c.restore previous).notified = true ∨ (c.restore previous).pending = true := by
  unfold ChildSignal.restore
  split
  · exact .inl rfl
  · exact h

/-- **Every change keeps the invariant.** -/
theorem Shifts.alert (h : Shifts v w) (hv : v.Alert) : w.Alert := by
  cases h with
  | host | jobs | note => exact ⟨hv.told, hv.masked⟩
  | die death s =>
      unfold Supervisor.bury
      split
      · exact ⟨fun _ => .inr s.signal.raise_told, ChildSignal.raise_masked hv.masked⟩
      · exact hv
  | start pid s =>
      refine ⟨fun hdead => hv.told ?_, hv.masked⟩
      simpa [Supervisor.hasDead] using hdead
  | @unlink death rest s _ hunlink =>
      refine ⟨fun hdead => hv.told ?_, hv.masked⟩
      -- the child that is gone was dead, so fewer are dead now
      obtain ⟨c, hc, hending⟩ := List.any_eq_true.1 hdead
      have hmem : c ∈ s.children := (Supervisor.unlinkDead_sublist hunlink).subset hc
      exact List.any_eq_true.2 ⟨c, hmem, hending⟩
  | block s => exact ⟨hv.told, fun _ => rfl⟩
  | restore previous s =>
      refine ⟨fun hdead => ?_, s.signal.restore_masked previous⟩
      exact (hv.told hdead).imp_right (ChildSignal.restore_told previous)
  | clear s => exact ⟨fun _ => .inl rfl, hv.masked⟩
  | reaped hnone => exact ⟨fun hdead => absurd hdead (by simp [hnone]), hv.masked⟩

theorem Goes.alert (h : Goes v w) (hv : v.Alert) : w.Alert := by
  induction h with
  | refl => exact hv
  | tail _ hshift ih => exact hshift.alert ih

theorem Shifts.mem_journal (h : Shifts v w) {e : Event} (he : e ∈ v.supervisor.journal) :
    e ∈ w.supervisor.journal := by
  cases h with
  | host | jobs | start | unlink | block | restore | clear | reaped => exact he
  | note => exact List.mem_append_left _ he
  | die death s => exact Supervisor.mem_journal_bury death he

theorem Goes.mem_journal (h : Goes v w) {e : Event} (he : e ∈ v.supervisor.journal) :
    e ∈ w.supervisor.journal := by
  induction h with
  | refl => exact he
  | tail _ hshift ih => exact hshift.mem_journal ih

/-- Deaths are not forgotten, and without one no signal comes to wait. -/
theorem Shifts.quiet (h : Shifts v w) :
    deathCount v.supervisor.journal ≤ deathCount w.supervisor.journal ∧
      (deathCount w.supervisor.journal = deathCount v.supervisor.journal →
        w.supervisor.signal.pending = true → v.supervisor.signal.pending = true) := by
  cases h with
  | host | jobs | start | unlink | block | clear | reaped => exact ⟨Nat.le_refl _, fun _ h => h⟩
  | note he => simp [deathCount_append, he]
  | die death s =>
      rcases s.bury_eq_or death with hsame | ⟨-, hmore⟩
      · simp only [hsame]
        exact ⟨Nat.le_refl _, fun _ h => h⟩
      · simp only [hmore]
        exact ⟨by omega, fun h => by omega⟩
  | restore previous s =>
      refine ⟨Nat.le_refl _, fun _ hpending => ?_⟩
      simp only [ChildSignal.restore] at hpending
      split at hpending
      · cases hpending
      · exact hpending

theorem Goes.quiet (h : Goes v w) :
    deathCount v.supervisor.journal ≤ deathCount w.supervisor.journal ∧
      (deathCount w.supervisor.journal = deathCount v.supervisor.journal →
        w.supervisor.signal.pending = true → v.supervisor.signal.pending = true) := by
  induction h with
  | refl => exact ⟨Nat.le_refl _, fun _ h => h⟩
  | tail _ hshift ih =>
      obtain ⟨hle, hpending⟩ := ih
      obtain ⟨hle', hpending'⟩ := hshift.quiet
      exact ⟨by omega, fun heq h => hpending (by omega) (hpending' (by omega) h)⟩

end Changes

/-! ### The operations are made of changes -/

namespace Supervisor

variable {σ : Type} {α β : Type}

/-- Changes that are made whether a reaping is under way or not. -/
def GoesOn (s t : Supervisor σ) : Prop := ∀ reaping, Goes ⟨s, reaping⟩ ⟨t, reaping⟩

theorem goesOn_elementary : Elementary (GoesOn : Supervisor σ → Supervisor σ → Prop) where
  refl _ _ := .refl
  trans h h' reaping := (h reaping).trans (h' reaping)
  host host s reaping := .single (.host host s reaping)
  jobs jobs s reaping := .single (.jobs jobs s reaping)
  note _ he _ := .single (.note he)
  die death s reaping := .single (.die death s reaping)
  start pid s reaping := .single (.start pid s reaping)
  unlink hunlink _ := .single (.unlink hunlink)

/-- Some status could not be decoded. -/
def Lost (s : Supervisor σ) : Prop := ∃ pid ending, .undecodable pid ending ∈ s.journal

/-- The first dead child is gone, with its status or without, unless there is none. -/
theorem reapDead_outcome (s : Supervisor σ) :
    Ensures (· = s) (reapDead : Supervised σ (Option WaitStatus)) fun r t =>
      match r with
      | .ok none => t = s ∧ s.hasDead = false
      | .ok (some _) => t.children.length + 1 = s.children.length
      | .error _ => t.Lost := by
  refine (reapDead_unlinks s).post ?_
  rintro (stop | _ | status) t h
  · obtain ⟨pid, ending, errno, rest, -, -, -, rfl⟩ := h
    exact ⟨pid, ending, List.mem_append_right _ (by simp)⟩
  · exact ⟨h.1, hasDead_eq_false_iff.2 h.2⟩
  · obtain ⟨pid, ending, rest, hdead, -, ht⟩ := h
    have hleft : t.children = rest := congrArg Supervisor.children ht
    rw [hleft]
    exact unlinkDead_length hdead

variable [Host σ] (held : Descriptors)

theorem block_goesOn : Across GoesOn (block held : Supervised σ Bool) := by
  refine (goesOn_elementary.enterCall held .sigprocmask).bind fun _ => ?_
  refine Across.get_bind fun s₀ s hs => Ensures.set_bind fun _ _ => Ensures.ofPure ?_
  rintro _ rfl reaping
  exact (hs reaping).tail (.block s reaping)

/-! ### Reaping -/

/-- A reaping that has as many rounds as there are children leaves no dead child, unless it stops
early at a status that cannot be decoded. -/
theorem reapAll_ends (n : Nat) :
    Ensures (fun s : Supervisor σ => s.children.length ≤ n) (reapAll held n)
      (OkOr (fun _ s => s.hasDead = false) fun _ s => s.Lost) := by
  induction n with
  | zero =>
      refine Ensures.ofPure fun s hs => ?_
      have hnil : s.children = [] := List.length_eq_zero_iff.1 (by omega)
      simp [OkOr, hasDead, hnil]
  | succ n ih =>
      refine Ensures.bind (OkOr
        (fun dead t => if dead.isSome then t.children.length ≤ n else t.hasDead = false)
        fun _ t => t.Lost) ?_ ?_ fun _ _ h => h
      · refine Ensures.modify_bind fun s hs => ?_
        have hlength : (s.drifted held).children.length ≤ n + 1 := by rwa [drifted_length]
        -- a round that goes on has taken a child, so the rounds that are left are enough
        refine (reapDead_outcome (s.drifted held)).post ?_
        rintro (stop | _ | status) t h
        · exact h
        · obtain ⟨rfl, hnone⟩ := h
          exact hnone
        · change t.children.length ≤ n
          have hfewer : t.children.length + 1 = (s.drifted held).children.length := h
          omega
      · rintro (_ | status)
        · exact Ensures.ofPure fun _ h => h
        · exact Ensures.modify_bind fun t ht => ih.pre fun u hu => by rw [hu]; exact ht

/-- A state that has been reached by changes.  No reaping is under way, unless one has stopped early
at a status that could not be decoded. -/
def Ran (w : Watch σ) (s : Supervisor σ) : Prop :=
  ∃ reaping, Goes w ⟨s, reaping⟩ ∧ (reaping = true → s.Lost)

section Ran

variable {w : Watch σ} {s : Supervisor σ}

omit [Host σ] in
theorem Ran.trans {t : Supervisor σ} (h : Ran w s) (hgoes : GoesOn s t) : Ran w t := by
  obtain ⟨reaping, hs, hlost⟩ := h
  refine ⟨reaping, hs.trans (hgoes reaping), fun hreaping => ?_⟩
  obtain ⟨pid, ending, hmem⟩ := hlost hreaping
  exact ⟨pid, ending, (hgoes reaping).mem_journal hmem⟩

omit [Host σ] in
theorem Across.ran {body : Supervised σ α} (h : Across GoesOn body) :
    Ensures (Ran w) body fun _ => Ran w :=
  fun s hs => hs.trans (h.run (goesOn_elementary.refl s))

omit [Host σ] in
/-- If all deaths can be decoded, no reaping is under way. -/
theorem Ran.goes (h : Ran w s) (htruthful : s.Truthful) (hnamed : Named s.journal) :
    Goes w ⟨s, false⟩ := by
  obtain ⟨reaping, hs, hlost⟩ := h
  cases reaping with
  | false => exact hs
  | true =>
      obtain ⟨pid, ending, hmem⟩ := hlost rfl
      exact absurd hmem (htruthful.not_undecodable hnamed pid ending)

/-- A reaping clears the flag, and then it is under way until it ends. -/
theorem reapTerminated_ran :
    Ensures (fun s => ∃ reaping, Goes w ⟨s, reaping⟩) (reapTerminated held) fun _ => Ran w := by
  refine takeNotice_bind ?_
  rintro s ⟨reaping, hs⟩
  have hcleared : Goes w ⟨{ s with signal := s.signal.clear }, true⟩ := hs.tail (.clear s reaping)
  refine Ensures.get_bind ?_
  rintro t rfl u rfl
  have hgoes : Goes w ⟨_, true⟩ := hcleared.trans
    ((goesOn_elementary.reapAll held s.children.length).run (goesOn_elementary.refl _) true)
  have hends := reapAll_ends held s.children.length { s with signal := s.signal.clear }
    (Nat.le_refl _)
  rcases hrun : (reapAll held s.children.length).run { s with signal := s.signal.clear } with ⟨r, u⟩
  rw [hrun] at hgoes hends
  cases r with
  | ok _ => exact ⟨false, hgoes.tail (.reaped hends), by simp⟩
  | error stop => exact ⟨true, hgoes, fun _ => hends⟩

omit [Host σ] in
theorem clear_eq_self (h : s.signal.notified = false) :
    { s with signal := s.signal.clear } = s := by
  obtain ⟨host, children, ⟨blocked, pending, notified⟩, jobs, journal⟩ := s
  obtain rfl : notified = false := h
  rfl

theorem reapIfNotified_ran : Ensures (Ran w) (reapIfNotified held) fun _ => Ran w := by
  refine takeNotice_bind fun s hs => ?_
  cases hnotified : s.signal.notified with
  | true =>
      obtain ⟨reaping, hgoes, -⟩ := hs
      refine (reapTerminated_ran held).pre ?_
      rintro _ rfl
      exact ⟨true, hgoes.tail (.clear s reaping)⟩
  | false =>
      refine Ensures.ofPure ?_
      rintro _ rfl
      rw [clear_eq_self hnotified]
      exact hs

theorem collectCompleted_ran : Ensures (Ran w) (collectCompleted held) fun _ => Ran w := by
  refine Ensures.bind _ (block_goesOn held).ran ?_ fun _ _ h => h
  refine fun previous => Ensures.restoringMask (Ensures.post ?_ fun r s hs =>
    Ran.trans hs fun reaping => .single (.restore previous s reaping))
  refine Ensures.bind _ ((reapTerminated_ran held).pre ?_) (fun _ => goesOn_elementary.takeCompleted.ran)
    fun _ _ h => h
  rintro s ⟨reaping, hs, -⟩
  exact ⟨reaping, hs⟩

end Ran

end Supervisor

/-- **Every deed is made of changes**, and no reaping is under way after it unless a status could
not be decoded. -/
theorem Deed.body_ran {σ : Type} [Host σ] {w : Watch σ} (deed : Deed) :
    Ensures (Supervisor.Ran w) (deed.body : Supervised σ (List Job)) fun _ => Supervisor.Ran w := by
  have hsilently : ∀ {α : Type} {body : Supervised σ α},
      (Ensures (Supervisor.Ran w) body fun _ => Supervisor.Ran w) →
        Ensures (Supervisor.Ran w) (Supervisor.silently body) fun _ => Supervisor.Ran w :=
    fun h => Ensures.bind _ h (fun _ => Ensures.ofPure fun _ hs => hs) fun _ _ hs => hs
  cases deed with
  | fork held a => exact hsilently (Supervisor.goesOn_elementary.fork held a).ran
  | register pid jobClass => exact hsilently (Supervisor.goesOn_elementary.register pid jobClass).ran
  | die pid ending =>
      exact hsilently (Supervisor.goesOn_elementary.modify fun s =>
        Supervisor.goesOn_elementary.die (pid, ending) s).ran
  | drift held => exact hsilently (Supervisor.goesOn_elementary.drift held).ran
  | reap held =>
      refine hsilently ((Supervisor.reapTerminated_ran held).pre ?_)
      rintro s ⟨reaping, hs, -⟩
      exact ⟨reaping, hs⟩
  | reapIfNotified held => exact hsilently (Supervisor.reapIfNotified_ran held)
  | wait held => exact hsilently (Supervisor.goesOn_elementary.waitForeground held).ran
  | take => exact Supervisor.goesOn_elementary.takeCompleted.ran
  | report held => exact Supervisor.collectCompleted_ran held
  | block held => exact hsilently (Supervisor.block_goesOn held).ran
  | restore previous =>
      exact hsilently (Supervisor.goesOn_elementary.modify fun s reaping =>
        .single (.restore previous s reaping)).ran

/-! ### Reaping only if the flag is raised -/

namespace Supervisor

variable {σ : Type} {s : Supervisor σ}

/-- The same job table, children and signal. -/
structure Agrees (s t : Supervisor σ) : Prop where
  jobs : s.jobs = t.jobs
  children : s.children = t.children
  signal : s.signal = t.signal

/-- Without a death burials change nothing. -/
theorem foldl_bury_of_quiet {deaths : List (Int × Ending)}
    (h : deathCount (deaths.foldl (fun s death => s.bury death) s).journal = deathCount s.journal) :
    deaths.foldl (fun s death => s.bury death) s = s := by
  induction deaths generalizing s with
  | nil => rfl
  | cons death deaths ih =>
      rw [List.foldl_cons] at h ⊢
      rcases s.bury_eq_or death with hsame | ⟨-, hmore⟩
      · rw [hsame] at h ⊢
        exact ih h
      · have hgoes : Goes ⟨s.bury death, true⟩
            ⟨deaths.foldl (fun s death => s.bury death) (s.bury death), true⟩ :=
          foldl_bury (I := fun t => Goes ⟨s.bury death, true⟩ ⟨t, true⟩)
            (fun t death h => h.tail (.die death t true)) _ _ .refl
        have hle : deathCount (s.bury death).journal ≤ _ := hgoes.quiet.1
        simp only at hle
        omega

variable [Host σ] (held : Descriptors)

/-- When no child is dead and none dies meanwhile, a reaping has nothing to do. -/
theorem reapAll_idle (hdead : s.hasDead = false) (n : Nat) :
    Ensures (· = s) (reapAll held n) fun _ t =>
      deathCount t.journal = deathCount s.journal → t.Agrees s := by
  cases n with
  | zero =>
      refine Ensures.ofPure ?_
      rintro _ rfl -
      exact ⟨rfl, rfl, rfl⟩
  | succ n =>
      by_cases hquiet : deathCount (s.drifted held).journal = deathCount s.journal
      · have hsame : s.drifted held = { s with host := (Host.drift held s.host).2 } :=
          foldl_bury_of_quiet hquiet
        have hnone : (s.drifted held).hasDead = false := by rw [hsame]; exact hdead
        have hreap : Ensures (· = s) (reapOne held) fun r t =>
            r = .ok none ∧ t = s.drifted held := by
          refine Ensures.modify_bind fun t ht => ?_
          rw [ht]
          refine (reapDead_ensures (fun _ => True) (s.drifted held)).post ?_
          rintro (stop | _ | status) u hu
          · exact absurd hu.1 (by simp [hnone])
          · exact ⟨rfl, hu.1⟩
          · exact absurd hu.1 (by simp [hnone])
        refine Ensures.bind _ hreap ?_ fun _ _ h => by simp at h
        rintro (_ | status)
        · refine Ensures.ofPure ?_
          rintro t ⟨-, rfl⟩ -
          rw [hsame]
          exact ⟨rfl, rfl, rfl⟩
        · rintro t ⟨h, -⟩
          simp at h
      · -- a child has died, and that is not forgotten
        have hgoes : Ensures (· = s) (reapAll held (n + 1)) fun _ t => GoesOn (s.drifted held) t := by
          refine Ensures.bind (fun _ t => GoesOn (s.drifted held) t) ?_ ?_ fun _ _ h => h
          · refine Ensures.modify_bind ?_
            rintro _ rfl
            exact goesOn_elementary.reapDead.from (goesOn_elementary.refl _)
          · rintro (_ | status)
            · exact Across.pure _ _
            · exact ((goesOn_elementary.book status).bind fun _ =>
                goesOn_elementary.reapAll held n) _
        refine hgoes.post fun _ t ht heq => ?_
        have hle := (goesOn_elementary.drifted held s true).quiet.1
        have hle' := (ht true).quiet.1
        simp only at hle hle'
        omega

/-- **Reaping only if the flag is raised comes to the same as reaping**, if the flag is raised
whenever a child is dead.  Where it is not raised, no child may die during the call: a reaping would
take notice of it. -/
theorem reapIfNotified_agrees (htold : s.hasDead = true → s.signal.notified = true)
    (hcall : s.signal.notified = true ∨
      deathCount ((reapTerminated held).run s).2.journal = deathCount s.journal) :
    ((reapIfNotified held).run s).2.Agrees ((reapTerminated held).run s).2 := by
  cases hnotified : s.signal.notified with
  | true =>
      -- the flag is cleared twice, which comes to the same as once
      have hrun : (reapIfNotified held).run s =
          (reapTerminated held).run { s with signal := s.signal.clear } := by
        change (if s.signal.notified then reapTerminated held else pure ()).run _ = _
        rw [if_pos hnotified]
      rw [hrun]
      exact ⟨rfl, rfl, rfl⟩
  | false =>
      have hrun : (reapIfNotified held).run s = (.ok (), s) := by
        change (if s.signal.notified then reapTerminated held else pure ()).run
          { s with signal := s.signal.clear } = _
        rw [hnotified, clear_eq_self hnotified]
        rfl
      have hnone : s.hasDead = false := by
        cases hdead : s.hasDead with
        | false => rfl
        | true => rw [htold hdead] at hnotified; cases hnotified
      have hquiet := hcall.resolve_left (by simp [hnotified])
      have hidle : ((reapTerminated held).run s).2.Agrees s := by
        have hreap : (reapTerminated held).run s = (reapAll held s.children.length).run s := by
          change (reapAll held s.children.length).run { s with signal := s.signal.clear } = _
          rw [clear_eq_self hnotified]
        rw [hreap] at hquiet ⊢
        exact reapAll_idle held hnone _ s rfl hquiet
      rw [hrun]
      exact ⟨hidle.jobs.symm, hidle.children.symm, hidle.signal.symm⟩

/-- If the signal is not in the mask, none waits when a scope is entered. -/
theorem block_entered :
    Ensures (fun s : Supervisor σ => s.signal.blocked = false ∧ s.signal.pending = false)
      (block held) fun _ t => t.signal.pending = false := by
  have hbury : ∀ (t : Supervisor σ) (death : Int × Ending),
      t.signal.blocked = false ∧ t.signal.pending = false →
        (t.bury death).signal.blocked = false ∧ (t.bury death).signal.pending = false := by
    intro t death h
    unfold bury ChildSignal.raise
    split
    · simp [h.1, h.2]
    · exact h
  have hcall : Ensures
      (fun s : Supervisor σ => s.signal.blocked = false ∧ s.signal.pending = false)
      (enterCall held .sigprocmask) fun _ t => t.signal.pending = false := by
    refine Ensures.modify_bind fun s hs => ?_
    change Ensures (· = s.drifted held) _ _
    have hdrifted : (s.drifted held).signal.pending = false :=
      (foldl_bury hbury _ { s with host := (Host.drift held s.host).2 } hs).2
    refine Ensures.get_bind ?_
    rintro t rfl
    cases Host.refuses .sigprocmask (s.drifted held).host with
    | none => exact Ensures.ofPure fun _ h => h ▸ hdrifted
    | some errno => exact Ensures.ofThrow fun _ h => h ▸ hdrifted
  refine Ensures.bind _ hcall ?_ fun _ _ h => h
  refine fun _ => Ensures.get_bind fun s hs => Ensures.set_bind fun _ _ => Ensures.ofPure ?_
  rintro _ rfl
  exact hs

omit [Host σ] in
theorem silently_run_snd {α : Type} (body : Supervised σ α) (s : Supervisor σ) :
    ((silently body).run s).2 = (body.run s).2 := by
  rw [silently, run_bind]
  rcases body.run s with ⟨r, t⟩
  cases r <;> rfl

end Supervisor

/-! ### Deeds -/

namespace Account

variable {σ : Type}

/-- A new supervisor, with the signal in its mask or not. -/
def fresh (host : σ) (blocked : Bool) : Account σ :=
  { supervisor := { host := host, signal := { blocked := blocked } } }

theorem fresh_balanced (host : σ) (blocked : Bool) : (fresh host blocked).Balanced :=
  ⟨⟨by simp [fresh], by simp [fresh], attested_nil⟩, [], [], rfl, rfl, rfl⟩

theorem fresh_alert (host : σ) (blocked : Bool) :
    (Watch.mk (fresh host blocked).supervisor false).Alert :=
  ⟨by simp [fresh, Supervisor.hasDead], by simp [fresh]⟩

variable [Host σ]

theorem perform_ran {w : Watch σ} {x : Account σ} (hx : Supervisor.Ran w x.supervisor)
    (deed : Deed) : Supervisor.Ran w (x.perform deed).supervisor :=
  deed.body_ran x.supervisor hx

theorem foldl_perform_ran {w : Watch σ} {x : Account σ} (hx : Supervisor.Ran w x.supervisor)
    (deeds : List Deed) : Supervisor.Ran w (deeds.foldl perform x).supervisor := by
  induction deeds generalizing x with
  | nil => exact hx
  | cons deed deeds ih => exact ih (perform_ran hx deed)

/-- Deeds are changes, and no reaping is under way after them. -/
theorem foldl_perform_goes {x : Account σ} (hx : x.Balanced) (deeds : List Deed)
    (hnamed : Named (deeds.foldl perform x).supervisor.journal) :
    Goes ⟨x.supervisor, false⟩ ⟨(deeds.foldl perform x).supervisor, false⟩ := by
  have hran : Supervisor.Ran ⟨x.supervisor, false⟩ (deeds.foldl perform x).supervisor :=
    foldl_perform_ran ⟨false, .refl, by simp⟩ deeds
  exact hran.goes (hx.foldl_perform deeds).truthful hnamed

/-- What a deed leaves that hands nothing out. -/
theorem perform_of_silently {α : Type} {x : Account σ} {deed : Deed} {body : Supervised σ α}
    (h : deed.body = Supervisor.silently body) :
    (x.perform deed).supervisor = (body.run x.supervisor).2 := by
  rw [← Supervisor.silently_run_snd, ← h]
  rfl

/-- **In a scope in which no child has died the flag is raised whenever a child is dead.** -/
theorem told_in_scope {x : Account σ} (hx : x.Balanced)
    (halert : (Watch.mk x.supervisor false).Alert)
    (hunblocked : x.supervisor.signal.blocked = false) (held : Descriptors) (inner : List Deed)
    (hnamed : Named (inner.foldl perform (x.perform (.block held))).supervisor.journal)
    (hquiet : deathCount (inner.foldl perform (x.perform (.block held))).supervisor.journal =
      deathCount (x.perform (.block held)).supervisor.journal)
    (hdead : (inner.foldl perform (x.perform (.block held))).supervisor.hasDead = true) :
    (inner.foldl perform (x.perform (.block held))).supervisor.signal.notified = true := by
  have hpending : x.supervisor.signal.pending = false := by
    rw [← Bool.not_eq_true]
    intro hpending
    rw [halert.masked hpending] at hunblocked
    cases hunblocked
  have hentered : (x.perform (.block held)).supervisor.signal.pending = false := by
    rw [perform_of_silently rfl]
    exact Supervisor.block_entered held x.supervisor ⟨hunblocked, hpending⟩
  have hscope := foldl_perform_goes (hx.perform (.block held)) inner hnamed
  have hall := foldl_perform_goes hx (.block held :: inner) hnamed
  rcases (hall.alert halert).told hdead with h | h | h
  · cases h
  · exact h
  · -- a signal that waits now has waited since the scope was entered
    rw [hscope.quiet.2 hquiet h] at hentered
    cases hentered

/-- **No death goes unnoticed.**  After any deeds on a new supervisor, on any host, if all children
exit or are killed by signals with names:

* while a child is dead and waits to be reaped, the flag is raised or a signal waits behind the
  mask.  The deeds are made of changes, and the same holds at every point of them where no reaping
  is under way that has cleared the flag;
* in a scope that is entered while the signal is not in the mask, after whatever has been done in it
  without a child dying, reaping if the flag is raised leaves the same jobs, children and signal as
  reaping.  If the flag is not raised then, this supposes that no child dies during the call. -/
theorem notice_after (host : σ) (blocked : Bool) (deeds : List Deed) :
    let x := deeds.foldl perform (fresh host blocked)
    (Named x.supervisor.journal →
      (x.supervisor.hasDead = true →
        x.supervisor.signal.notified = true ∨ x.supervisor.signal.pending = true) ∧
      Goes ⟨(fresh host blocked).supervisor, false⟩ ⟨x.supervisor, false⟩ ∧
      ∀ w, Goes ⟨(fresh host blocked).supervisor, false⟩ w → Goes w ⟨x.supervisor, false⟩ →
        w.Alert) ∧
    (x.supervisor.signal.blocked = false → ∀ (held held' : Descriptors) (inner : List Deed),
      let entered := x.perform (.block held)
      let y := inner.foldl perform entered
      Named y.supervisor.journal →
      deathCount y.supervisor.journal = deathCount entered.supervisor.journal →
      y.supervisor.signal.notified = true ∨
        deathCount (y.perform (.reap held')).supervisor.journal = deathCount y.supervisor.journal →
      (y.perform (.reapIfNotified held')).supervisor.Agrees
        (y.perform (.reap held')).supervisor) := by
  intro x
  have hx : x.Balanced := (fresh_balanced host blocked).foldl_perform deeds
  have hgoes : Named x.supervisor.journal →
      Goes ⟨(fresh host blocked).supervisor, false⟩ ⟨x.supervisor, false⟩ :=
    foldl_perform_goes (fresh_balanced host blocked) deeds
  have halert : ∀ w, Goes ⟨(fresh host blocked).supervisor, false⟩ w → w.Alert :=
    fun w hw => hw.alert (fresh_alert host blocked)
  refine ⟨fun hnamed => ⟨fun hdead => ?_, hgoes hnamed, fun w hw _ => halert w hw⟩, ?_⟩
  · exact ((halert _ (hgoes hnamed)).told hdead).resolve_left (by simp)
  · intro hunblocked held held' inner entered y hnamed hquiet hcall
    have hx_named : Named x.supervisor.journal := fun e he =>
      hnamed e ((foldl_perform_goes hx (.block held :: inner) hnamed).mem_journal he)
    have htold := told_in_scope hx (halert _ (hgoes hx_named)) hunblocked held inner hnamed hquiet
    rw [perform_of_silently rfl, perform_of_silently rfl]
    rw [perform_of_silently rfl] at hcall
    exact Supervisor.reapIfNotified_agrees held' htold hcall

/-- A child that is killed before a scope is entered, and listed in it: the flag is raised, and both
ways of reaping reap the child. -/
theorem notice_after_killed :
    let x := [.fork {} ⟨⟨utf8 "a", [], []⟩, .background, 0, none, {}, 0⟩, .die 1 (.killed 9)].foldl
      perform (fresh Still.mk false)
    let y := [.register 1 .background].foldl perform (x.perform (.block {}))
    (x.supervisor.hasDead = true ∧
      (x.supervisor.signal.notified = true ∨ x.supervisor.signal.pending = true)) ∧
    y.supervisor.hasDead = true ∧
      (y.perform (.reapIfNotified {})).supervisor.Agrees (y.perform (.reap {})).supervisor := by
  have hnotice := notice_after Still.mk false
    [.fork {} ⟨⟨utf8 "a", [], []⟩, .background, 0, none, {}, 0⟩, .die 1 (.killed 9)]
  refine ⟨⟨by decide +kernel, (hnotice.1 (by decide +kernel)).1 (by decide +kernel)⟩,
    by decide +kernel, ?_⟩
  exact hnotice.2 (by decide +kernel) {} {} [.register 1 .background] (by decide +kernel)
    (by decide +kernel) (.inl (by decide +kernel))

end Account

end JobShell
