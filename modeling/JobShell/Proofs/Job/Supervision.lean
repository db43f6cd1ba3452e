/-
**What can happen to the supervisor.**

The operations on the job table are put together from few moves: time passes, the host is asked for
something, the mask or the flag changes, a child is started and listed, a child is waited for, a
dead child is reaped and booked.  There are also few reasons for which an operation stops early.
This module lists both, and shows of every operation that it makes such moves only, and stops for
such a reason.  What all moves keep is thereby kept by every operation, on every host and in
whatever order the children end.

Reaping a child and booking its status is one move, since nothing comes between them.

Main definitions:

* `JobShell.Signal.loss?` — the signals that the shell cannot send to itself and go on;
* `JobShell.Supervisor.Moves`, `JobShell.Supervisor.Reaches` — one move, and any number of them;
* `JobShell.Supervisor.Stops` — the reasons to stop early;
* `JobShell.Supervisor.Comes` — what a computation comes to.

Main results:

* `JobShell.Supervisor.Reaches.keeps`, `JobShell.Supervisor.Comes.keeps` — what moves keep is kept;
* `JobShell.Supervisor.reapTerminated_comes`, `JobShell.Supervisor.reapIfNotified_comes`,
  `JobShell.Supervisor.waitForeground_comes`, `JobShell.Supervisor.block_comes`,
  `JobShell.Supervisor.collectCompleted_comes` — the operations make such moves only.
-/

import JobShell.Proofs.Job.Table
import JobShell.Proofs.Outcome
import Mathlib.Logic.Relation

set_option autoImplicit false

namespace JobShell

/-- How a signal that the shell sends to itself keeps it from going on, if it does. -/
def Signal.loss? (signal : Nat) : Option Loss :=
  if signal = interrupt ∨ signal = pipe ∨ signal = child then none
  else
    match default signal with
    | .ends => some (.killed signal)
    | .stops => some .stuck
    | .continues | .nothing => none

namespace ChildSignal

/-- Sending the signal does not lower the flag. -/
theorem raise_notified {signal : ChildSignal} (h : signal.notified = true) :
    signal.raise.notified = true := by
  unfold raise
  split
  · exact h
  · rfl

theorem raise_blocked (signal : ChildSignal) : signal.raise.blocked = signal.blocked := by
  unfold raise
  split <;> rfl

/-- The mask is put back to what it was, whether a signal is let through or not. -/
theorem restore_blocked (signal : ChildSignal) (previous : Bool) :
    (signal.restore previous).blocked = previous := by
  unfold restore
  split
  · next hwaits => exact hwaits.1.symm
  · rfl

/-- A signal that waits is let through if the mask does not hold it any more, and raises the flag. -/
theorem restore_notified (signal : ChildSignal) (previous : Bool) :
    (signal.restore previous).notified = (signal.notified || (!previous && signal.pending)) := by
  obtain ⟨blocked, pending, notified⟩ := signal
  cases previous <;> cases pending <;> simp [restore]

theorem raise_masked {signal : ChildSignal} (h : signal.pending = true → signal.blocked = true) :
    signal.raise.pending = true → signal.raise.blocked = true := by
  unfold raise
  split
  · next hblocked => exact fun _ => hblocked
  · exact h

theorem restore_masked (signal : ChildSignal) (previous : Bool) :
    (signal.restore previous).pending = true → (signal.restore previous).blocked = true := by
  unfold restore
  split
  · exact fun h => h
  · next hwaits =>
      intro hpending
      rw [not_and] at hwaits
      by_contra hprevious
      exact hwaits (by simpa using hprevious) hpending

end ChildSignal

namespace Supervisor

variable {σ : Type} [Host σ]

/-! ### Moves -/

/-- Time passes, and the children that end meanwhile are buried. -/
def drifted (held : Descriptors) (s : Supervisor σ) : Supervisor σ :=
  (Host.drift held s.host).1.foldl (fun s death => s.bury death)
    { s with host := (Host.drift held s.host).2 }

/-- A child is gone from the kernel's list, and its status is booked. -/
def reaped (pid : Int) (status : WaitStatus) (rest : List Child) (s : Supervisor σ) :
    Supervisor σ :=
  { s with
    children := rest
    jobs := (s.jobs.record status).2
    journal := s.journal ++ [.reaped status (s.jobs.classOf? pid)] }

/-- A child is gone from the kernel's list, and its status is lost. -/
def dropped (pid : Int) (ending : Ending) (rest : List Child) (s : Supervisor σ) : Supervisor σ :=
  { s with children := rest, journal := s.journal ++ [.undecodable pid ending] }

/-- A child is forked. -/
def forked (a : Assignment) (s : Supervisor σ) : Supervisor σ :=
  { s with
    host := Host.start s.choosePid a s.host
    children := s.children ++ [{ pid := s.choosePid }]
    journal := s.journal ++ [.forked s.choosePid a.jobClass] }

/-- What can happen to a supervisor that launches children with some assignments. -/
inductive Moves (launching : Assignment → Prop) : Supervisor σ → Supervisor σ → Prop where
  | drift (held : Descriptors) (s : Supervisor σ) : Moves launching s (s.drifted held)
  | pipe (s : Supervisor σ) : Moves launching s { s with host := (Host.newPipe s.host).2 }
  | write (file : OpenFile) (text : Bytes) (s : Supervisor σ) :
      Moves launching s { s with host := Host.write file text s.host }
  | kill {pid : Int} {signal : Nat} {self : Bool} {host : σ} {s : Supervisor σ} :
      Host.kill pid signal s.host = .ok (self, host) → Moves launching s { s with host := host }
  | signal (signal : ChildSignal) (s : Supervisor σ) : Moves launching s { s with signal := signal }
  | builtin (name : Bytes) (s : Supervisor σ) :
      Moves launching s { s with journal := s.journal ++ [.builtin name] }
  | launch {a : Assignment} {jobs : JobTable} {s : Supervisor σ} :
      launching a → s.jobs.register s.choosePid a.jobClass = some jobs →
        Moves launching s { s.forked a with jobs := jobs }
  /-- A wait call is made. -/
  | wait {s : Supervisor σ} : s.jobs.hasForeground = true →
      Moves launching s { s with journal := s.journal ++ [.waited] }
  /-- The wait call that blocks is over. -/
  | wake {held : Descriptors} {death : Int × Ending} {host : σ} {s : Supervisor σ} :
      s.children ≠ [] → s.hasDead = false → Host.await held s.host = .ok (death, host) →
        Moves launching s ({ s with host := host }.bury death)
  | reap {pid : Int} {ending : Ending} {status : WaitStatus} {rest : List Child}
      {s : Supervisor σ} :
      unlinkDead s.children = some ((pid, ending), rest) → ending.decode pid = .ok status →
        Moves launching s (s.reaped pid status rest)

/-- Any number of moves. -/
abbrev Reaches (launching : Assignment → Prop) : Supervisor σ → Supervisor σ → Prop :=
  Relation.ReflTransGen (Moves launching)

/-- The reasons to stop early, with the supervisor before and after it. -/
inductive Stops (launching : Assignment → Prop) : Supervisor σ → Stop → Supervisor σ → Prop where
  /-- The host lets a call fail. -/
  | refused {call : SystemCall} {errno : Errno} {s : Supervisor σ} :
      Host.refuses call s.host = some errno → Stops launching s (.failed ⟨call, errno⟩) s
  | undecodable {pid : Int} {ending : Ending} {errno : Errno} {rest : List Child}
      {s : Supervisor σ} :
      unlinkDead s.children = some ((pid, ending), rest) → ending.decode pid = .error errno →
        Stops launching s (.failed ⟨.waitpid, errno⟩) (s.dropped pid ending rest)
  /-- A foreground job is listed, and there is no child at all. -/
  | childless {s : Supervisor σ} : s.jobs.hasForeground = true → s.children = [] →
      Stops launching s (.failed ⟨.waitpid, Errno.noChild⟩) s
  /-- The host says that it will not let the shell go on. -/
  | lose {held : Descriptors} {loss : Loss} {host : σ} {s : Supervisor σ} :
      s.children ≠ [] → s.hasDead = false → Host.await held s.host = .error (loss, host) →
        Stops launching s (.lost loss) { s with host := host }
  /-- The host speaks of a death that is none of a child. -/
  | doze {held : Descriptors} {death : Int × Ending} {host : σ} {s : Supervisor σ} :
      s.children ≠ [] → s.hasDead = false → Host.await held s.host = .ok (death, host) →
        ({ s with host := host }.bury death).hasDead = false →
          Stops launching s (.lost .stuck) ({ s with host := host }.bury death)
  /-- A process that is to be listed is listed already. -/
  | relisted {a : Assignment} {s : Supervisor σ} :
      launching a → s.jobs.register s.choosePid a.jobClass = none →
        Stops launching s .assertionFailed (s.forked a)
  /-- The shell sends itself a signal that ends or stops it. -/
  | struck {pid : Int} {signal : Nat} {host : σ} {loss : Loss} {s : Supervisor σ} :
      Host.kill pid signal s.host = .ok (true, host) → Signal.loss? signal = some loss →
        Stops launching s (.lost loss) { s with host := host }

/-- What a computation comes to that starts at `s₀`. -/
def Comes {α : Type} (launching : Assignment → Prop) (s₀ : Supervisor σ) :
    Except Stop α → Supervisor σ → Prop
  | .ok _, s => Reaches launching s₀ s
  | .error stop, s => ∃ s₁ s₂, Reaches launching s₀ s₁ ∧ Stops launching s₁ stop s₂ ∧ Reaches launching s₂ s

section Keeping

variable {launching : Assignment → Prop} {I : Supervisor σ → Prop} {s s' : Supervisor σ}

/-- **What every move keeps is kept by any number of them.** -/
theorem Reaches.keeps (h : Reaches launching s s')
    (hmove : ∀ u v, Moves launching u v → I u → I v) (hs : I s) : I s' := by
  induction h with
  | refl => exact hs
  | tail _ hstep ih => exact hmove _ _ hstep ih

/-- **What every move keeps, and every stop, is kept by every computation.** -/
theorem Comes.keeps {α : Type} {r : Except Stop α} (h : Comes launching s r s')
    (hmove : ∀ u v, Moves launching u v → I u → I v)
    (hstop : ∀ u stop v, Stops launching u stop v → I u → I v) (hs : I s) : I s' := by
  cases r with
  | ok a => exact Reaches.keeps h hmove hs
  | error stop =>
      obtain ⟨s₁, s₂, h₁, hstep, h₂⟩ := h
      exact h₂.keeps hmove (hstop _ _ _ hstep (h₁.keeps hmove hs))

theorem Moves.mono {launching' : Assignment → Prop} (h : Moves launching s s')
    (hle : ∀ a, launching a → launching' a) : Moves launching' s s' := by
  cases h with
  | drift held => exact .drift held s
  | pipe => exact .pipe s
  | write file text => exact .write file text s
  | kill h => exact .kill h
  | signal signal => exact .signal signal s
  | builtin name => exact .builtin name s
  | launch ha hregister => exact .launch (hle _ ha) hregister
  | wait h => exact .wait h
  | wake hchildren hdead hawait => exact .wake hchildren hdead hawait
  | reap hdead hdecode => exact .reap hdead hdecode

theorem Stops.mono {launching' : Assignment → Prop} {stop : Stop} (h : Stops launching s stop s')
    (hle : ∀ a, launching a → launching' a) : Stops launching' s stop s' := by
  cases h with
  | refused h => exact .refused h
  | undecodable hdead hdecode => exact .undecodable hdead hdecode
  | childless hforeground hchildren => exact .childless hforeground hchildren
  | lose hchildren hdead hawait => exact .lose hchildren hdead hawait
  | doze hchildren hdead hawait hdead' => exact .doze hchildren hdead hawait hdead'
  | relisted ha hregister => exact .relisted (hle _ ha) hregister
  | struck hkill hloss => exact .struck hkill hloss

theorem Comes.mono {launching' : Assignment → Prop} {α : Type} {r : Except Stop α}
    (h : Comes launching s r s') (hle : ∀ a, launching a → launching' a) :
    Comes launching' s r s' := by
  have hmono : ∀ u v : Supervisor σ, Reaches launching u v → Reaches launching' u v :=
    Relation.ReflTransGen.mono fun _ _ hmove => Moves.mono hmove hle
  cases r with
  | ok a => exact hmono _ _ h
  | error stop =>
      obtain ⟨s₁, s₂, h₁, hstop, h₂⟩ := h
      exact ⟨s₁, s₂, hmono _ _ h₁, hstop.mono hle, hmono _ _ h₂⟩

/-- What every move and every stop keeps is kept by a computation of moves. -/
theorem ensures_of_comes {α : Type} {body : Supervised σ α}
    (h : ∀ s₀, Ensures (Reaches launching s₀) body (Comes launching s₀))
    (hmove : ∀ u v, Moves launching u v → I u → I v)
    (hstop : ∀ u stop v, Stops launching u stop v → I u → I v) : Ensures I body fun _ => I :=
  fun s hs => (h s s .refl).keeps hmove hstop hs

/-- What is ensured wherever moves have led is ensured at the beginning. -/
theorem ensures_of_reaches {α : Type} {body : Supervised σ α}
    {Q : Except Stop α → Supervisor σ → Prop} (h : Ensures (Reaches launching s) body Q) :
    Ensures (· = s) body Q := by
  refine h.pre ?_
  rintro _ rfl
  exact .refl

theorem Comes.tail {α : Type} {r : Except Stop α} {s₀ : Supervisor σ}
    (h : Comes launching s₀ r s) (hstep : Moves launching s s') : Comes launching s₀ r s' := by
  cases r with
  | ok a => exact Relation.ReflTransGen.tail h hstep
  | error stop =>
      obtain ⟨s₁, s₂, h₁, hstop, h₂⟩ := h
      exact ⟨s₁, s₂, h₁, hstop, h₂.tail hstep⟩

theorem Comes.of_reaches {α : Type} {r : Except Stop α} {s₀ : Supervisor σ}
    (h : Reaches launching s₀ s) (hs : Comes launching s r s') : Comes launching s₀ r s' := by
  cases r with
  | ok a => exact Relation.ReflTransGen.trans h hs
  | error stop =>
      obtain ⟨s₁, s₂, h₁, hstop, h₂⟩ := hs
      exact ⟨s₁, s₂, h.trans h₁, hstop, h₂⟩

theorem Reaches.stop {s₀ : Supervisor σ} {stop : Stop} {α : Type} (h : Reaches launching s₀ s)
    (hstop : Stops launching s stop s') : Comes launching s₀ (.error stop : Except Stop α) s' :=
  ⟨s, s', h, hstop, .refl⟩

end Keeping

/-! ### Burying and unlinking -/

section Children

variable {s : Supervisor σ}

omit [Host σ] in
@[simp] theorem bury_jobs (death : Int × Ending) : (s.bury death).jobs = s.jobs := by
  unfold bury
  split <;> rfl

omit [Host σ] in
@[simp] theorem bury_host (death : Int × Ending) : (s.bury death).host = s.host := by
  unfold bury
  split <;> rfl

omit [Host σ] in
@[simp] theorem bury_blocked (death : Int × Ending) :
    (s.bury death).signal.blocked = s.signal.blocked := by
  unfold bury
  split
  · exact ChildSignal.raise_blocked _
  · rfl

omit [Host σ] in
/-- A death takes no child from the kernel's list. -/
theorem bury_pids (death : Int × Ending) :
    (s.bury death).children.map (·.pid) = s.children.map (·.pid) := by
  unfold bury
  split
  · rw [List.map_map]
    refine List.map_congr_left fun c _ => ?_
    simp only [Function.comp_apply]
    split <;> rfl
  · rfl

omit [Host σ] in
/-- What every burial keeps is kept while time passes. -/
theorem foldl_bury {I : Supervisor σ → Prop} (h : ∀ s death, I s → I (bury death s)) :
    ∀ (deaths : List (Int × Ending)) (s : Supervisor σ), I s →
      I (deaths.foldl (fun s death => s.bury death) s)
  | [], _, hs => hs
  | death :: deaths, s, hs => foldl_bury h deaths (s.bury death) (h s death hs)

@[simp] theorem drifted_jobs (held : Descriptors) : (s.drifted held).jobs = s.jobs :=
  foldl_bury (I := fun t => t.jobs = s.jobs) (fun t death h => by simpa using h) _ _ rfl

@[simp] theorem drifted_host (held : Descriptors) :
    (s.drifted held).host = (Host.drift held s.host).2 :=
  foldl_bury (I := fun t => t.host = (Host.drift held s.host).2)
    (fun t death h => by simpa using h) _ _ rfl

@[simp] theorem drifted_blocked (held : Descriptors) :
    (s.drifted held).signal.blocked = s.signal.blocked :=
  foldl_bury (I := fun t => t.signal.blocked = s.signal.blocked)
    (fun t death h => by simpa using h) _ _ rfl

theorem drifted_pids (held : Descriptors) :
    (s.drifted held).children.map (·.pid) = s.children.map (·.pid) :=
  foldl_bury (I := fun t => t.children.map (·.pid) = s.children.map (·.pid))
    (fun t death h => by rw [bury_pids, h]) _ _ rfl

theorem drifted_length (held : Descriptors) :
    (s.drifted held).children.length = s.children.length := by
  simpa using congrArg List.length (drifted_pids (s := s) held)

omit [Host σ] in
theorem bury_length (death : Int × Ending) :
    (s.bury death).children.length = s.children.length := by
  simpa using congrArg List.length (bury_pids (s := s) death)

end Children

/-- The child that is unlinked is the first dead one. -/
theorem unlinkDead_eq_some {children rest : List Child} {death : Int × Ending}
    (h : unlinkDead children = some (death, rest)) :
    ∃ before after, children = before ++ ⟨death.1, some death.2⟩ :: after ∧
      rest = before ++ after ∧ ∀ c ∈ before, c.ending = none := by
  induction children generalizing rest with
  | nil => simp [unlinkDead] at h
  | cons c children ih =>
      obtain ⟨pid, ending⟩ := c
      cases ending with
      | some ending =>
          obtain ⟨rfl, rfl⟩ : (pid, ending) = death ∧ children = rest := by
            simpa [unlinkDead] using h
          exact ⟨[], children, rfl, rfl, by simp⟩
      | none =>
          obtain ⟨⟨death', rest'⟩, h', heq⟩ := Option.map_eq_some_iff.1 h
          obtain ⟨rfl, rfl⟩ : death' = death ∧ ⟨pid, none⟩ :: rest' = rest := by simpa using heq
          obtain ⟨before, after, rfl, rfl, hbefore⟩ := ih h'
          refine ⟨⟨pid, none⟩ :: before, after, rfl, rfl, ?_⟩
          simpa using hbefore

/-- The child that is unlinked was there. -/
theorem mem_of_unlinkDead {children rest : List Child} {pid : Int} {ending : Ending}
    (h : unlinkDead children = some ((pid, ending), rest)) : ⟨pid, some ending⟩ ∈ children := by
  obtain ⟨before, after, rfl, -, -⟩ := unlinkDead_eq_some h
  exact List.mem_append_right _ (List.mem_cons_self ..)

/-- The others stay, in their order. -/
theorem unlinkDead_sublist {children rest : List Child} {death : Int × Ending}
    (h : unlinkDead children = some (death, rest)) : rest.Sublist children := by
  obtain ⟨before, after, rfl, rfl, -⟩ := unlinkDead_eq_some h
  exact (List.sublist_cons_self ..).append_left before

theorem unlinkDead_length {children rest : List Child} {death : Int × Ending}
    (h : unlinkDead children = some (death, rest)) : rest.length + 1 = children.length := by
  obtain ⟨before, after, rfl, rfl, -⟩ := unlinkDead_eq_some h
  simp only [List.length_append, List.length_cons]
  omega

/-- If no two children have the same process id, those that stay are those with another one. -/
theorem unlinkDead_eq_filter {children rest : List Child} {death : Int × Ending}
    (hdistinct : (children.map (·.pid)).Nodup) (h : unlinkDead children = some (death, rest)) :
    rest = children.filter (·.pid ≠ death.1) := by
  obtain ⟨before, after, rfl, rfl, -⟩ := unlinkDead_eq_some h
  rw [List.map_append, List.map_cons, List.nodup_middle, List.nodup_cons, ← List.map_append]
    at hdistinct
  have hothers : ∀ c ∈ before ++ after, c.pid ≠ death.1 := by
    intro c hc heq
    exact hdistinct.1 (List.mem_map.2 ⟨c, hc, heq⟩)
  rw [List.filter_append, List.filter_cons_of_neg (by simp), ← List.filter_append, eq_comm,
    List.filter_eq_self]
  simpa using hothers

theorem unlinkDead_eq_none_iff {children : List Child} :
    unlinkDead children = none ↔ ∀ c ∈ children, c.ending = none := by
  induction children with
  | nil => simp [unlinkDead]
  | cons c children ih =>
      obtain ⟨pid, ending⟩ := c
      cases ending with
      | some ending => simp [unlinkDead]
      | none => simp [unlinkDead, ih]

omit [Host σ] in
theorem hasDead_eq_false_iff {s : Supervisor σ} :
    s.hasDead = false ↔ unlinkDead s.children = none := by
  rw [unlinkDead_eq_none_iff]
  simp [hasDead, Option.isSome_eq_false_iff]

/-! ### The operations -/

section Operations

variable {launching : Assignment → Prop} {s₀ : Supervisor σ} (held : Descriptors)

/-- A call is made, unless the host lets it fail. -/
theorem enterCall_comes (call : SystemCall) :
    Ensures (Reaches launching s₀) (enterCall held call) (Comes launching s₀) := by
  refine Ensures.modify_bind fun s hs => ?_
  change Ensures (· = s.drifted held) _ _
  have hdrifted : Reaches launching s₀ (s.drifted held) := hs.tail (.drift held s)
  refine Ensures.get_bind ?_
  rintro t rfl
  cases hrefuses : Host.refuses call (s.drifted held).host with
  | none =>
      refine Ensures.ofPure ?_
      rintro t rfl
      exact hdrifted
  | some errno =>
      refine Ensures.ofThrow ?_
      rintro t rfl
      exact hdrifted.stop (.refused hrefuses)

/-- A fork makes a child, unless the host lets it fail. -/
theorem fork_ensures (launching : Assignment → Prop) (s₀ : Supervisor σ) (a : Assignment) :
    Ensures (Reaches launching s₀) (fork held a) fun r t =>
      match r with
      | .ok pid => ∃ s, Reaches launching s₀ s ∧ pid = s.choosePid ∧ t = s.forked a
      | .error stop => Comes launching s₀ (.error stop : Except Stop Unit) t := by
  refine Ensures.bind _ (enterCall_comes held .fork) ?_ fun _ _ h => h
  refine fun _ => Ensures.get_bind fun s (hs : Reaches launching s₀ s) => ?_
  refine Ensures.modify_bind ?_
  rintro _ rfl
  refine Ensures.modify_bind ?_
  rintro _ rfl
  refine Ensures.ofPure ?_
  rintro _ rfl
  exact ⟨_, hs, rfl, rfl⟩

/-- **A child that is forked and listed is launched**, unless it is listed already. -/
theorem launch_comes {a : Assignment} (ha : launching a) :
    Ensures (Reaches launching s₀)
      (do let pid ← fork held a; register pid a.jobClass) (Comes launching s₀) := by
  refine Ensures.bind _ (fork_ensures held launching s₀ a) ?_ fun _ _ h => h
  refine fun pid => Ensures.of_eq ?_
  rintro _ ⟨s, hs, rfl, rfl⟩
  refine Ensures.get_bind ?_
  rintro _ rfl
  cases hregister : (s.forked a).jobs.register s.choosePid a.jobClass with
  | none =>
      refine Ensures.ofThrow ?_
      rintro _ rfl
      exact hs.stop (.relisted ha hregister)
  | some jobs => exact Ensures.ofSet fun _ _ => hs.tail (.launch ha hregister)

omit [Host σ] in
/-- What the kernel gives is the first dead child, with its status or without. -/
theorem reapDead_unlinks (s : Supervisor σ) :
    Ensures (· = s) (reapDead : Supervised σ (Option WaitStatus)) fun r t =>
      match r with
      | .ok none => t = s ∧ unlinkDead s.children = none
      | .ok (some status) => ∃ pid ending rest,
          unlinkDead s.children = some ((pid, ending), rest) ∧ ending.decode pid = .ok status ∧
            { t with jobs := (t.jobs.record status).2 } = s.reaped pid status rest
      | .error stop => ∃ pid ending errno rest,
          unlinkDead s.children = some ((pid, ending), rest) ∧ ending.decode pid = .error errno ∧
            stop = .failed ⟨.waitpid, errno⟩ ∧ t = s.dropped pid ending rest := by
  refine Ensures.get_bind ?_
  rintro t rfl
  cases unlinkDead t.children with
  | none =>
      refine Ensures.ofPure ?_
      rintro u rfl
      exact ⟨rfl, rfl⟩
  | some found =>
      obtain ⟨⟨pid, ending⟩, rest⟩ := found
      refine Ensures.set_bind fun _ _ => ?_
      cases hdecode : ending.decode pid with
      | ok status =>
          refine Ensures.modify_bind ?_
          rintro u rfl
          refine Ensures.ofPure ?_
          rintro u rfl
          exact ⟨pid, ending, rest, rfl, hdecode, rfl⟩
      | error errno =>
          -- the child is gone all the same
          refine Ensures.modify_bind ?_
          rintro u rfl
          refine Ensures.ofThrow ?_
          rintro u rfl
          exact ⟨pid, ending, errno, rest, rfl, hdecode, rfl, rfl⟩

/-- Reaping is a move, or a reason to stop. -/
theorem reapDead_ensures (launching : Assignment → Prop) (s : Supervisor σ) :
    Ensures (· = s) (reapDead : Supervised σ (Option WaitStatus)) fun r t =>
      match r with
      | .ok none => t = s ∧ s.hasDead = false
      | .ok (some status) =>
          s.hasDead = true ∧ t.children.length + 1 = s.children.length ∧
            Moves launching s { t with jobs := (t.jobs.record status).2 }
      | .error stop => s.hasDead = true ∧ Stops launching s stop t := by
  have hasDead : ∀ {found}, unlinkDead s.children = some found → s.hasDead = true := by
    intro found hdead
    rw [← Bool.not_eq_false, hasDead_eq_false_iff, hdead]
    exact Option.some_ne_none _
  refine (reapDead_unlinks s).post ?_
  rintro (stop | _ | status) t h
  · obtain ⟨pid, ending, errno, rest, hdead, hdecode, rfl, rfl⟩ := h
    exact ⟨hasDead hdead, .undecodable hdead hdecode⟩
  · exact ⟨h.1, hasDead_eq_false_iff.2 h.2⟩
  · obtain ⟨pid, ending, rest, hdead, hdecode, ht⟩ := h
    have hleft : t.children = rest := congrArg Supervisor.children ht
    refine ⟨hasDead hdead, ?_, ht ▸ .reap hdead hdecode⟩
    rw [hleft]
    exact unlinkDead_length hdead

theorem reapAll_comes (n : Nat) :
    Ensures (Reaches launching s₀) (reapAll held n) (Comes launching s₀) := by
  induction n with
  | zero => exact Ensures.ofPure fun _ h => h
  | succ n ih =>
      -- a status that has been reaped is still to be recorded, which is the rest of its move
      refine Ensures.bind (OkOr
        (fun dead t => Reaches launching s₀
          { t with jobs := dead.elim t.jobs fun status => (t.jobs.record status).2 })
        fun stop t => Comes launching s₀ (.error stop : Except Stop Unit) t) ?_ ?_ ?_
      · refine Ensures.modify_bind fun s hs => ?_
        have hdrifted : Reaches launching s₀ (s.drifted held) := hs.tail (.drift held s)
        refine (reapDead_ensures launching (s.drifted held)).post ?_
        rintro (stop | _ | status) t h
        · have hstop : Comes launching s₀ (.error stop : Except Stop Unit) t := hdrifted.stop h.2
          exact hstop
        · exact h.1 ▸ hdrifted
        · exact hdrifted.tail h.2.2
      · rintro (_ | status)
        · exact Ensures.ofPure fun _ h => h
        · exact Ensures.modify_bind fun t ht => ih.pre fun _ hu => hu ▸ ht
      · exact fun stop t h => h

omit [Host σ] in
/-- Clearing the flag and going on with what it was. -/
theorem takeNotice_bind {α : Type} {P : Supervisor σ → Prop} {f : Bool → Supervised σ α}
    {Q : Except Stop α → Supervisor σ → Prop}
    (h : ∀ s, P s → Ensures (· = { s with signal := s.signal.clear }) (f s.signal.notified) Q) :
    Ensures P (takeNotice >>= f) Q := by
  intro s hs
  rw [run_bind]
  exact h s hs _ rfl

/-- **Reaping what is dead comes to moves.** -/
theorem reapTerminated_comes :
    Ensures (Reaches launching s₀) (reapTerminated held) (Comes launching s₀) := by
  refine takeNotice_bind fun s hs => Ensures.get_bind ?_
  rintro t rfl
  refine (reapAll_comes held _).pre ?_
  rintro t rfl
  exact hs.tail (.signal s.signal.clear s)

theorem reapIfNotified_comes :
    Ensures (Reaches launching s₀) (reapIfNotified held) (Comes launching s₀) := by
  refine takeNotice_bind fun s hs => ?_
  have hcleared : Reaches launching s₀ { s with signal := s.signal.clear } :=
    hs.tail (.signal s.signal.clear s)
  split
  · exact (reapTerminated_comes held).pre fun t ht => ht ▸ hcleared
  · exact Ensures.ofPure fun t ht => ht ▸ hcleared

/-- The wait call goes on until a child is dead, unless the host has it otherwise. -/
theorem sleepUntilDeath_ensures {t : Supervisor σ} (ht : Reaches launching s₀ t)
    (hchildren : t.children ≠ []) :
    Ensures (· = t) (sleepUntilDeath held) fun r u =>
      match r with
      | .ok _ =>
          u.children.length = t.children.length ∧
            (u.hasDead = true ∧ Reaches launching s₀ u ∨
              u.hasDead = false ∧ Comes launching s₀ (.error (.lost .stuck) : Except Stop Unit) u)
      | .error stop => Comes launching s₀ (.error stop : Except Stop Unit) u := by
  refine Ensures.get_bind ?_
  rintro s rfl
  by_cases hdead : s.hasDead = true
  · rw [if_pos hdead]
    refine Ensures.ofPure ?_
    rintro u rfl
    exact ⟨rfl, .inl ⟨hdead, ht⟩⟩
  · rw [if_neg hdead]
    rw [Bool.not_eq_true] at hdead
    cases hawait : Host.await held s.host with
    | ok result =>
        obtain ⟨death, host⟩ := result
        refine Ensures.ofSet fun _ _ => ?_
        refine ⟨bury_length death, ?_⟩
        -- whoever has died may be no child, and then there is still no dead one
        by_cases hdead' : (bury death { s with host := host }).hasDead = true
        · exact .inl ⟨hdead', ht.tail (.wake hchildren hdead hawait)⟩
        · rw [Bool.not_eq_true] at hdead'
          exact .inr ⟨hdead', ht.stop (.doze hchildren hdead hawait hdead')⟩
    | error result =>
        obtain ⟨loss, host⟩ := result
        refine Ensures.set_bind fun _ _ => Ensures.ofThrow ?_
        rintro _ rfl
        exact ht.stop (.lose hchildren hdead hawait)

/-- A wait call that is made for a foreground job takes a child from the kernel's list. -/
theorem waitOne_ensures (launching : Assignment → Prop) (s₀ : Supervisor σ) (n : Nat) :
    Ensures (fun s => Reaches launching s₀ s ∧ s.jobs.hasForeground = true ∧ s.children.length ≤ n)
      (waitOne held) fun r t =>
        match r with
        | .ok status =>
            t.children.length + 1 ≤ n ∧
              Reaches launching s₀ { t with jobs := (t.jobs.record status).2 }
        | .error stop => Comes launching s₀ (.error stop : Except Stop Unit) t := by
  refine Ensures.modify_bind fun s hs => Ensures.modify_bind ?_
  rintro _ rfl
  obtain ⟨hs, hforeground, hlength⟩ := hs
  -- the state in which the wait call is made
  change Ensures
    (· = { s.drifted held with journal := (s.drifted held).journal ++ [Event.waited] }) _ _
  have hreaches : Reaches launching s₀
      { s.drifted held with journal := (s.drifted held).journal ++ [Event.waited] } :=
    (hs.tail (.drift held s)).tail (.wait (by rwa [drifted_jobs]))
  have hforeground' : (s.drifted held).jobs.hasForeground = true := by rwa [drifted_jobs]
  have hlength' : (s.drifted held).children.length ≤ n := by rwa [drifted_length]
  refine Ensures.get_bind ?_
  rintro t rfl
  by_cases hempty : (s.drifted held).children = []
  · rw [if_pos (by simp [hempty])]
    refine Ensures.throw_bind ?_
    rintro t rfl
    exact hreaches.stop (.childless hforeground' hempty)
  · rw [if_neg (by simp [hempty])]
    refine Ensures.bind _ (sleepUntilDeath_ensures held hreaches hempty) ?_ fun _ _ h => h
    rintro ⟨⟩
    refine Ensures.of_eq fun u hu => ?_
    obtain ⟨hu_length, hu⟩ := hu
    rcases hu with ⟨hdead, hu⟩ | ⟨hdead, hu⟩
    · refine Ensures.bind _ (reapDead_ensures launching u) ?_ fun stop v hv => hu.stop hv.2
      rintro (_ | status)
      · refine Ensures.ofThrow ?_
        rintro v ⟨rfl, hdead'⟩
        exact absurd hdead (by simp [hdead'])
      · refine Ensures.ofPure ?_
        rintro v ⟨-, hv_length, hmove⟩
        exact ⟨by simp only at hu_length; omega, hu.tail hmove⟩
    · refine Ensures.bind _ (reapDead_ensures launching u) ?_ fun stop v hv =>
        absurd hv.1 (by simp [hdead])
      rintro (_ | status)
      · refine Ensures.ofThrow ?_
        rintro v ⟨rfl, -⟩
        exact hu
      · refine Ensures.ofPure ?_
        rintro v ⟨hdead', -⟩
        exact absurd hdead' (by simp [hdead])

/-- **Waiting for the foreground comes to moves**, and as many rounds as there are children are
enough: in a further round there would be no child to wait for. -/
theorem waitRounds_ensures (n : Nat) :
    Ensures (fun s => Reaches launching s₀ s ∧ s.children.length ≤ n) (waitRounds held n)
      fun r s => Comes launching s₀ r s ∧ (r = .ok ⟨⟩ → s.jobs.hasForeground = false) := by
  induction n with
  | zero =>
      refine Ensures.get_bind fun s hs => ?_
      by_cases hforeground : s.jobs.hasForeground = true
      · rw [if_pos hforeground]
        refine Ensures.bind _ ((waitOne_ensures held launching s₀ 0).pre ?_) ?_ ?_
        · rintro t rfl
          exact ⟨hs.1, hforeground, hs.2⟩
        · rintro status t ⟨hlength, -⟩
          -- a round takes a child away, and there is none left
          exact absurd hlength (by omega)
        · exact fun stop t h => ⟨h, by simp⟩
      · rw [if_neg hforeground]
        refine Ensures.ofPure ?_
        rintro t rfl
        exact ⟨hs.1, fun _ => by simpa using hforeground⟩
  | succ n ih =>
      refine Ensures.get_bind fun s hs => ?_
      by_cases hforeground : s.jobs.hasForeground = true
      · rw [if_pos hforeground]
        refine Ensures.bind _ ((waitOne_ensures held launching s₀ (n + 1)).pre ?_) ?_ ?_
        · rintro t rfl
          exact ⟨hs.1, hforeground, hs.2⟩
        · refine fun status => Ensures.modify_bind fun t ht => ih.pre ?_
          rintro u rfl
          exact ⟨ht.2, by simpa using ht.1⟩
        · exact fun stop t h => ⟨h, by simp⟩
      · rw [if_neg hforeground]
        refine Ensures.ofPure ?_
        rintro t rfl
        exact ⟨hs.1, fun _ => by simpa using hforeground⟩

theorem waitForeground_comes :
    Ensures (Reaches launching s₀) (waitForeground held)
      fun r s => Comes launching s₀ r s ∧ (r = .ok ⟨⟩ → s.jobs.hasForeground = false) := by
  refine Ensures.get_bind fun s hs => (waitRounds_ensures held s.children.length).pre ?_
  rintro t rfl
  exact ⟨hs, Nat.le_refl _⟩

/-! ### Scopes -/

theorem block_comes : Ensures (Reaches launching s₀) (block held) (Comes launching s₀) := by
  refine Ensures.bind _ (enterCall_comes held .sigprocmask) ?_ fun _ _ h => h
  refine fun _ => Ensures.get_bind fun s hs => Ensures.set_bind fun _ _ => Ensures.ofPure ?_
  rintro t rfl
  exact Relation.ReflTransGen.tail hs (.signal s.signal.block s)

/-- **Collecting comes to moves**, after which what is completed is handed out. -/
theorem collectCompleted_comes :
    Ensures (Reaches launching s₀) (collectCompleted held) fun r t =>
      match r with
      | .ok jobs => ∃ u, Reaches launching s₀ u ∧ jobs = u.jobs.takeCompleted.1 ∧
          t = { u with jobs := u.jobs.takeCompleted.2, signal := t.signal }
      | .error stop => Comes launching s₀ (.error stop : Except Stop Unit) t := by
  refine Ensures.bind _ (block_comes held) ?_ fun _ _ h => h
  intro previous
  refine Ensures.restoringMask ?_
  refine Ensures.bind _ (reapTerminated_comes held) ?_ ?_
  · intro _
    refine Ensures.get_bind ?_
    intro u hu
    refine Ensures.set_bind ?_
    rintro _ rfl
    refine Ensures.ofPure ?_
    rintro _ rfl
    exact ⟨_, hu, rfl, rfl⟩
  · intro stop t ht
    have hcomes : Comes launching s₀ (.error stop : Except Stop Unit) t := ht
    exact hcomes.tail (.signal _ t)

end Operations

end Supervisor

end JobShell
