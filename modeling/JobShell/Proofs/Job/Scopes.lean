/-
**Scopes nest.**

A block puts the signal of the children into the mask and keeps what the mask was; when it is
dropped, the mask is put back to that.  Blocks are dropped in the opposite order of their creation,
and nobody counts them.  Still the signal is in the mask exactly while some block is alive: of the
masks that are kept, all hold the signal but that of the first block.  So no drop but that of the
first block lets a signal through, and whatever number of children has died meanwhile, this one lets
it through if any has.

As elsewhere everything that is done is taken apart into single changes.  The operations on the job
table create and drop a block of their own, so that what is shown of every point of any changes
holds within them as well, and after them however they end.

Main definitions:

* `JobShell.Scoped` — a supervisor, and the masks that are kept by the blocks that are alive;
* `JobShell.Scoped.Changes`, `JobShell.Scoped.Within` — one change, and any number of them that drop
  none of certain blocks;
* `JobShell.Scoped.Sound` — the invariant;
* `JobShell.Scoped.Undoes` — what the drop of a block comes to;
* `JobShell.Play`, `JobShell.Scoped.perform` — what can be done, and doing it.

Main results:

* `JobShell.Scoped.Changes.sound` — every change keeps the invariant;
* `JobShell.Scoped.Within.pending` — a signal waits behind the first block if a child has died;
* `JobShell.Scoped.create_drop` — the drop undoes the creation;
* `JobShell.Scoped.operate_scope` — operations on the job table have a scope of their own;
* `JobShell.Scoped.scopes_nest` — **scopes nest**.
-/

import JobShell.Job.Exercise
import JobShell.Proofs.Job.Elementary

set_option autoImplicit false

namespace JobShell

/-! ### Blocks -/

/-- A supervisor, and the blocks that are alive. -/
structure Scoped (σ : Type) where
  supervisor : Supervisor σ
  /-- The masks that the blocks put back, that of the last block first. -/
  saved : List Bool := []

namespace Scoped

variable {σ : Type}

/-- The signal that tells of dead children. -/
abbrev signal (w : Scoped σ) : ChildSignal := w.supervisor.signal

/-- How many children have died. -/
abbrev deaths (w : Scoped σ) : Nat := deathCount w.supervisor.journal

/-- A block is created. -/
def create (w : Scoped σ) : Scoped σ :=
  { supervisor := { w.supervisor with signal := w.signal.block }
    saved := w.signal.blocked :: w.saved }

/-- The last block is dropped, if there is one. -/
def drop : Scoped σ → Scoped σ
  | ⟨s, []⟩ => ⟨s, []⟩
  | ⟨s, previous :: saved⟩ => ⟨{ s with signal := s.signal.restore previous }, saved⟩

/-- One change. -/
inductive Changes : Scoped σ → Scoped σ → Prop where
  /-- No child dies, and neither the mask nor the flag changes. -/
  | rest {s t : Supervisor σ} (saved : List Bool) :
      t.signal = s.signal → deathCount t.journal = deathCount s.journal →
        Changes ⟨s, saved⟩ ⟨t, saved⟩
  /-- A child ends. -/
  | die (death : Int × Ending) (s : Supervisor σ) (saved : List Bool) :
      Changes ⟨s, saved⟩ ⟨s.bury death, saved⟩
  /-- The flag is cleared. -/
  | clear (s : Supervisor σ) (saved : List Bool) :
      Changes ⟨s, saved⟩ ⟨{ s with signal := s.signal.clear }, saved⟩
  | opens (w : Scoped σ) : Changes w w.create
  | closes (w : Scoped σ) : Changes w w.drop

/-- Any number of changes that drop none of the blocks that keep `base`. -/
def Within (base : List Bool) : Scoped σ → Scoped σ → Prop :=
  Relation.ReflTransGen fun v w => Changes v w ∧ base <:+ w.saved

/-! ### The invariant -/

/-- The mask is that of a stack of blocks: it holds the signal, and so does every mask that is kept
but that of the first block. -/
def Stacked : Bool → List Bool → Prop
  | blocked, [] => blocked = false
  | blocked, previous :: saved => blocked = true ∧ Stacked previous saved

theorem Stacked.blocked_iff {blocked : Bool} {saved : List Bool} (h : Stacked blocked saved) :
    blocked = true ↔ saved ≠ [] := by
  cases saved with
  | nil => simp [show blocked = false from h]
  | cons previous saved => simp [h.1]

/-- The mask is that of a stack of blocks, and a signal waits only behind the mask. -/
structure Sound (w : Scoped σ) : Prop where
  stacked : Stacked w.signal.blocked w.saved
  masked : w.signal.pending = true → w.signal.blocked = true

section Invariant

variable {base : List Bool} {u v w x : Scoped σ}

/-- The invariant is one of the signal and the masks that are kept. -/
theorem Sound.of_signal {s : Supervisor σ} {saved : List Bool} {signal : ChildSignal}
    (hs : s.signal = signal) (hstacked : Stacked signal.blocked saved)
    (hmasked : signal.pending = true → signal.blocked = true) : Sound ⟨s, saved⟩ := by
  subst hs
  exact ⟨hstacked, hmasked⟩

/-- **Every change keeps the invariant.** -/
theorem Changes.sound (h : Changes v w) (hv : v.Sound) : w.Sound := by
  cases h with
  | rest saved hsignal => exact .of_signal hsignal hv.stacked hv.masked
  | die death s saved =>
      rcases s.bury_eq_or death with hsame | ⟨hraised, -⟩
      · rwa [hsame]
      · refine .of_signal hraised ?_ (ChildSignal.raise_masked hv.masked)
        rw [ChildSignal.raise_blocked]
        exact hv.stacked
  | clear => exact ⟨hv.stacked, hv.masked⟩
  | opens => exact ⟨⟨rfl, hv.stacked⟩, fun _ => rfl⟩
  | closes =>
      obtain ⟨s, _ | ⟨previous, saved⟩⟩ := v
      · exact hv
      · refine .of_signal rfl ?_ (s.signal.restore_masked previous)
        rw [ChildSignal.restore_blocked]
        exact hv.stacked.2

theorem Within.sound (h : Within base v w) (hv : v.Sound) : w.Sound := by
  induction h with
  | refl => exact hv
  | tail _ hchange ih => exact hchange.1.sound ih

theorem Within.saved (h : Within base v w) (hv : base <:+ v.saved) : base <:+ w.saved := by
  induction h with
  | refl => exact hv
  | tail _ hchange _ => exact hchange.2

/-- What drops none of some blocks drops none of the first of them. -/
theorem Within.mono {base' : List Bool} (h : Within base v w) (hle : base' <:+ base) :
    Within base' v w :=
  Relation.ReflTransGen.mono (fun _ _ hchange => ⟨hchange.1, hle.trans hchange.2⟩) _ _ h

/-- Unless the first block is dropped, a signal waits behind the mask if one has waited before, or a
child has died. -/
theorem Changes.pending (h : Changes v w) (hv : v.Sound) (hv_saved : v.saved ≠ [])
    (hw_saved : w.saved ≠ []) :
    v.deaths ≤ w.deaths ∧
      w.signal.pending = (v.signal.pending || decide (v.deaths < w.deaths)) := by
  cases h with
  | rest saved hsignal hdeaths => simp [signal, hsignal, hdeaths]
  | die death s saved =>
      rcases s.bury_eq_or death with hsame | ⟨hraised, hdeaths⟩
      · simp [hsame]
      · have hmask : s.signal.blocked = true := hv.stacked.blocked_iff.2 hv_saved
        have hpending : s.signal.raise.pending = true := by
          rw [ChildSignal.raise, if_pos hmask]
        simp [signal, hraised, hdeaths, hpending]
  | clear => simp [ChildSignal.clear]
  | opens => simp [create, ChildSignal.block]
  | closes =>
      obtain ⟨s, _ | ⟨previous, saved⟩⟩ := v
      · exact absurd rfl hv_saved
      · -- another block is alive, so the mask goes on holding the signal
        obtain rfl : previous = true := hv.stacked.2.blocked_iff.2 hw_saved
        simp [drop, ChildSignal.restore]

/-- **Behind the first block a signal waits exactly if a child has died** since the block was
created. -/
theorem Within.pending (h : Within base u x) (hu : u.Sound) (hbase : base ≠ [])
    (hsaved : base <:+ u.saved) :
    u.deaths ≤ x.deaths ∧
      x.signal.pending = (u.signal.pending || decide (u.deaths < x.deaths)) := by
  have halive : ∀ {saved : List Bool}, base <:+ saved → saved ≠ [] := fun hsuffix hnil =>
    hbase (List.suffix_nil.1 (hnil ▸ hsuffix))
  induction h with
  | refl => simp
  | @tail v w hrun hchange ih =>
      have hrun' : Within base u v := hrun
      obtain ⟨hle, hpending⟩ := ih
      obtain ⟨hle', hpending'⟩ := hchange.1.pending (hrun'.sound hu) (halive (hrun'.saved hsaved))
        (halive hchange.2)
      refine ⟨Nat.le_trans hle hle', ?_⟩
      rw [hpending', hpending, Bool.or_assoc, ← Bool.decide_or]
      congr 2
      apply propext
      omega

/-- The drop of the last block of `x`, which was created when `w` became `u`: the blocks that are
alive and the mask are those of `w`, and the flag is raised by it if this was the only block and a
child has died since it was created. -/
structure Undoes (w u x : Scoped σ) : Prop where
  saved : x.drop.saved = w.saved
  mask : x.drop.signal.blocked = w.signal.blocked
  flag : x.drop.signal.notified =
    (x.signal.notified || (w.saved.isEmpty && decide (u.deaths < x.deaths)))

/-- **The drop undoes the creation**, whatever has been done in between without dropping the
block. -/
theorem create_drop (hw : w.Sound) (h : Within w.create.saved w.create x)
    (hlast : x.saved = w.create.saved) : Undoes w w.create x := by
  have hpending := (h.pending ((Changes.opens w).sound hw) (by simp [create])
    (List.suffix_refl _)).2
  obtain ⟨s, saved⟩ := x
  obtain rfl : saved = w.signal.blocked :: w.saved := hlast
  refine ⟨rfl, ChildSignal.restore_blocked _ _, ?_⟩
  change (s.signal.restore w.signal.blocked).notified = _
  rw [ChildSignal.restore_notified]
  have hblocked := hw.stacked.blocked_iff
  cases hsaved : w.saved with
  | nil =>
      have hmask : w.signal.blocked = false := by simpa [hsaved] using hblocked
      have hnone : w.signal.pending = false := by simpa [hmask] using hw.masked
      -- what waits now has not waited when the block was created
      have hnone' : w.create.signal.pending = false := hnone
      rw [hnone', Bool.false_or] at hpending
      rw [hmask, hpending]
      rfl
  | cons previous rest =>
      have hmask : w.signal.blocked = true := by simpa [hsaved] using hblocked
      simp [hmask]

/-- Behind the mask deaths leave the flag as it is. -/
theorem bury_notified {s : Supervisor σ} (hblocked : s.signal.blocked = true)
    (death : Int × Ending) : (s.bury death).signal.notified = s.signal.notified := by
  rcases s.bury_eq_or death with hsame | ⟨hraised, -⟩
  · rw [hsame]
  · rw [hraised, ChildSignal.raise, if_pos hblocked]

/-- What holds at every point. -/
structure Nests (v : Scoped σ) : Prop where
  /-- The signal is in the mask exactly while a block is alive. -/
  mask : v.signal.blocked = true ↔ v.saved ≠ []
  /-- While one is, deaths leave the flag as it is. -/
  deaf : v.saved ≠ [] →
    ∀ death, (v.supervisor.bury death).signal.notified = v.signal.notified
  /-- The drop of a block that is created here undoes its creation. -/
  undone : ∀ x, Within v.create.saved v.create x → x.saved = v.create.saved → Undoes v v.create x

theorem Sound.nests {v : Scoped σ} (hv : v.Sound) : v.Nests where
  mask := hv.stacked.blocked_iff
  deaf hsaved death := bury_notified (hv.stacked.blocked_iff.2 hsaved) death
  undone _ hx hlast := create_drop hv hx hlast

end Invariant

/-! ### Computations within a scope -/

section Computations

variable {s t : Supervisor σ}

/-- Changes that leave the blocks alone, whichever there are. -/
def Leads (s t : Supervisor σ) : Prop :=
  ∀ base saved, base <:+ saved → Within base ⟨s, saved⟩ ⟨t, saved⟩

theorem Leads.rest (hsignal : t.signal = s.signal)
    (hdeaths : deathCount t.journal = deathCount s.journal) : Leads s t :=
  fun _ saved hsaved => .single ⟨.rest saved hsignal hdeaths, hsaved⟩

theorem leads_elementary : Supervisor.Elementary (Leads : Supervisor σ → Supervisor σ → Prop) where
  refl _ _ _ _ := .refl
  trans h h' base saved hsaved := (h base saved hsaved).trans (h' base saved hsaved)
  host _ _ := .rest rfl rfl
  jobs _ _ := .rest rfl rfl
  note _ he := .rest rfl (by simp [deathCount_append, he])
  die death s _ saved hsaved := .single ⟨.die death s saved, hsaved⟩
  start _ _ := .rest rfl rfl
  unlink _ := .rest rfl rfl

theorem Leads.clear (s : Supervisor σ) : Leads s { s with signal := s.signal.clear } :=
  fun _ saved hsaved => .single ⟨.clear s saved, hsaved⟩

theorem Leads.sound {w : Scoped σ} (h : Leads w.supervisor t) (hw : w.Sound) :
    Sound ⟨t, w.saved⟩ :=
  (h w.saved w.saved (List.suffix_refl _)).sound hw

/-- The mask is not changed. -/
theorem Leads.blocked {w : Scoped σ} (h : Leads w.supervisor t) (hw : w.Sound) :
    t.signal.blocked = w.signal.blocked :=
  Bool.eq_iff_iff.2 ((h.sound hw).stacked.blocked_iff.trans hw.stacked.blocked_iff.symm)

/-- A block that is created after such changes, and dropped. -/
theorem Leads.undone {u w x : Scoped σ} (ht : Leads w.supervisor t) (hw : w.Sound)
    (hu : u = create ⟨t, w.saved⟩) (hx : Within u.saved u x)
    (hlast : x.saved = u.saved) : Undoes w u x := by
  subst hu
  have hundone := create_drop (ht.sound hw) hx hlast
  exact ⟨hundone.saved, hundone.mask.trans (ht.blocked hw), hundone.flag⟩

end Computations

end Scoped

/-- What is done to the job table within a scope. -/
inductive Errand where
  | fork (a : Assignment)
  | register (pid : Int) (jobClass : JobClass)
  | reap
  | reapIfNotified
  | wait
  | take

/-- What can be done. -/
inductive Play where
  /-- A block is created, unless the host lets the call fail. -/
  | create (held : Descriptors)
  /-- The last block is dropped. -/
  | drop
  /-- A child ends. -/
  | die (pid : Int) (ending : Ending)
  /-- Time passes. -/
  | drift (held : Descriptors)
  /-- In a scope of its own something is done to the job table, until one of the errands fails or
  panics. -/
  | operate (held : Descriptors) (errands : List Errand)

section Playing

variable {σ : Type} [Host σ]

/-- Runs an errand. -/
def Errand.body (held : Descriptors) : Errand → Supervised σ Unit
  | .fork a => do
    let _ ← Supervisor.fork held a
  | .register pid jobClass => Supervisor.register pid jobClass
  | .reap => Supervisor.reapTerminated held
  | .reapIfNotified => Supervisor.reapIfNotified held
  | .wait => Supervisor.waitForeground held
  | .take => do
    let _ ← Supervisor.takeCompleted

/-- Runs errands one after another. -/
def Errand.all (held : Descriptors) (errands : List Errand) : Supervised σ Unit :=
  errands.forM (Errand.body held)

theorem Errand.body_leads (held : Descriptors) (errand : Errand) :
    Supervisor.Across Scoped.Leads (errand.body held : Supervised σ Unit) := by
  have hR := Scoped.leads_elementary (σ := σ)
  cases errand with
  | fork a => exact (hR.fork held a).bind fun _ => .pure _
  | register pid jobClass => exact hR.register pid jobClass
  | reap => exact hR.reapTerminated held Scoped.Leads.clear
  | reapIfNotified => exact hR.reapIfNotified held Scoped.Leads.clear
  | wait => exact hR.waitForeground held
  | take => exact hR.takeCompleted.bind fun _ => .pure _

theorem Errand.all_leads (held : Descriptors) (errands : List Errand) :
    Supervisor.Across Scoped.Leads (Errand.all held errands : Supervised σ Unit) := by
  induction errands with
  | nil => exact .pure _
  | cons errand errands ih => exact (errand.body_leads held).bind fun _ => ih

namespace Scoped

/-- Does what can be done.  Whether an operation fails makes no difference to what may come next. -/
def perform (w : Scoped σ) : Play → Scoped σ
  | .create held =>
    match (Supervisor.block held).run w.supervisor with
    | (.ok previous, s) => ⟨s, previous :: w.saved⟩
    | (.error _, s) => ⟨s, w.saved⟩
  | .drop => w.drop
  | .die pid ending => ⟨w.supervisor.bury (pid, ending), w.saved⟩
  | .drift held => ⟨((Supervisor.drift held).run w.supervisor).2, w.saved⟩
  | .operate held errands =>
    ⟨((Supervisor.guarded held (Errand.all held errands)).run w.supervisor).2, w.saved⟩

variable {base : List Bool}

/-- Putting the signal into the mask fails, or it is done after time has passed. -/
theorem block_run (held : Descriptors) (s : Supervisor σ) :
    ∃ t, Leads s t ∧
      ((∃ stop, (Supervisor.block held).run s = (.error stop, t)) ∨
        (Supervisor.block held).run s =
          (.ok t.signal.blocked, { t with signal := t.signal.block })) := by
  have hcall := ((leads_elementary (σ := σ)).enterCall held .sigprocmask).run
    (leads_elementary.refl s)
  rw [Supervisor.block, run_bind]
  rcases hrun : (Supervisor.enterCall held .sigprocmask).run s with ⟨r, t⟩
  rw [hrun] at hcall
  cases r with
  | error stop => exact ⟨t, hcall, .inl ⟨stop, rfl⟩⟩
  | ok _ => exact ⟨t, hcall, .inr rfl⟩

/-- What is meant to create a block creates one, or it changes nothing but that time passes. -/
theorem perform_create (w : Scoped σ) (held : Descriptors) :
    ∃ t, Leads w.supervisor t ∧
      (w.perform (.create held) = ⟨t, w.saved⟩ ∨ w.perform (.create held) = create ⟨t, w.saved⟩) := by
  obtain ⟨t, ht, ⟨stop, hrun⟩ | hrun⟩ := block_run held w.supervisor
  · exact ⟨t, ht, .inl (by rw [perform, hrun])⟩
  · exact ⟨t, ht, .inr (by rw [perform, hrun]; rfl)⟩

/-- **An operation on the job table has a scope of its own**, if the block can be created: however
it ends, the block is dropped, and nothing is done to the blocks that were alive. -/
theorem operate_scope (w : Scoped σ) (held : Descriptors) (errands : List Errand) :
    ∃ t, Leads w.supervisor t ∧
      (w.perform (.operate held errands) = ⟨t, w.saved⟩ ∨
        ∃ x, Within (create ⟨t, w.saved⟩).saved (create ⟨t, w.saved⟩) x ∧
          x.saved = (create ⟨t, w.saved⟩).saved ∧ w.perform (.operate held errands) = x.drop) := by
  obtain ⟨t, ht, ⟨stop, hrun⟩ | hrun⟩ := block_run held w.supervisor
  · refine ⟨t, ht, .inl ?_⟩
    rw [perform, Supervisor.guarded, run_bind, hrun]
  · refine ⟨t, ht, .inr ⟨⟨((Errand.all held errands).run
      { t with signal := t.signal.block }).2, t.signal.blocked :: w.saved⟩, ?_, rfl, ?_⟩⟩
    · exact (Errand.all_leads held errands).run (leads_elementary.refl _) _ _ (List.suffix_refl _)
    · rw [perform, Supervisor.guarded, run_bind, hrun]
      rfl

/-- Whatever is done is made of changes; no block is dropped but by a drop. -/
theorem perform_within (w : Scoped σ) (play : Play) (hbase : base <:+ w.saved)
    (hafter : base <:+ (w.perform play).saved) : Within base w (w.perform play) := by
  have hdone : ∀ {t : Supervisor σ}, Leads w.supervisor t → Within base w ⟨t, w.saved⟩ :=
    fun ht => ht base w.saved hbase
  have hopens : ∀ v : Scoped σ, base <:+ v.saved → base <:+ v.create.saved :=
    fun v hv => hv.trans (List.suffix_cons _ _)
  cases play with
  | create held =>
      obtain ⟨t, ht, h | h⟩ := w.perform_create held
      · exact h ▸ hdone ht
      · exact h ▸ (hdone ht).tail ⟨.opens _, hopens _ hbase⟩
  | drop => exact .single ⟨.closes w, hafter⟩
  | die pid ending => exact hdone (leads_elementary.die (pid, ending) w.supervisor)
  | drift held => exact hdone (leads_elementary.drifted held w.supervisor)
  | operate held errands =>
      obtain ⟨t, ht, h | ⟨x, hx, hlast, h⟩⟩ := w.operate_scope held errands
      · exact h ▸ hdone ht
      · have hx' : Within base w x :=
          ((hdone ht).tail ⟨.opens _, hopens _ hbase⟩).trans (hx.mono (hopens ⟨t, w.saved⟩ hbase))
        exact h ▸ hx'.tail ⟨.closes x, h ▸ hafter⟩

/-- The same of any number of plays, none of which drops the blocks that keep `base`. -/
theorem foldl_perform_within (plays : List Play) (u : Scoped σ)
    (halive : ∀ n ≤ plays.length, base <:+ ((plays.take n).foldl perform u).saved) :
    Within base u (plays.foldl perform u) := by
  induction plays generalizing u with
  | nil => exact .refl
  | cons play plays ih =>
      have hfirst : Within base u (u.perform play) :=
        perform_within u play (halive 0 (by simp)) (by simpa using halive 1 (by simp))
      exact hfirst.trans (ih _ fun n hn => halive (n + 1) (by simpa using hn))

theorem drifted_notified {s : Supervisor σ} (hblocked : s.signal.blocked = true)
    (held : Descriptors) : (s.drifted held).signal.notified = s.signal.notified := by
  have hbury : ∀ (t : Supervisor σ) (death : Int × Ending),
      t.signal.blocked = true ∧ t.signal.notified = s.signal.notified →
        (t.bury death).signal.blocked = true ∧
          (t.bury death).signal.notified = s.signal.notified := by
    rintro t death ⟨hmask, hflag⟩
    exact ⟨by rwa [Supervisor.bury_blocked], by rw [bury_notified hmask, hflag]⟩
  exact (Supervisor.foldl_bury hbury _ { s with host := (Host.drift held s.host).2 }
    ⟨hblocked, rfl⟩).2

/-- **Scopes nest.**  A supervisor starts without a block and with no signal waiting, and any number
of things are done to it on any host, whether the operations on the job table that are among them
fail, panic or neither.

* All this is made of single changes.  At every point of any changes, those within the operations
  included, the signal is in the mask exactly while a block is alive, deaths leave the flag as it is
  while one is, and the drop of a block undoes its creation: the mask is what it was, and the flag is
  raised by it if this was the only block and a child has died since it was created.
* The same holds at the end, and of a block that is created there and dropped after whatever else
  has been done without dropping it.
* An operation leaves the blocks and the mask as they are.  It has a block of its own, whose drop
  undoes its creation as well, unless the block cannot be created; then it does nothing. -/
theorem scopes_nest (s : Supervisor σ) (hunblocked : s.signal.blocked = false)
    (hnone : s.signal.pending = false) (plays : List Play) :
    let w := plays.foldl perform ⟨s, []⟩
    (Within [] ⟨s, []⟩ w ∧ ∀ v, Within [] ⟨s, []⟩ v → v.Nests) ∧
    (w.signal.blocked = true ↔ w.saved ≠ []) ∧
    (w.saved ≠ [] →
      (∀ pid ending, (w.perform (.die pid ending)).signal.notified = w.signal.notified) ∧
      ∀ held, (w.perform (.drift held)).signal.notified = w.signal.notified) ∧
    (∀ (held : Descriptors) (inner : List Play),
      let u := w.perform (.create held)
      let x := inner.foldl perform u
      u.saved ≠ w.saved → (∀ n ≤ inner.length, u.saved <:+ ((inner.take n).foldl perform u).saved) →
        x.saved = u.saved → Undoes w u x) ∧
    ∀ held errands,
      let y := w.perform (.operate held errands)
      y.saved = w.saved ∧ y.signal.blocked = w.signal.blocked ∧
        ∃ t, Leads w.supervisor t ∧
          let u := create ⟨t, w.saved⟩
          (y = ⟨t, w.saved⟩ ∨ ∃ x, Within u.saved u x ∧ Undoes w u x ∧ y = x.drop) := by
  intro w
  have hinitial : Sound ⟨s, []⟩ := ⟨hunblocked, by simp [signal, hnone]⟩
  have hreached : Within [] ⟨s, []⟩ w :=
    foldl_perform_within plays _ fun _ _ => List.nil_suffix
  have hw : w.Sound := hreached.sound hinitial
  refine ⟨⟨hreached, fun v hv => (hv.sound hinitial).nests⟩, hw.nests.mask, fun hsaved => ?_, ?_, ?_⟩
  · have hmask := hw.nests.mask.2 hsaved
    exact ⟨fun pid ending => bury_notified hmask _, drifted_notified hmask⟩
  · intro held inner u x hcreated halive hlast
    obtain ⟨t, ht, hu | hu⟩ := w.perform_create held
    · exact absurd (congrArg Scoped.saved hu) hcreated
    · exact ht.undone hw hu (foldl_perform_within inner u halive) hlast
  · intro held errands y
    refine ⟨rfl, ?_⟩
    obtain ⟨t, ht, hy | ⟨x, hx, hlast, hy⟩⟩ := w.operate_scope held errands
    · exact ⟨(congrArg (·.signal.blocked) hy).trans (ht.blocked hw), t, ht, .inl hy⟩
    · have hundone := ht.undone hw rfl hx hlast
      exact ⟨(congrArg (·.signal.blocked) hy).trans hundone.mask, t, ht, .inr ⟨x, hx, hundone, hy⟩⟩

/-- Two blocks, one in the other.  A child that is killed meanwhile is told of when the first block
is dropped, and not when the second one is; an operation that panics makes no difference. -/
theorem scopes_nest_twice :
    let w := [.operate {} [.fork ⟨⟨utf8 "a", [], []⟩, .background, 0, none, {}, 0⟩]].foldl perform
      (⟨{ host := Still.mk }, []⟩ : Scoped Still)
    let u := w.perform (.create {})
    let x := [.create {}, .operate {} [.register 1 .background, .register 1 .background],
      .die 1 (.killed 9), .drop].foldl perform u
    Undoes w u x ∧ x.signal = ⟨true, true, false⟩ ∧ x.drop.signal = ⟨false, false, true⟩ := by
  have hnest := scopes_nest (σ := Still) { host := ⟨⟩ } rfl rfl
    [.operate {} [.fork ⟨⟨utf8 "a", [], []⟩, .background, 0, none, {}, 0⟩]]
  refine ⟨?_, by decide +kernel, by decide +kernel⟩
  exact hnest.2.2.2.1 {} [.create {}, .operate {} [.register 1 .background, .register 1 .background],
    .die 1 (.killed 9), .drop] (by decide +kernel) (by decide +kernel) (by decide +kernel)

end Scoped

end Playing

end JobShell
