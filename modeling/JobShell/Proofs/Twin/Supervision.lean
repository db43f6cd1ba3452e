/-
**Supervision on twin hosts.**

Two hosts are twins if the shell cannot tell them apart: they answer every call alike, and they are
twins again afterwards.  In one respect the calls of the two may differ.  The descriptors above the
standard ones may have other numbers, as long as the same files are open; a host that minds such a
number, for instance since a child opens one by its path, has no twin.

Two supervisors on twin hosts that are alike otherwise stay so, whatever they do.

Main definitions:

* `JobShell.Twins` — hosts that are not told apart;
* `JobShell.Supervisor.Same` — supervisors that differ in their hosts only.

Main results:

* `JobShell.Supervisor.drift_same`, `JobShell.Supervisor.reapDead_same` and the like — **every
  operation comes to the same on twin hosts**.
-/

import JobShell.Proofs.Job.Supervision
import JobShell.Proofs.Twin.Abreast
import JobShell.Proofs.Twin.Tables

set_option autoImplicit false

namespace JobShell

/-! ### What a host may not tell apart -/

/-- The same answer, and two hosts that are alike. -/
structure Besides {σ α : Type} (like : σ → σ → Prop) (x y : α × σ) : Prop where
  answer : y.1 = x.1
  host : like x.2 y.2

/-- Two refusals, or two answers. -/
inductive Replies {ε α : Type} (R : ε → ε → Prop) (Q : α → α → Prop) :
    Except ε α → Except ε α → Prop where
  | ok {a b : α} : Q a b → Replies R Q (.ok a) (.ok b)
  | error {e f : ε} : R e f → Replies R Q (.error e) (.error f)

/-- More may be known of the two replies. -/
theorem Replies.imp {ε α : Type} {R R' : ε → ε → Prop} {Q Q' : α → α → Prop} {x y : Except ε α}
    (h : Replies R Q x y) (hQ : ∀ a b, x = .ok a → y = .ok b → Q a b → Q' a b)
    (hR : ∀ e f, x = .error e → y = .error f → R e f → R' e f) : Replies R' Q' x y := by
  cases h with
  | ok h => exact .ok (hQ _ _ rfl rfl h)
  | error h => exact .error (hR _ _ rfl rfl h)

/-- Hosts that the shell cannot tell apart.  Whatever it asks of both, it gets the same answer, and
it cannot tell them apart afterwards. -/
structure Twins {σ : Type} [Host σ] (like : σ → σ → Prop) : Prop where
  refuses : ∀ {g h : σ} (call : SystemCall), like g h → Host.refuses call h = Host.refuses call g
  newPipe : ∀ {g h : σ}, like g h → Besides like (Host.newPipe g) (Host.newPipe h)
  nextPid : ∀ {g h : σ}, like g h → Host.nextPid h = Host.nextPid g
  start : ∀ {g h : σ} (pid : Int) {a b : Assignment}, like g h → a.Alike b →
    like (Host.start pid a g) (Host.start pid b h)
  write : ∀ {g h : σ} (file : OpenFile) (text : Bytes), like g h →
    like (Host.write file text g) (Host.write file text h)
  enter : ∀ {g h : σ} (place : Nat) (path : Bytes), like g h →
    Host.enter place path h = Host.enter place path g
  pathOf : ∀ {g h : σ} (place : Nat), like g h → Host.pathOf place h = Host.pathOf place g
  kill : ∀ {g h : σ} (pid : Int) (signal : Nat), like g h →
    Replies (fun e f => f = e) (Besides like) (Host.kill pid signal g) (Host.kill pid signal h)
  drift : ∀ {g h : σ} {d e : Descriptors}, like g h → d.Alike e →
    Besides like (Host.drift d g) (Host.drift e h)
  await : ∀ {g h : σ} {d e : Descriptors}, like g h → d.Alike e →
    Replies (Besides like) (Besides like) (Host.await d g) (Host.await e h)

/-! ### Supervisors -/

namespace Supervisor

variable {σ : Type} {like : σ → σ → Prop} {v w : Supervisor σ} {α β : Type}

/-- Two supervisors that differ in their hosts only. -/
inductive Same (like : σ → σ → Prop) : Supervisor σ → Supervisor σ → Prop where
  | intro {host : σ} {v : Supervisor σ} : like v.host host → Same like v { v with host := host }

theorem Same.host (h : Same like v w) : like v.host w.host := by
  cases h with
  | intro h => exact h

/-- The same outcome twice. -/
abbrev Agree (like : σ → σ → Prop) :
    Except Stop α × Supervisor σ → Except Stop α × Supervisor σ → Prop :=
  Abreast (fun a v b w => b = a ∧ Same like v w) (Same like)

theorem Agree.bind {x y : Supervised σ β} {f g : β → Supervised σ α}
    (hx : Agree like (x.run v) (y.run w))
    (hf : ∀ b v w, Same like v w → Agree like ((f b).run v) ((g b).run w)) :
    Agree like ((x >>= f).run v) ((y >>= g).run w) := by
  refine Abreast.bind hx ?_
  rintro b v _ w ⟨rfl, h⟩
  exact hf _ v w h

theorem bury_same (death : Int × Ending) (h : Same like v w) :
    Same like (v.bury death) (w.bury death) := by
  cases h with
  | @intro host v h =>
      by_cases hliving : v.children.any fun c => c.pid = death.1 ∧ c.ending = none
      · simp only [bury, hliving, if_true]
        exact .intro h
      · simp only [bury, hliving]
        exact .intro h

theorem foldl_bury_same (deaths : List (Int × Ending)) (h : Same like v w) :
    Same like (deaths.foldl (fun v death => v.bury death) v)
      (deaths.foldl (fun w death => w.bury death) w) := by
  induction deaths generalizing v w with
  | nil => exact h
  | cons death deaths ih => exact ih (bury_same death h)

theorem note_same (e : Event) (h : Same like v w) :
    Agree like ((note e : Supervised σ Unit).run v) ((note e).run w) := by
  cases h with
  | intro h => exact .ok ⟨rfl, .intro h⟩

theorem register_same (pid : Int) (jobClass : JobClass) (h : Same like v w) :
    Agree like ((register pid jobClass : Supervised σ Unit).run v)
      ((register pid jobClass).run w) := by
  cases h with
  | @intro host v h =>
      refine Abreast.get_bind ?_
      cases v.jobs.register pid jobClass with
      | none => exact .stop (.intro h)
      | some jobs => exact .ok ⟨rfl, .intro h⟩

theorem book_same (status : WaitStatus) (h : Same like v w) :
    Agree like ((book status : Supervised σ Unit).run v) ((book status).run w) := by
  cases h with
  | intro h => exact .ok ⟨rfl, .intro h⟩

theorem takeNotice_same (h : Same like v w) :
    Agree like ((takeNotice : Supervised σ Bool).run v) (takeNotice.run w) := by
  cases h with
  | intro h => exact .ok ⟨rfl, .intro h⟩

/-- Reaping asks nothing of the host. -/
theorem reapDead_same (h : Same like v w) :
    Agree like ((reapDead : Supervised σ (Option WaitStatus)).run v) (reapDead.run w) := by
  cases h with
  | @intro host v h =>
      refine Abreast.get_bind ?_
      cases unlinkDead v.children with
      | none => exact .ok ⟨rfl, .intro h⟩
      | some found =>
          obtain ⟨⟨pid, ending⟩, rest⟩ := found
          refine Abreast.set_bind ?_
          cases ending.decode pid with
          | ok status => exact .ok ⟨rfl, .intro h⟩
          | error errno => exact .stop (.intro h)

section Hosts

variable [Host σ] (htwins : Twins like) {d e : Descriptors} (hheld : d.Alike e)

include htwins

theorem choosePid_same (h : Same like v w) : w.choosePid = v.choosePid := by
  cases h with
  | intro h => simp only [choosePid, htwins.nextPid h]

include hheld

theorem drift_same (h : Same like v w) :
    Agree like ((drift d : Supervised σ Unit).run v) ((drift e).run w) := by
  cases h with
  | @intro host v h =>
      obtain ⟨hdeaths, hhost⟩ := htwins.drift h hheld
      refine .ok ⟨rfl, ?_⟩
      change Same like ((Host.drift d v.host).1.foldl _ { v with host := (Host.drift d v.host).2 })
        ((Host.drift e host).1.foldl _ { v with host := (Host.drift e host).2 })
      rw [hdeaths]
      exact foldl_bury_same _ (.intro hhost)

theorem enterCall_same (call : SystemCall) (h : Same like v w) :
    Agree like ((enterCall d call : Supervised σ Unit).run v) ((enterCall e call).run w) := by
  refine Agree.bind (drift_same htwins hheld h) ?_
  intro _ v w h
  refine Abreast.get_bind ?_
  cases h with
  | @intro host v h =>
      rw [htwins.refuses call h]
      cases Host.refuses call v.host with
      | none => exact .ok ⟨rfl, .intro h⟩
      | some errno => exact .stop (.intro h)

theorem block_same (h : Same like v w) :
    Agree like ((block d : Supervised σ Bool).run v) ((block e).run w) := by
  refine Agree.bind (enterCall_same htwins hheld .sigprocmask h) ?_
  intro _ v w h
  cases h with
  | intro h => exact .ok ⟨rfl, .intro h⟩

/-- **The same child is forked.** -/
theorem fork_same {a b : Assignment} (hab : a.Alike b) (h : Same like v w) :
    Agree like ((fork d a : Supervised σ Int).run v) ((fork e b).run w) := by
  refine Agree.bind (enterCall_same htwins hheld .fork h) ?_
  intro _ v w h
  refine Abreast.get_bind ?_
  rw [choosePid_same htwins h]
  generalize v.choosePid = pid
  refine Abreast.modify_bind ?_
  rw [hab.jobClass]
  refine Agree.bind (note_same _ ?_) fun _ v w h => .ok ⟨rfl, h⟩
  cases h with
  | intro h => exact .intro (htwins.start pid h hab)

theorem reapOne_same (h : Same like v w) :
    Agree like ((reapOne d : Supervised σ (Option WaitStatus)).run v) ((reapOne e).run w) :=
  Agree.bind (drift_same htwins hheld h) fun _ _ _ => reapDead_same

theorem sleepUntilDeath_same (h : Same like v w) :
    Agree like ((sleepUntilDeath d : Supervised σ Unit).run v) ((sleepUntilDeath e).run w) := by
  refine Abreast.get_bind ?_
  cases h with
  | @intro host v h =>
      have hdead : ({ v with host := host } : Supervisor σ).hasDead = v.hasDead := rfl
      rw [hdead]
      refine Abreast.ite (fun _ => .ok ⟨rfl, .intro h⟩) fun _ => ?_
      have hawait : Replies (Besides like) (Besides like) (Host.await d v.host)
          (Host.await e ({ v with host := host } : Supervisor σ).host) := htwins.await h hheld
      generalize Host.await d v.host = first at hawait ⊢
      generalize Host.await e ({ v with host := host } : Supervisor σ).host = second at hawait ⊢
      cases hawait with
      | @ok first second hanswer =>
          obtain ⟨death, host'⟩ := first
          obtain ⟨_, host''⟩ := second
          obtain ⟨rfl, hhost⟩ := hanswer
          exact .ok ⟨rfl, bury_same _ (.intro hhost)⟩
      | @error first second hanswer =>
          obtain ⟨loss, host'⟩ := first
          obtain ⟨_, host''⟩ := second
          obtain ⟨rfl, hhost⟩ := hanswer
          exact .stop (.intro hhost)

theorem waitOne_same (h : Same like v w) :
    Agree like ((waitOne d : Supervised σ WaitStatus).run v) ((waitOne e).run w) := by
  refine Agree.bind (drift_same htwins hheld h) ?_
  intro _ v w h
  refine Agree.bind (note_same .waited h) ?_
  intro _ v w h
  refine Abreast.get_bind ?_
  have hchildren : w.children = v.children := by
    cases h with
    | intro h => rfl
  rw [hchildren]
  refine Abreast.ite (fun _ => Abreast.throw_bind h) fun _ => ?_
  refine Agree.bind (sleepUntilDeath_same htwins hheld h) ?_
  intro _ v w h
  refine Agree.bind (reapDead_same h) ?_
  rintro (_ | status) v w h
  · exact .stop h
  · exact .ok ⟨rfl, h⟩

theorem reapAll_same (n : Nat) (h : Same like v w) :
    Agree like ((reapAll d n : Supervised σ Unit).run v) ((reapAll e n).run w) := by
  induction n generalizing v w with
  | zero => exact .ok ⟨rfl, h⟩
  | succ n ih =>
      refine Agree.bind (reapOne_same htwins hheld h) ?_
      rintro (_ | status) v w h
      · exact .ok ⟨rfl, h⟩
      · exact Agree.bind (book_same status h) fun _ _ _ => ih

theorem reapTerminated_same (h : Same like v w) :
    Agree like ((reapTerminated d : Supervised σ Unit).run v) ((reapTerminated e).run w) := by
  refine Agree.bind (takeNotice_same h) ?_
  intro _ v w h
  refine Abreast.get_bind ?_
  cases h with
  | intro h => exact reapAll_same htwins hheld _ (.intro h)

theorem reapIfNotified_same (h : Same like v w) :
    Agree like ((reapIfNotified d : Supervised σ Unit).run v) ((reapIfNotified e).run w) := by
  refine Agree.bind (takeNotice_same h) ?_
  rintro (_ | _) v w h
  · exact .ok ⟨rfl, h⟩
  · exact reapTerminated_same htwins hheld h

theorem waitRounds_same (n : Nat) (h : Same like v w) :
    Agree like ((waitRounds d n : Supervised σ Unit).run v) ((waitRounds e n).run w) := by
  have hjobs : ∀ {v w : Supervisor σ}, Same like v w → w.jobs = v.jobs := by
    rintro v _ ⟨-⟩
    rfl
  induction n generalizing v w with
  | zero =>
      refine Abreast.get_bind ?_
      rw [hjobs h]
      refine Abreast.ite (fun _ => ?_) fun _ => .ok ⟨rfl, h⟩
      exact Agree.bind (waitOne_same htwins hheld h) fun _ _ _ h => .ok ⟨rfl, h⟩
  | succ n ih =>
      refine Abreast.get_bind ?_
      rw [hjobs h]
      refine Abreast.ite (fun _ => ?_) fun _ => .ok ⟨rfl, h⟩
      refine Agree.bind (waitOne_same htwins hheld h) ?_
      intro status v w h
      exact Agree.bind (book_same status h) fun _ _ _ => ih

theorem waitForeground_same (h : Same like v w) :
    Agree like ((waitForeground d : Supervised σ Unit).run v) ((waitForeground e).run w) := by
  refine Abreast.get_bind ?_
  cases h with
  | intro h => exact waitRounds_same htwins hheld _ (.intro h)

end Hosts

end Supervisor

end JobShell
