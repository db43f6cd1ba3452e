/-
**A record of what the shell does.**

A host keeps no record of what has been asked of it.  The record is kept beside it: which children
have been started, and on which host, what has been written where, and which signals have been sent.
The host does not notice.  Twin hosts whose records are alike are twins again, and so are twin hosts
from whose input nothing is left to take.

Main definitions:

* `JobShell.Effect`, `JobShell.Recorded` — what the shell does to its host, and a host with a
  record;
* `JobShell.Effect.Alike` — the same done to twin hosts;
* `JobShell.Spent` — a calm host with nothing left in an open file.

Main results:

* `JobShell.Twins.recorded` — **twin hosts with alike records are twins**;
* `JobShell.Twins.spent` — twin hosts stay without input.
-/

import JobShell.Proofs.Input.Shared
import JobShell.Proofs.Twin.Supervision
import Mathlib.Data.List.Forall2

set_option autoImplicit false

namespace JobShell

/-- What the shell does to its host. -/
inductive Effect (σ : Type) where
  /-- A child is started on a host. -/
  | started (host : σ) (pid : Int) (assignment : Assignment)
  | wrote (file : OpenFile) (text : Bytes)
  | sent (pid : Int) (signal : Nat)

/-- A host, and what has been done to it, the earliest first. -/
structure Recorded (σ : Type) where
  host : σ
  effects : List (Effect σ) := []

namespace Recorded

variable {σ : Type}

/-- The host goes on. -/
def goOn {α : Type} (h : Recorded σ) (x : α × σ) : α × Recorded σ := (x.1, { h with host := x.2 })

/-- The host goes on, whichever answer it gives. -/
def resume {α β : Type} (h : Recorded σ) :
    Except (β × σ) (α × σ) → Except (β × Recorded σ) (α × Recorded σ)
  | .ok x => .ok (h.goOn x)
  | .error x => .error (h.goOn x)

/-- Something is done to the host. -/
def note (h : Recorded σ) (effect : Effect σ) (host : σ) : Recorded σ :=
  { host := host, effects := h.effects ++ [effect] }

instance [Host σ] : Host (Recorded σ) where
  refuses call h := Host.refuses call h.host
  newPipe h := h.goOn (Host.newPipe h.host)
  nextPid h := Host.nextPid h.host
  start pid a h := h.note (.started h.host pid a) (Host.start pid a h.host)
  write file text h := h.note (.wrote file text) (Host.write file text h.host)
  unread file h := Host.unread file h.host
  take file n h := { h with host := Host.take file n h.host }
  enter place path h := Host.enter place path h.host
  pathOf place h := Host.pathOf place h.host
  kill pid signal h :=
    (Host.kill pid signal h.host).map fun (self, host) => (self, h.note (.sent pid signal) host)
  drift held h := h.goOn (Host.drift held h.host)
  await held h := h.resume (Host.await held h.host)

section Replies

variable {α β : Type} {g h : Recorded σ} {x : Except (β × σ) (α × σ)}

theorem resume_eq_ok {a : α} (hresume : g.resume x = .ok (a, h)) : x = .ok (a, h.host) := by
  cases x with
  | error x => cases hresume
  | ok x =>
      cases hresume
      rfl

theorem resume_eq_error {b : β} (hresume : g.resume x = .error (b, h)) :
    x = .error (b, h.host) := by
  cases x with
  | error x =>
      cases hresume
      rfl
  | ok x => cases hresume

theorem kill_eq_ok [Host σ] {pid : Int} {signal : Nat} {self : Bool}
    (hkill : Host.kill pid signal g = .ok (self, h)) :
    Host.kill pid signal g.host = .ok (self, h.host) := by
  change (Host.kill pid signal g.host).map _ = _ at hkill
  cases hanswer : Host.kill pid signal g.host with
  | error errno =>
      rw [hanswer] at hkill
      cases hkill
  | ok answer =>
      rw [hanswer] at hkill
      cases hkill
      rfl

end Replies

end Recorded

/-! ### Alike records -/

section Records

variable {σ : Type} {like : σ → σ → Prop}

/-- The same is done to two hosts that are alike. -/
inductive Effect.Alike (like : σ → σ → Prop) : Effect σ → Effect σ → Prop where
  | started {g h : σ} (pid : Int) {a b : Assignment} : like g h → a.Alike b →
      Effect.Alike like (.started g pid a) (.started h pid b)
  | wrote (file : OpenFile) (text : Bytes) :
      Effect.Alike like (.wrote file text) (.wrote file text)
  | sent (pid : Int) (signal : Nat) : Effect.Alike like (.sent pid signal) (.sent pid signal)

/-- Hosts that are alike, and with alike records. -/
structure Recorded.Like (like : σ → σ → Prop) (g h : Recorded σ) : Prop where
  host : like g.host h.host
  effects : List.Forall₂ (Effect.Alike like) g.effects h.effects

namespace Recorded

variable {g h : Recorded σ}

theorem Like.goOn {α : Type} {x y : α × σ} (hgh : Like like g h) (hxy : Besides like x y) :
    Besides (Like like) (g.goOn x) (h.goOn y) :=
  ⟨hxy.answer, hxy.host, hgh.effects⟩

theorem Like.note {e f : Effect σ} {g' h' : σ} (hgh : Like like g h) (hef : Effect.Alike like e f)
    (h'' : like g' h') : Like like (g.note e g') (h.note f h') :=
  ⟨h'', List.rel_append hgh.effects (.cons hef .nil)⟩

end Recorded

/-- Less may be said of the two hosts. -/
theorem Effect.Alike.mono {like' : σ → σ → Prop} {e f : Effect σ} (h : Effect.Alike like e f)
    (hlike : ∀ g h, like g h → like' g h) : Effect.Alike like' e f := by
  cases h with
  | started pid hgh hab => exact .started pid (hlike _ _ hgh) hab
  | wrote file text => exact .wrote file text
  | sent pid signal => exact .sent pid signal

/-- What is so of both hosts whenever a child is started. -/
theorem Effect.Alike.of_started {effects effects' : List (Effect σ)} {P : σ → Prop}
    (h : List.Forall₂ (Effect.Alike like) effects effects') (hP : ∀ g h, like g h → P g ∧ P h)
    {host : σ} {pid : Int} {a : Assignment} (hmem : .started host pid a ∈ effects ++ effects') :
    P host := by
  induction h with
  | nil => cases hmem
  | @cons e f effects effects' hef _ ih =>
      simp only [List.cons_append, List.mem_cons, List.mem_append] at hmem
      rcases hmem with rfl | hmem | rfl | hmem
      · cases hef with
        | started _ hgh _ => exact (hP _ _ hgh).1
      · exact ih (List.mem_append_left _ hmem)
      · cases hef with
        | started _ hgh _ => exact (hP _ _ hgh).2
      · exact ih (List.mem_append_right _ hmem)

variable [Host σ]

/-- **Twin hosts with alike records are twins.** -/
theorem Twins.recorded (htwins : Twins like) : Twins (Recorded.Like like) where
  refuses call hgh := htwins.refuses call hgh.host
  newPipe hgh := hgh.goOn (htwins.newPipe hgh.host)
  nextPid hgh := htwins.nextPid hgh.host
  start pid _ _ hgh hab := hgh.note (.started pid hgh.host hab) (htwins.start pid hgh.host hab)
  write file text hgh := hgh.note (.wrote file text) (htwins.write file text hgh.host)
  enter place path hgh := htwins.enter place path hgh.host
  pathOf place hgh := htwins.pathOf place hgh.host
  kill pid signal hgh := by
    rename_i g h
    have hreplies := htwins.kill pid signal hgh.host
    change Replies _ _ ((Host.kill pid signal g.host).map _) ((Host.kill pid signal h.host).map _)
    generalize Host.kill pid signal g.host = first at hreplies ⊢
    generalize Host.kill pid signal h.host = second at hreplies ⊢
    cases hreplies with
    | ok hanswer => exact .ok ⟨hanswer.answer, hgh.note (.sent pid signal) hanswer.host⟩
    | error herrno => exact .error herrno
  drift hgh hheld := hgh.goOn (htwins.drift hgh.host hheld)
  await hgh hheld := by
    rename_i g h d e
    have hreplies := htwins.await hgh.host hheld
    change Replies _ _ (g.resume (Host.await d g.host)) (h.resume (Host.await e h.host))
    generalize Host.await d g.host = first at hreplies ⊢
    generalize Host.await e h.host = second at hreplies ⊢
    cases hreplies with
    | ok hanswer => exact .ok (hgh.goOn hanswer)
    | error hanswer => exact .error (hgh.goOn hanswer)

variable {file : OpenFile} {calm : σ → Prop}

/-- A record is nothing that an open file could be shared with. -/
theorem Shared.recorded (hshared : Shared file calm) :
    Shared file fun h : Recorded σ => calm h.host where
  take n hh := hshared.take n hh
  newPipe hh :=
    have hleaves := hshared.newPipe hh
    ⟨hleaves.calm, hleaves.unread⟩
  start pid a hh :=
    have hleaves := hshared.start pid a hh
    ⟨hleaves.calm, hleaves.unread⟩
  write out text hh :=
    have hleaves := hshared.write out text hh
    ⟨hleaves.calm, hleaves.unread⟩
  kill hh hkill :=
    have hleaves := hshared.kill hh (Recorded.kill_eq_ok hkill)
    ⟨hleaves.calm, hleaves.unread⟩
  drift held hh :=
    have hleaves := hshared.drift held hh
    ⟨hleaves.calm, hleaves.unread⟩
  await hh hawait :=
    have hleaves := hshared.await hh (Recorded.resume_eq_ok hawait)
    ⟨hleaves.calm, hleaves.unread⟩
  lose hh hawait :=
    have hleaves := hshared.lose hh (Recorded.resume_eq_error hawait)
    ⟨hleaves.calm, hleaves.unread⟩

/-! ### Without input -/

/-- A calm host with nothing left to read from an open file. -/
structure Spent (file : OpenFile) (calm : σ → Prop) (host : σ) : Prop where
  calm : calm host
  unread : Host.unread file host = []

theorem Leaves.spent {host host' : σ} (h : Leaves file calm host host')
    (hspent : Spent file calm host) : Spent file calm host' := by
  refine ⟨h.calm, List.suffix_nil.1 ?_⟩
  rw [← hspent.unread]
  exact h.unread

/-- When everything has been taken nothing is left. -/
theorem Shared.spent_take (hshared : Shared file calm) {host : σ} (hhost : calm host) :
    Spent file calm (Host.take file (Host.unread file host).length host) := by
  obtain ⟨hcalm, hunread⟩ := hshared.take (Host.unread file host).length hhost
  rw [List.drop_length] at hunread
  exact ⟨hcalm, hunread⟩

/-- **Twin hosts stay without input.** -/
theorem Twins.spent (htwins : Twins like) (hshared : Shared file calm) :
    Twins fun g h => like g h ∧ Spent file calm g ∧ Spent file calm h where
  refuses call hgh := htwins.refuses call hgh.1
  newPipe hgh :=
    have hpipe := htwins.newPipe hgh.1
    ⟨hpipe.answer, hpipe.host, (hshared.newPipe hgh.2.1.calm).spent hgh.2.1,
      (hshared.newPipe hgh.2.2.calm).spent hgh.2.2⟩
  nextPid hgh := htwins.nextPid hgh.1
  start pid _ _ hgh hab :=
    ⟨htwins.start pid hgh.1 hab, (hshared.start pid _ hgh.2.1.calm).spent hgh.2.1,
      (hshared.start pid _ hgh.2.2.calm).spent hgh.2.2⟩
  write out text hgh :=
    ⟨htwins.write out text hgh.1, (hshared.write out text hgh.2.1.calm).spent hgh.2.1,
      (hshared.write out text hgh.2.2.calm).spent hgh.2.2⟩
  enter place path hgh := htwins.enter place path hgh.1
  pathOf place hgh := htwins.pathOf place hgh.1
  kill pid signal hgh := by
    refine (htwins.kill pid signal hgh.1).imp ?_ fun _ _ _ _ => id
    intro a b hg hh hanswer
    exact ⟨hanswer.answer, hanswer.host, (hshared.kill hgh.2.1.calm hg).spent hgh.2.1,
      (hshared.kill hgh.2.2.calm hh).spent hgh.2.2⟩
  drift hgh hheld :=
    have hdrift := htwins.drift hgh.1 hheld
    ⟨hdrift.answer, hdrift.host, (hshared.drift _ hgh.2.1.calm).spent hgh.2.1,
      (hshared.drift _ hgh.2.2.calm).spent hgh.2.2⟩
  await hgh hheld := by
    refine (htwins.await hgh.1 hheld).imp ?_ ?_
    · intro a b hg hh hanswer
      exact ⟨hanswer.answer, hanswer.host, (hshared.await hgh.2.1.calm hg).spent hgh.2.1,
        (hshared.await hgh.2.2.calm hh).spent hgh.2.2⟩
    · intro a b hg hh hanswer
      exact ⟨hanswer.answer, hanswer.host, (hshared.lose hgh.2.1.calm hg).spent hgh.2.1,
        (hshared.lose hgh.2.2.calm hh).spent hgh.2.2⟩

end Records

end JobShell
