/-
**An input that the shell shares with its children.**

The standard input of a script is read by the shell, which takes lines from it, and by the children,
which inherit it and take what they like.  Whoever takes bytes takes them from the front, and nothing
comes back.  On such a host whatever the shell does leaves an end of its input, and the call for a
line takes the first line of what is left when the call is made.

Main definitions:

* `JobShell.Shared` — an open file from whose front bytes are taken, and to which nothing is added;
* `JobShell.Supervisor.Sober` — what every computation does that shares its input.

Main results:

* `JobShell.Supervisor.Proceeds.sober` — moves are sober, and so is a stop;
* `JobShell.Shell.runLine_sober`, `JobShell.Shell.greet_sober` — running a line, and greeting;
* `JobShell.Shell.readInput_takes` — **reading a line takes that line and nothing more**.
-/

import JobShell.CommandLine
import JobShell.Proofs.Input.Unbuffered
import JobShell.Proofs.Job.Accounting
import JobShell.Proofs.Running

set_option autoImplicit false

namespace JobShell

/-! ### Taking from the front -/

/-- From a host to a calm one, on which an end of the open file is left. -/
structure Leaves {σ : Type} [Host σ] (file : OpenFile) (calm : σ → Prop) (host host' : σ) : Prop where
  calm : calm host'
  unread : Host.unread file host' <:+ Host.unread file host

/-- An open file that the shell shares with its children.  As long as the host is calm nothing is
added to the file, and whatever happens leaves the host calm: children may take bytes from the front
at any time, and what the shell reads is gone from there. -/
structure Shared {σ : Type} [Host σ] (file : OpenFile) (calm : σ → Prop) : Prop where
  take : ∀ {host : σ} (n : Nat), calm host → calm (Host.take file n host) ∧
    Host.unread file (Host.take file n host) = (Host.unread file host).drop n
  newPipe : ∀ {host : σ}, calm host → Leaves file calm host (Host.newPipe host).2
  start : ∀ {host : σ} (pid : Int) (a : Assignment), calm host →
    Leaves file calm host (Host.start pid a host)
  write : ∀ {host : σ} (out : OpenFile) (text : Bytes), calm host →
    Leaves file calm host (Host.write out text host)
  kill : ∀ {host host' : σ} {pid : Int} {signal : Nat} {self : Bool}, calm host →
    Host.kill pid signal host = .ok (self, host') → Leaves file calm host host'
  drift : ∀ {host : σ} (held : Descriptors), calm host →
    Leaves file calm host (Host.drift held host).2
  await : ∀ {host host' : σ} {held : Descriptors} {death : Int × Ending}, calm host →
    Host.await held host = .ok (death, host') → Leaves file calm host host'
  lose : ∀ {host host' : σ} {held : Descriptors} {loss : Loss}, calm host →
    Host.await held host = .error (loss, host') → Leaves file calm host host'

section Leaving

variable {σ : Type} [Host σ] {file : OpenFile} {calm : σ → Prop} {host host' host'' : σ}

theorem Leaves.refl (h : calm host) : Leaves file calm host host := ⟨h, List.suffix_refl _⟩

theorem Leaves.trans (h : Leaves file calm host host') (h' : Leaves file calm host' host'') :
    Leaves file calm host host'' := ⟨h'.calm, h'.unread.trans h.unread⟩

end Leaving

namespace Supervisor

variable {σ : Type} [Host σ] {file : OpenFile} {calm : σ → Prop} {launching : Assignment → Prop}
  {s t u : Supervisor σ} {α β : Type}

/-! ### Moves and stops -/

/-- **Every move leaves an end of the input.** -/
theorem Moves.leaves (hshared : Shared file calm) (hmove : Moves launching s t)
    (hs : calm s.host) : Leaves file calm s.host t.host := by
  cases hmove with
  | drift held =>
      rw [drifted_host]
      exact hshared.drift held hs
  | pipe => exact hshared.newPipe hs
  | write out text => exact hshared.write out text hs
  | kill hkill => exact hshared.kill hs hkill
  | signal | builtin | wait | reap => exact .refl hs
  | launch => exact hshared.start _ _ hs
  | wake _ _ hawait =>
      rw [bury_host]
      exact hshared.await hs hawait

/-- **So does every stop.** -/
theorem Stops.leaves {stop : Stop} (hshared : Shared file calm) (hstop : Stops launching s stop t)
    (hs : calm s.host) : Leaves file calm s.host t.host := by
  cases hstop with
  | refused | undecodable | childless => exact .refl hs
  | lose _ _ hawait => exact hshared.lose hs hawait
  | doze _ _ hawait =>
      rw [bury_host]
      exact hshared.await hs hawait
  | relisted => exact hshared.start _ _ hs
  | struck hkill => exact hshared.kill hs hkill

theorem Reaches.leaves (hshared : Shared file calm) (h : Reaches launching s t)
    (hs : calm s.host) : Leaves file calm s.host t.host := by
  refine Reaches.keeps (I := fun u => Leaves file calm s.host u.host) h ?_ (.refl hs)
  intro u v hmove hu
  exact hu.trans (hmove.leaves hshared hu.calm)

theorem Comes.leaves {r : Except Stop α} (hshared : Shared file calm) (h : Comes launching s r t)
    (hs : calm s.host) : Leaves file calm s.host t.host := by
  refine Comes.keeps (I := fun u => Leaves file calm s.host u.host) h ?_ ?_ (.refl hs)
  · intro u v hmove hu
    exact hu.trans (hmove.leaves hshared hu.calm)
  · intro u stop v hstop hu
    exact hu.trans (hstop.leaves hshared hu.calm)

/-- No new child of a supervisor whose jobs are accounted for is listed already. -/
theorem Stops.not_assertion {stop : Stop} (hstop : Stops launching s stop t) (hs : s.Accounted) :
    stop ≠ .assertionFailed := by
  cases hstop with
  | refused | undecodable | childless | lose | doze | struck => simp
  | relisted _ hregister => exact absurd hregister (register_choosePid_ne_none hs.children _)

/-! ### Sober computations -/

/-- A computation leaves an end of the input.  If all jobs are accounted for when it begins, it
stops at no assertion, and they are so afterwards if it does not stop at all. -/
structure Sober (file : OpenFile) (calm : σ → Prop) (s : Supervisor σ) (r : Except Stop α)
    (t : Supervisor σ) : Prop where
  leaves : calm s.host → Leaves file calm s.host t.host
  accounted : s.Accounted →
    OkOr (fun _ t => t.Accounted) (fun stop _ => stop ≠ .assertionFailed) r t

/-- What comes to moves accounts for the jobs. -/
theorem Proceeds.accounted {r : Except Stop α} (h : Proceeds launching s r t) (hs : s.Accounted) :
    OkOr (fun _ t => t.Accounted) (fun stop _ => stop ≠ .assertionFailed) r t := by
  have haccounted : ∀ u, Reaches launching s u → u.Accounted :=
    fun u hu => hu.keeps (fun _ _ => Moves.accounted) hs
  rcases r with stop | a
  · rcases h with ⟨u, v, hu, hstop, -⟩ | ⟨e, he, -⟩
    · exact hstop.not_assertion (haccounted u hu)
    · obtain rfl := Except.error.inj he
      intro hassertion
      cases hassertion
  · exact haccounted t h.reaches

/-- **What comes to moves is sober**, even if it fails. -/
theorem Proceeds.sober {r : Except Stop α} (hshared : Shared file calm)
    (h : Proceeds launching s r t) : Sober file calm s r t := by
  refine ⟨?_, h.accounted⟩
  intro hs
  rcases h with h | ⟨e, -, hreaches⟩
  · exact h.leaves hshared hs
  · exact hreaches.leaves hshared hs

theorem Sober.trans {a : β} {r : Except Stop α}
    (h : Sober file calm s (.ok a : Except Stop β) t) (h' : Sober file calm t r u) :
    Sober file calm s r u := by
  constructor
  · intro hs
    have ht := h.leaves hs
    exact ht.trans (h'.leaves ht.calm)
  · intro hs
    exact h'.accounted (h.accounted hs)

/-- What has stopped early gives no result of any type. -/
theorem Sober.error {stop : Stop} (h : Sober file calm s (.error stop : Except Stop β) t) :
    Sober file calm s (.error stop : Except Stop α) t :=
  ⟨h.leaves, h.accounted⟩

end Supervisor

open Supervisor (Proceeds Sober)

namespace Shell

variable {σ : Type} [Host σ] {file : OpenFile} {calm : σ → Prop} {s t : Shell σ} {α β : Type}

/-- The same of a computation on the shell. -/
def SoberOn (file : OpenFile) (calm : σ → Prop) (s : Shell σ) (r : Except Stop α) (t : Shell σ) :
    Prop :=
  Sober file calm s.toSupervisor r t.toSupervisor

theorem SoberOn.bind {x : ShellM σ β} {f : β → ShellM σ α}
    (hx : Ensures (· = s) x (SoberOn file calm s))
    (hf : ∀ b t, Ensures (· = t) (f b) (SoberOn file calm t)) :
    Ensures (· = s) (x >>= f) (SoberOn file calm s) := by
  refine Ensures.bind _ hx ?_ ?_
  · intro b
    refine Ensures.of_eq ?_
    intro t ht
    exact (hf b t).post fun r u hu => Sober.trans ht hu
  · intro stop t ht
    exact Sober.error ht

theorem SoberOn.ofPure (a : α) :
    Ensures (· = s) (pure a : ShellM σ α) (SoberOn file calm s) := by
  refine Ensures.ofPure ?_
  rintro _ rfl
  exact ⟨fun hs => .refl hs, fun hs => hs⟩

section Lines

variable (hshared : Shared file calm)
include hshared

theorem say_sober (fd : Nat) (text : Bytes) :
    Ensures (· = s) (say fd text) (SoberOn file calm s) := by
  refine (say_spares fd text).post ?_
  intro r t ht
  have hproceeds : ProceedsOn (fun _ => True) s r t := ProceedsOn.of_spares ht
  exact hproceeds.sober hshared

/-- Running a line leaves an end of the input. -/
theorem runLine_sober (text : Bytes) : Ensures (· = s) (runLine text) (SoberOn file calm s) := by
  have hproceeds : Ensures (· = s) (runLine text) (ProceedsOn (fun _ => True) s) :=
    runLine_proceeds text fun _ _ _ _ => trivial
  exact hproceeds.post fun _ _ ht => Proceeds.sober hshared ht

theorem report_sober : Ensures (· = s) report (SoberOn file calm s) := by
  refine Ensures.supervise ?_
  rintro s rfl
  have hcomes := @Supervisor.collectCompleted_comes σ _ (fun _ => True) s.toSupervisor s.descriptors
  refine (Supervisor.ensures_of_reaches hcomes).post ?_
  rintro (stop | jobs) t ht
  · exact Sober.error (Proceeds.sober hshared (.inl ht))
  · obtain ⟨u, hu, -, ht⟩ := ht
    have hsober : Sober file calm s.toSupervisor (.ok ⟨⟩ : Except Stop Unit) u :=
      Proceeds.sober hshared (.inl hu)
    refine hsober.trans ?_
    rw [ht]
    -- handing out the completed jobs leaves the running ones listed
    constructor
    · intro hu
      exact .refl hu
    · intro hu
      exact ⟨⟨hu.truthful.distinct, hu.truthful.ends, hu.truthful.attested⟩, hu.once, hu.children,
        hu.decoded⟩

/-- Greeting leaves an end of the input. -/
theorem greet_sober (interactive : Bool) (prompt : String) :
    Ensures (· = s) (greet interactive prompt) (SoberOn file calm s) := by
  refine SoberOn.bind (report_sober hshared) ?_
  intro jobs t
  split
  · exact SoberOn.bind (say_sober hshared 1 _) fun _ u => say_sober hshared 1 _
  · exact SoberOn.ofPure _

end Lines

/-! ### Reading a line -/

/-- Letting time pass leaves an end of the input. -/
theorem passed_leaves (hshared : Shared file calm) (hs : calm s.host) :
    Leaves file calm s.host s.passed.host := by
  have hmove : Supervisor.Moves (fun _ => True) s.toSupervisor s.passed.toSupervisor :=
    .drift s.descriptors s.toSupervisor
  exact hmove.leaves hshared hs

/-- What a call for a line gives, and the shell after it. -/
theorem readInput_run (file : OpenFile) (limit : Nat) (s : Shell σ) :
    (readInput file limit).run s =
      let read := (Feed.unbuffered (Host.unread file s.passed.host)).nextLine limit
      (.ok read.1, { s.passed with
        host := Host.take file read.2.source.taken s.passed.host }) := rfl

/-- A call for a line takes `piece` of an input from which other bytes have been taken before. -/
structure Takes (file : OpenFile) (limit : Nat) (s : Shell σ) (before piece : Bytes)
    (input : Input) (t : Shell σ) : Prop where
  left : Host.unread file s.host = before ++ piece ++ Host.unread file t.host
  /-- The piece is the first line of what was left then. -/
  first : piece = throughNewline (piece ++ Host.unread file t.host)
  answers : Input.answers limit (piece ++ Host.unread file t.host) 1 = [input]

/-- What has been taken earlier has been taken before. -/
theorem Takes.earlier {limit : Nat} {earlier before piece : Bytes} {input : Input} {u : Shell σ}
    (h : Takes file limit t before piece input u)
    (ht : Host.unread file s.host = earlier ++ Host.unread file t.host) :
    Takes file limit s (earlier ++ before) piece input u := by
  refine ⟨?_, h.first, h.answers⟩
  rw [ht, h.left, List.append_assoc, List.append_assoc, List.append_assoc]

/-- Reading a line leaves an end of the input. -/
theorem readInput_sober (hshared : Shared file calm) (limit : Nat) :
    Ensures (· = s) (readInput file limit) (SoberOn file calm s) := by
  rintro s rfl
  rw [readInput_run]
  constructor
  · intro hs
    have hpassed := passed_leaves hshared hs
    refine hpassed.trans ?_
    obtain ⟨hcalm, hleft⟩ := hshared.take
      ((Feed.unbuffered (Host.unread file s.passed.host)).nextLine limit).2.source.taken hpassed.calm
    refine ⟨hcalm, ?_⟩
    change Host.unread file (Host.take file _ s.passed.host) <:+ _
    rw [hleft]
    exact List.drop_suffix _ _
  · intro hs
    exact (hs.drifted s.descriptors).setHost _

/-- **Reading a line takes that line and nothing more.** -/
theorem readInput_takes (hshared : Shared file calm) {limit : Nat} (hlimit : limit + 1 < twoTo 64)
    (hs : calm s.host) :
    ∃ before piece input t, (readInput file limit).run s = (.ok (.ok input), t) ∧
      Takes file limit s before piece input t := by
  obtain ⟨hcalm, before, hbefore⟩ := passed_leaves hshared hs
  generalize hrest : Host.unread file s.passed.host = rest at hbefore
  obtain ⟨hresult, htaken⟩ := Feed.nextLine_unbuffered rest hlimit
  have hrun := readInput_run file limit s
  simp only [hrest, hresult, htaken] at hrun
  have hleft := (hshared.take (throughNewline rest).length hcalm).2
  rw [hrest] at hleft
  have hwhole := throughNewline_append_drop rest
  rw [← hleft] at hwhole
  refine ⟨before, throughNewline rest, _, _, hrun, ?_, ?_, ?_⟩
  · rw [List.append_assoc, hwhole, hbefore]
  · rw [hwhole]
  · rw [hwhole]
    by_cases hnil : rest = []
    · rw [if_pos hnil, hnil, Input.answers_nil]
      rfl
    · rw [if_neg hnil, Input.answers_of_ne_nil hnil]
      rfl

end Shell

end JobShell
