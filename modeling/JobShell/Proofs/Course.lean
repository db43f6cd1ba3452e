/-
**What becomes of a child of the shell, whatever the others do.**

A child is on its way to its program; it has come to it; or something has hindered it, and then it
says so, once, and ends.  What other processes do, and what the shell does, can only kill it.  So at
any time it can be told from what the child has done how far it has come.

Main definitions:

* `JobShell.LaunchError.line`, `JobShell.Assignment.complain` — what a child says that is hindered;
* `JobShell.Assignment.Course` — how far a child has come;
* `JobShell.Assignment.Fate`, `JobShell.Assignment.Proceeds` — what this means for its process;
* `JobShell.Machine.Bears` — a machine on which a child of the shell is, or has been.

Main results:

* `JobShell.Assignment.Course.turn` — the child has its turn;
* `JobShell.Machine.Bears.story` — **whatever happens, a child keeps its course**;
* `JobShell.Machine.bears_start` — the start of a child;
* `JobShell.Machine.Bears.fate` — what that means for the process of the child.
-/

import JobShell.Proofs.Conduct
import JobShell.Proofs.Diagnostics
import JobShell.Proofs.Machine.Alone
import JobShell.Proofs.Machine.Story

set_option autoImplicit false

namespace JobShell

/-- What a child says that cannot run its program. -/
def LaunchError.line (e : LaunchError) : Bytes := utf8 (e.message ++ "\n")

namespace Assignment

open Machine (Act Grouped Story)
open Standing (Spared Turn)

/-- A child says why it cannot run its program, and ends. -/
def complain (e : LaunchError) : Prog Nat := do
  let _ ← Prog.writeAll 2 e.line
  return launchFailure

theorem run_eq (a : Assignment) (environment : Environment) :
    a.run environment = a.launch environment >>= complain := rfl

/-- There is always something to say. -/
theorem line_ne_nil (e : LaunchError) : e.line ≠ [] := by
  have hend : newline ∈ e.line := by
    rw [LaunchError.line, utf8_eq, List.mem_flatMap]
    exact ⟨'\n', by simp, by decide⟩
  intro hnil
  rw [hnil] at hend
  cases hend

/-- It is said in one call. -/
theorem complain_eq (e : LaunchError) :
    ∃ next : Except Errno Nat → Prog Nat, complain e = .call (.write 2 e.line) next ∧
      next (.ok e.line.length) = .done launchFailure := by
  obtain ⟨n, hn⟩ : ∃ n, Prog.patience = n + 1 + 1 := ⟨Prog.patience - 2, rfl⟩
  unfold complain Prog.writeAll Prog.repeatWhile
  rw [hn, Prog.repeatFor, if_neg (line_ne_nil e)]
  refine ⟨_, rfl, ?_⟩
  -- nothing is left to be said after that
  simp only [Prog.bind, List.drop_length]
  rw [Prog.repeatFor, if_pos rfl]
  rfl

/-- Whoever complains calls for nothing else. -/
theorem write_of_complain {e : LaunchError} {c : Call} {next : c.Reply → Prog Nat}
    (h : complain e = .call c next) : c = .write 2 e.line := by
  obtain ⟨next', hcomplain, -⟩ := complain_eq e
  exact (Prog.call.inj (h.symm.trans hcomplain)).1

/-- **How far a child has come**, by what it has done. -/
inductive Course (a : Assignment) (environment : Environment) (m : Machine) (v : Standing) :
    List Machine.Deed → Prop where
  /-- It is about to start a session of its own. -/
  | fresh {next : Except Errno Unit → Prog Nat} :
      v.image = none → v.phase = .running (.call .setsid next) →
      next (.ok ()) = (a.settle environment >>= complain) → v.descriptors = a.descriptors →
      v.opened = [] → v.pid ∉ m.groups → Course a environment m v []
  /-- It is on its way. -/
  | underway {x : Prog LaunchError} {refusals : List Machine.Deed} :
      v.image = none → v.phase = .running (x >>= complain) →
      x.Abides (a.Permits environment) (a.GivesUp environment) ⟨⟨v.descriptors, v.opened⟩, refusals⟩ →
      (∀ deed ∈ refusals, deed.IsRefusal) → Course a environment m v refusals
  /-- It has said what hinders it, and is about to end. -/
  | resolved {e : LaunchError} {refusals : List Machine.Deed} :
      v.image = none → v.phase = .running (.done launchFailure) →
      a.Hindered environment ⟨v.descriptors, v.opened⟩ refusals e →
        Course a environment m v (refusals ++ [.tells e.line])
  /-- It has said what hinders it, and has ended. -/
  | failed {e : LaunchError} {d : Descriptors} {refusals : List Machine.Deed} : v.image = none →
      v.phase = .ended (.exited launchFailure) → v.descriptors = {} →
      a.Hindered environment ⟨d, v.opened⟩ refusals e →
        Course a environment m v (refusals ++ [.tells e.line])
  /-- It has been killed before it could run its program. -/
  | killed {deeds : List Machine.Deed} {signal : Nat} : v.image = none →
      v.phase = .ended (.killed signal) →
      ((∀ deed ∈ deeds, deed.IsRefusal) ∨ ∃ e d refusals,
        a.Hindered environment ⟨d, v.opened⟩ refusals e ∧ deeds = refusals ++ [.tells e.line]) →
        Course a environment m v deeds
  /-- It has run its program. -/
  | started {path : Bytes} {words : List Bytes} {r : Arrival} {refusals more : List Machine.Deed} :
      v.image.isSome = true → a.Ready environment path words r refusals →
        Course a environment m v (refusals ++ .runs path words environment r :: more)

variable {a : Assignment} {environment : Environment} {m m' : Machine} {v w : Standing}
  {done deeds : List Machine.Deed} {pipes pipes' : Nat} {leads : Prop} {pid : Int}

/-! ### One act -/

/-- A program that has ended nowhere is not done. -/
theorem bind_complain_ne_done {x : Prog LaunchError} {code : Nat} :
    (x >>= complain) ≠ .done code := by
  cases x with
  | done e =>
      obtain ⟨next, hcomplain, -⟩ := complain_eq e
      change complain e ≠ _
      rw [hcomplain]
      exact nofun
  | call c next => exact nofun

/-- A child that tries to run its program has not given up. -/
theorem exec_of_bind {x : Prog LaunchError} {path : Bytes} {words : List Bytes}
    {next : Errno → Prog Nat}
    (h : Phase.running (x >>= complain) = .running (.call (.exec path words environment) next)) :
    ∃ next' : Errno → Prog LaunchError, x = .call (.exec path words environment) next' ∧
      ∀ errno, (next' errno >>= complain) = next errno := by
  have heq := Phase.running.inj h
  cases x with
  | done e => cases write_of_complain heq
  | call c next' =>
      obtain ⟨rfl, hnext⟩ := Prog.call.inj heq
      exact ⟨next', rfl, fun errno => congrFun (eq_of_heq hnext) errno⟩

/-- On its way a child does nothing that could be noticed but meet refusals. -/
theorem deeds_of_permits {c : Call} {t : Trail} (hc : a.Permits environment c t) {reply : c.Reply} :
    ∀ deed ∈ c.deeds t.descriptors reply, deed.IsRefusal := by
  cases c with
  | openPath path how mode =>
      rcases (reply : Except Errno Nat) with errno | fd
      · simp [Call.deeds, Machine.Deed.IsRefusal]
      · simp [Call.deeds]
  | exec path words environment => simp [Call.deeds, Machine.Deed.IsRefusal]
  | close _ | dup2 _ _ | dispose _ _ | unblockChild => simp [Call.deeds]
  | _ => exact hc.elim

/-- A child that is on its way has its turn. -/
theorem turn_underway {x : Prog LaunchError} {refusals : List Machine.Deed} (himage : v.image = none)
    (hphase : v.phase = .running (x >>= complain))
    (hx : x.Abides (a.Permits environment) (a.GivesUp environment)
      ⟨⟨v.descriptors, v.opened⟩, refusals⟩)
    (hrefusals : ∀ deed ∈ refusals, deed.IsRefusal) (h : Turn pipes pipes' leads v done w) :
    a.Course environment m w (refusals ++ done) := by
  have hmore : ∀ {c : Call} {reply : c.Reply},
      a.Permits environment c ⟨⟨v.descriptors, v.opened⟩, refusals⟩ →
        ∀ deed ∈ refusals ++ c.deeds v.descriptors reply, deed.IsRefusal := by
    intro c reply hc deed hdeed
    rcases List.mem_append.1 hdeed with hdeed | hdeed
    · exact hrefusals deed hdeed
    · exact deeds_of_permits hc deed hdeed
  -- either the child is still in its own part of the program, or it has come to the complaint
  cases h with
  | waits =>
      rw [List.append_nil]
      exact .underway himage hphase hx hrefusals
  | killed signal _ =>
      rw [List.append_nil]
      exact .killed himage rfl (.inl hrefusals)
  | finished hdone =>
      rw [hphase] at hdone
      exact absurd (Phase.running.inj hdone) bind_complain_ne_done
  | @exited code next hexit =>
      rw [hphase] at hexit
      have heq := Phase.running.inj hexit
      cases x with
      | done e => cases write_of_complain heq
      | call c next' =>
          obtain ⟨rfl, -⟩ := Prog.call.inj heq
          exact hx.1.elim
  | @called c next reply d opened hcall haffects hgrants =>
      rw [hphase] at hcall
      have heq := Phase.running.inj hcall
      cases x with
      | done e =>
          -- the call is the one that writes the complaint
          obtain ⟨next', hcomplain, hnext⟩ := complain_eq e
          have hwrite := hcomplain.symm.trans heq
          obtain ⟨rfl, hnext'⟩ := Prog.call.inj hwrite
          obtain rfl := eq_of_heq hnext'
          obtain rfl : reply = .ok e.line.length := hgrants hx.2
          obtain ⟨rfl, rfl⟩ := haffects
          have htells : (Call.write 2 e.line).deeds v.descriptors (.ok e.line.length) =
              [.tells e.line] := if_pos hx.2
          rw [htells, Standing.put_self]
          refine .resolved himage ?_ hx.1
          exact congrArg Phase.running hnext
      | call c' next' =>
          -- the call is one that the child may make, and what it goes on with abides too
          obtain ⟨rfl, hnext⟩ := Prog.call.inj heq
          obtain rfl := eq_of_heq hnext
          exact .underway himage rfl (hx.2 _ _ _ _ _ haffects hgrants.weaken) (hmore hx.1)
  | @executed path words environment' next image rest hexec =>
      rw [hphase] at hexec
      obtain ⟨next', rfl, -⟩ := exec_of_bind hexec
      obtain ⟨rfl, hready⟩ := hx.1
      exact .started rfl hready
  | @refused path words environment' next errno hexec =>
      rw [hphase] at hexec
      obtain ⟨next', rfl, hnext⟩ := exec_of_bind hexec
      -- a refusal changes nothing that the child holds
      have hrest := hx.2 0 0 errno v.descriptors [] ⟨rfl, rfl⟩ trivial
      unfold Trail.after at hrest
      rw [List.append_nil] at hrest
      refine .underway (by simpa using himage) ?_ (by simpa [Call.deeds] using hrest) (hmore hx.1)
      exact congrArg Phase.running (hnext errno).symm

/-- **A child has its turn**, and has got a session if it is to have one. -/
theorem Course.turn (hcourse : a.Course environment m v deeds)
    (hfresh : ∀ next : Except Errno Unit → Prog Nat, v.phase ≠ .running (.call .setsid next))
    (h : Turn pipes pipes' leads v done w) : a.Course environment m' w (deeds ++ done) := by
  cases hcourse with
  | fresh _ hphase => exact absurd hphase (hfresh _)
  | underway himage hphase hx hrefusals => exact turn_underway himage hphase hx hrefusals h
  | @resolved e refusals himage hphase hhindered =>
      -- a child with an error has no calls left but the end
      cases h with
      | waits =>
          rw [List.append_nil]
          exact .resolved himage hphase hhindered
      | killed signal _ =>
          rw [List.append_nil]
          exact .killed himage rfl (.inr ⟨e, _, refusals, hhindered, rfl⟩)
      | @finished code hdone =>
          rw [hphase] at hdone
          obtain rfl := Prog.done.inj (Phase.running.inj hdone)
          rw [List.append_nil]
          exact .failed himage rfl rfl hhindered
      | exited hcall | called hcall | executed _ _ hcall | refused _ hcall =>
          rw [hphase] at hcall
          cases hcall
  | failed himage hphase hclosed hhindered =>
      cases h with
      | waits =>
          rw [List.append_nil]
          exact .failed himage hphase hclosed hhindered
      | killed _ hcall | finished hcall | exited hcall | called hcall | executed _ _ hcall
      | refused _ hcall =>
          rw [hphase] at hcall
          cases hcall
  | killed himage hphase hdeeds =>
      cases h with
      | waits =>
          rw [List.append_nil]
          exact .killed himage hphase hdeeds
      | killed _ hcall | finished hcall | exited hcall | called hcall | executed _ _ hcall
      | refused _ hcall =>
          rw [hphase] at hcall
          cases hcall
  | started himage hready =>
      rw [List.append_assoc]
      exact .started (h.next.image_isSome himage) hready

/-- A child is killed, or nothing happens to it. -/
theorem Course.spared (hcourse : a.Course environment m v deeds) (h : Spared v w)
    (hleads : v.pid ∉ m.groups → v.pid ∉ m'.groups) : a.Course environment m' w deeds := by
  cases h with
  | same =>
      cases hcourse with
      | fresh himage hphase hnext hd hopened hnot =>
          exact .fresh himage hphase hnext hd hopened (hleads hnot)
      | underway himage hphase hx hrefusals => exact .underway himage hphase hx hrefusals
      | resolved himage hphase hhindered => exact .resolved himage hphase hhindered
      | failed himage hphase hclosed hhindered => exact .failed himage hphase hclosed hhindered
      | killed himage hphase hdeeds => exact .killed himage hphase hdeeds
      | started himage hready => exact .started himage hready
  | killed signal hrunning =>
      cases hcourse with
      | fresh himage => exact .killed himage rfl (.inl (by simp))
      | underway himage _ _ hrefusals => exact .killed himage rfl (.inl hrefusals)
      | resolved himage hphase hhindered =>
          exact .killed himage rfl (.inr ⟨_, _, _, hhindered, rfl⟩)
      | failed _ hphase | killed _ hphase =>
          rw [hrunning] at hphase
          cases hphase
      | started himage hready => exact .started himage hready

end Assignment

namespace Machine

open Assignment (Course complain)

variable {a : Assignment} {environment : Environment} {m m' : Machine} {p : Process} {pid : Int}
  {deeds : List Deed} {acts : List (Int × Deed)}

/-- A process that leads no group starts a session of its own. -/
theorem step_setsid {next : Except Errno Unit → Prog Nat} (hp : m.process? p.pid = some p)
    (hphase : p.phase = .running (.call .setsid next)) (hleads : p.pid ∉ m.groups)
    (held : Descriptors) :
    m.deeds held p = [] ∧ ((m.step held p).2 = m ∨
      { p.standing with phase := .running (next (.ok ())) } ∈ (m.step held p).2.standings) := by
  have hdeeds : m.deeds held p = [] := by
    unfold deeds
    rw [hphase]
    dsimp only
    split
    · rfl
    · cases m.perform held p .setsid <;> rfl
  refine ⟨hdeeds, ?_⟩
  by_cases hstopped : p.stopped = true
  · left
    unfold step
    rw [hphase]
    dsimp only
    rw [if_pos hstopped]
  · right
    have hperform : m.perform held p .setsid =
        .reply (.ok ()) (m.update p.pid fun p => { p with group := p.pid, session := p.pid }) := by
      rw [perform, setsid_of_notMem_groups hleads]
      rfl
    have hstep : (m.step held p).2 =
        (m.update p.pid fun p => { p with group := p.pid, session := p.pid }).resume p.pid
          (next (.ok ())) := by
      unfold step
      rw [hphase]
      dsimp only
      rw [if_neg hstopped, hperform]
    have hkeeps : Keeps m (m.update p.pid fun p => { p with group := p.pid, session := p.pid }) := by
      refine Keeps.update ?_
      exact fun _ => rfl
    rw [hstep, standings_resume, hkeeps.standings]
    refine List.mem_map.2 ⟨p.standing, (mem_standings_of_process? hp).1, ?_⟩
    refine (if_pos rfl).trans ?_
    simp [Standing.resumed, Process.standing, hphase]

/-- **A child of the shell is here**, or has been, and has done some things. -/
def Bears (m : Machine) (pid : Int) (a : Assignment) (environment : Environment)
    (deeds : List Deed) : Prop :=
  ∃ v ∈ m.standings, v.pid = pid ∧ a.Course environment m v deeds

/-- **A child starts a session of its own**, and goes on, if that is what it is about to do. -/
theorem bears_setsid {next : Except Errno Unit → Prog Nat} (ha : a.Able)
    (hcourse : a.Course environment m p.standing deeds) (hm : m.Grouped)
    (hp : m.process? p.pid = some p) (hphase : p.phase = .running (.call .setsid next))
    (held : Descriptors) :
    (m.step held p).2.Bears p.pid a environment (deeds ++ m.deeds held p) := by
  cases hcourse with
  | @fresh next' himage hphase' hnext hd hopened hnot =>
      obtain ⟨hnone, hsame | hmem⟩ := step_setsid hp hphase' hnot held
      · rw [hnone, hsame]
        exact ⟨_, (mem_standings_of_process? hp).1, rfl, .fresh himage hphase' hnext hd hopened hnot⟩
      · rw [hnone]
        refine ⟨_, hmem, rfl, .underway himage (congrArg Phase.running hnext) ?_ (by simp)⟩
        rw [hd, hopened]
        exact ha.settle_abides environment
  | @underway x refusals _ hphase' hx =>
      -- nobody who is on its way asks for a session
      replace hphase' : p.phase = .running (x >>= complain) := hphase'
      rw [hphase] at hphase'
      have heq := (Phase.running.inj hphase').symm
      cases x with
      | done e => cases Assignment.write_of_complain heq
      | call c next' =>
          obtain ⟨rfl, -⟩ := Prog.call.inj heq
          exact hx.1.elim
  | resolved _ hphase' | failed _ hphase' | killed _ hphase' =>
      replace hphase' : p.phase = _ := hphase'
      rw [hphase] at hphase'
      cases hphase'
  | started himage hready =>
      obtain ⟨w, hw, hturn⟩ := exists_turn hm.numbered hp held
      rw [List.append_assoc]
      exact ⟨w, hw, hturn.next.pid_eq, .started (hturn.next.image_isSome himage) hready⟩

/-- **A child has its turn.** -/
theorem bears_step (ha : a.Able) (hcourse : a.Course environment m p.standing deeds)
    (hm : m.Grouped) (hp : m.process? p.pid = some p) (held : Descriptors) :
    (m.step held p).2.Bears p.pid a environment (deeds ++ m.deeds held p) := by
  by_cases hfresh : ∃ next : Except Errno Unit → Prog Nat,
      p.standing.phase = .running (.call .setsid next)
  · obtain ⟨next, hphase⟩ := hfresh
    exact bears_setsid ha hcourse hm hp hphase held
  · obtain ⟨w, hw, hturn⟩ := exists_turn hm.numbered hp held
    refine ⟨w, hw, hturn.next.pid_eq, hcourse.turn (fun next hphase => ?_) hturn⟩
    exact hfresh ⟨next, hphase⟩

/-- One act. -/
theorem Bears.act (h : m.Bears pid a environment deeds) (ha : a.Able) (hm : m.Grouped)
    (hact : Act m acts m') : m'.Bears pid a environment (deeds ++ deedsOf pid acts) := by
  obtain ⟨v, hv, rfl, hcourse⟩ := h
  rcases hact.cases_of hm hv with
    ⟨p, held, hp, rfl, rfl, hdone⟩ | ⟨hdone, ⟨w, hw, hspared⟩, hleads⟩
  · -- it is its own turn
    rw [hdone]
    exact bears_step ha hcourse hm hp held
  · rw [hdone, List.append_nil]
    exact ⟨w, hw, hspared.pid_eq, hcourse.spared hspared hleads⟩

/-- **Whatever happens, a child keeps its course.** -/
theorem Bears.story (h : m.Bears pid a environment deeds) (ha : a.Able) (hm : m.Grouped)
    (hstory : Story m acts m') : m'.Bears pid a environment (deeds ++ deedsOf pid acts) := by
  induction hstory with
  | nil => simpa using h
  | snoc hstory hact ih =>
      rw [deedsOf_append, ← List.append_assoc]
      exact ih.act ha (hstory.grouped hm) hact

/-- A child that has just been started is at the start of its course. -/
theorem course_launched (ha : a.Able) (hm : m.Grouped) :
    a.Course m.environment (m.start m.nextPid a) (Standing.launched m.nextPid a m.environment)
      [] := by
  by_cases hclass : a.jobClass = .background
  · obtain ⟨next, hlaunch, hnext⟩ := Assignment.launch_background hclass m.environment
    have hphase : (Standing.launched m.nextPid a m.environment).phase =
        .running (.call .setsid fun reply => next reply >>= complain) := by
      rw [Standing.launched, Assignment.run_eq, hlaunch]
      rfl
    refine .fresh rfl hphase ?_ rfl rfl ?_
    · rw [hnext]
    · intro hmem
      rcases mem_groups_start hmem with hmem | hmem
      · exact absurd (hm.groups _ hmem) (Int.lt_irrefl _)
      · exact absurd hm.shell (hmem ▸ Int.lt_irrefl _)
  · refine .underway rfl ?_ (ha.settle_abides m.environment) (by simp)
    rw [Standing.launched, Assignment.run_eq, Assignment.launch_foreground hclass]

/-- **The start of a child.** -/
theorem bears_start (ha : a.Able) (hm : m.Grouped) :
    (m.start m.nextPid a).Bears m.nextPid a m.environment [] :=
  ⟨_, mem_standings_start.2 (.inr rfl), rfl, course_launched ha hm⟩

end Machine

/-! ### What that means for the process -/

namespace Assignment

variable {a : Assignment} {environment : Environment} {m : Machine} {q : Process}
  {deeds : List Machine.Deed}

/-- **What has become of a child of the shell**, with all that it has done. -/
inductive Fate (a : Assignment) (environment : Environment) (q : Process) :
    List Machine.Deed → Prop where
  /-- It has not come to its program yet, and may have met refusals. -/
  | preparing {refusals : List Machine.Deed} : q.image = none → q.alive = true →
      (∀ deed ∈ refusals, deed.IsRefusal) → a.Fate environment q refusals
  /-- It has run its program before it did anything else, with what it should have, and after the
  refusals with which a search goes on. -/
  | started {path : Bytes} {words : List Bytes} {r : Arrival} {refusals more : List Machine.Deed} :
      q.image.isSome = true → a.Ready environment path words r refusals →
      (∀ deed ∈ refusals, deed.IsRefusal) →
        a.Fate environment q (refusals ++ .runs path words environment r :: more)
  /-- It cannot be launched.  After the refusals for which it cannot it has said so, and has done
  nothing else, and it is about to exit with the status of a failed launch or has done so. -/
  | failed {e : LaunchError} {d : Descriptors} {refusals : List Machine.Deed} : q.image = none →
      a.Hindered environment ⟨d, q.opened⟩ refusals e → (∀ deed ∈ refusals, deed.IsRefusal) →
      (q.phase = .running (.done launchFailure) ∨
        q.phase = .ended (.exited launchFailure) ∧ q.descriptors = {}) →
        a.Fate environment q (refusals ++ [.tells e.line])
  /-- It has been killed before it could run its program, or before it could exit. -/
  | killed {deeds : List Machine.Deed} {signal : Nat} : q.image = none →
      q.phase = .ended (.killed signal) →
      ((∀ deed ∈ deeds, deed.IsRefusal) ∨ ∃ e d refusals,
        a.Hindered environment ⟨d, q.opened⟩ refusals e ∧ deeds = refusals ++ [.tells e.line]) →
        a.Fate environment q deeds

/-- A child that has run no program has to wait for nothing but a file of its redirections, which
is then a fifo. -/
def Proceeds (a : Assignment) (m : Machine) (q : Process) : Prop :=
  q.image = none → q.alive = true → q.stopped = false → ∀ held, (m.step held q).1 = true ∨
    ∃ r ∈ a.command.redirections, ∃ m', m.openPath held q r.target
      (Launching.openMode r.direction) Launching.fileMode = .blocked m'

theorem Course.fate (h : a.Course environment m q.standing deeds) : a.Fate environment q deeds := by
  have halive : ∀ {rest : Prog Nat}, q.phase = .running rest → q.alive = true :=
    fun hphase => by rw [Process.alive, hphase]
  cases h with
  | fresh himage hphase => exact .preparing himage (halive hphase) (by simp)
  | underway himage hphase _ hrefusals => exact .preparing himage (halive hphase) hrefusals
  | resolved himage hphase hhindered =>
      exact .failed himage hhindered hhindered.isRefusal (.inl hphase)
  | failed himage hphase hclosed hhindered =>
      exact .failed himage hhindered hhindered.isRefusal (.inr ⟨hphase, hclosed⟩)
  | killed himage hphase hdeeds => exact .killed himage hphase hdeeds
  | started himage hready => exact .started himage hready hready.isRefusal

/-- A call that gets a reply gets its process somewhere. -/
theorem step_of_reply {c : Call} {next : c.Reply → Prog Nat} {held : Descriptors}
    (hphase : q.phase = .running (.call c next)) (hc : c.Plain) (hstopped : q.stopped = false)
    (hreply : ∃ value m', m.perform held q c = .reply value m') : (m.step held q).1 = true := by
  obtain ⟨value, m', hreply⟩ := hreply
  rw [Machine.step_of_plain hc hphase hstopped, hreply]

/-- A call on the way to the program. -/
theorem proceeds_underway {x : Prog LaunchError} (hphase : q.phase = .running (x >>= complain))
    {refusals : List Machine.Deed} (hx : x.Abides (a.Permits environment) (a.GivesUp environment)
      ⟨⟨q.descriptors, q.opened⟩, refusals⟩) (hstopped : q.stopped = false) (held : Descriptors) :
    (m.step held q).1 = true ∨ ∃ r ∈ a.command.redirections, ∃ m', m.openPath held q r.target
      (Launching.openMode r.direction) Launching.fileMode = .blocked m' := by
  cases x with
  | done e =>
      obtain ⟨next, hcomplain, -⟩ := complain_eq e
      have hcall : q.phase = .running (.call (.write 2 e.line) next) :=
        hphase.trans (congrArg Phase.running hcomplain)
      exact .inl (step_of_reply hcall trivial hstopped ⟨_, _, Machine.perform_diagnostics hx.2 _⟩)
  | call c next =>
      have hcall : q.phase = .running (.call c fun reply => next reply >>= complain) := hphase
      -- of the calls that are permitted only that for a file of a redirection may have to wait
      cases c with
      | openPath path how mode =>
          obtain ⟨r, hr, rfl, rfl, rfl⟩ := hx.1
          rcases hopen : m.openPath held q r.target (Launching.openMode r.direction)
              Launching.fileMode with ⟨reply, m'⟩ | m'
          · refine .inl (step_of_reply hcall trivial hstopped ?_)
            rw [Machine.perform, hopen]
            cases reply <;> exact ⟨_, _, rfl⟩
          · exact .inr ⟨r, hr, m', hopen⟩
      | exec path words environment' =>
          left
          unfold Machine.step
          rw [hcall]
          dsimp only
          rw [hstopped, if_neg (by decide)]
          split <;> rfl
      | close _ | dup2 _ _ | dispose _ _ | unblockChild =>
          exact .inl (step_of_reply hcall trivial hstopped ⟨_, _, rfl⟩)
      | _ => exact hx.1.elim

theorem Course.proceeds (h : a.Course environment m q.standing deeds) : a.Proceeds m q := by
  intro himage halive hstopped held
  cases h with
  | fresh _ hphase => exact .inl (step_of_reply hphase trivial hstopped ⟨_, _, rfl⟩)
  | underway _ hphase hx => exact proceeds_underway hphase hx hstopped held
  | resolved _ hphase =>
      left
      replace hphase : q.phase = .running (.done launchFailure) := hphase
      unfold Machine.step
      rw [hphase]
      dsimp only
      rw [hstopped, if_neg (by decide)]
  | failed _ hphase | killed _ hphase =>
      replace hphase : q.phase = .ended _ := hphase
      rw [Process.alive, hphase] at halive
      cases halive
  | started hsome =>
      replace hsome : q.image.isSome = true := hsome
      rw [himage] at hsome
      cases hsome

end Assignment

namespace Machine

variable {a : Assignment} {environment : Environment} {m : Machine} {pid : Int} {deeds : List Deed}

/-- **A child of the shell has its fate.** -/
theorem Bears.fate (h : m.Bears pid a environment deeds) :
    ∃ q ∈ m.processes, q.pid = pid ∧ a.Fate environment q deeds ∧ a.Proceeds m q := by
  obtain ⟨v, hv, hpid, hcourse⟩ := h
  obtain ⟨q, hq, rfl⟩ := List.mem_map.1 hv
  exact ⟨q, hq, hpid, hcourse.fate, hcourse.proceeds⟩

end Machine

end JobShell
