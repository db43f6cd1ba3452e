/-
**A NUL byte stops a command before it does anything.**

No string with a NUL byte can be handed to the system.  The strings of a command are prepared before
its child opens the first file, so the child of such a command behaves as if it had no redirections
and nothing but the NUL byte for a name.  All that it does is to put its own signals and descriptors
in order, to say where the byte is, and to end.

Main definitions:

* `JobShell.Command.NulAt` — the first NUL byte of a command;
* `JobShell.Assignment.cut` — a child without anything of its command but the place of that byte;
* `JobShell.Call.Meek`, `JobShell.Machine.Untouched` — calls that change nothing but their process and
  the diagnostics, and what they leave as it is;
* `JobShell.Process.Barren` — what becomes of the child.

Main results:

* `JobShell.Command.nulPosition?_eq_some_iff`, `JobShell.Command.exists_nulAt_iff` — the first NUL byte;
* `JobShell.Assignment.run_cut` — a child does what it would do without its redirections;
* `JobShell.Machine.BearsCut.story` — whatever happens, it does nothing else;
* `JobShell.Machine.BearsCut.barren` — what that means for its process;
* `JobShell.Assignment.run_nul` — left alone it comes to its end.
-/

import JobShell.Proofs.Course
import JobShell.Proofs.Redirections

set_option autoImplicit false

namespace JobShell

/-! ### The first NUL byte -/

namespace Command

variable {c : Command} {position : Nat}

/-- The first NUL byte of a command is at a position of one of its strings, and no string before that
one has any.  All words come before all targets. -/
def NulAt (c : Command) (position : Nat) : Prop :=
  ∃ before s after, c.words ++ c.redirections.map (·.target) = before ++ s :: after ∧
    (∀ t ∈ before, nul ∉ t) ∧
      ∃ pre post, s = pre ++ nul :: post ∧ nul ∉ pre ∧ pre.length = position

theorem findIdx?_nul_eq_none_iff {s : Bytes} : s.findIdx? (· = nul) = none ↔ nul ∉ s := by
  rw [List.findIdx?_eq_none_iff]
  constructor
  · intro h hmem
    simpa using h nul hmem
  · intro h b hb
    rw [decide_eq_false_iff_not]
    rintro rfl
    exact h hb

/-- The first NUL byte of a string. -/
theorem findIdx?_nul_eq_some_iff {s : Bytes} :
    s.findIdx? (· = nul) = some position ↔
      ∃ pre post, s = pre ++ nul :: post ∧ nul ∉ pre ∧ pre.length = position := by
  constructor
  · intro h
    obtain ⟨hlt, hnul, hbefore⟩ := List.findIdx?_eq_some_iff_getElem.1 h
    refine ⟨s.take position, s.drop (position + 1), ?_, ?_,
      List.length_take_of_le (Nat.le_of_lt hlt)⟩
    · have hat : s[position] = nul := by simpa using hnul
      rw [← hat, ← List.drop_eq_getElem_cons hlt, List.take_append_drop]
    · intro hmem
      obtain ⟨i, hi, heq⟩ := List.getElem_of_mem hmem
      have hi' : i < position := by
        rw [List.length_take] at hi
        omega
      rw [List.getElem_take] at heq
      simpa [heq] using hbefore i hi'
  · rintro ⟨pre, post, rfl, hpre, rfl⟩
    rw [List.findIdx?_append, findIdx?_nul_eq_none_iff.2 hpre, List.findIdx?_cons]
    simp

/-- **The position that is found is that of the first NUL byte.** -/
theorem nulPosition?_eq_some_iff : c.nulPosition? = some position ↔ c.NulAt position := by
  unfold nulPosition? NulAt strings
  rw [List.findSome?_eq_some_iff]
  constructor
  · rintro ⟨before, s, after, heq, hs, hbefore⟩
    exact ⟨before, s, after, heq, fun t ht => findIdx?_nul_eq_none_iff.1 (hbefore t ht),
      findIdx?_nul_eq_some_iff.1 hs⟩
  · rintro ⟨before, s, after, heq, hbefore, hs⟩
    exact ⟨before, s, after, heq, findIdx?_nul_eq_some_iff.2 hs,
      fun t ht => findIdx?_nul_eq_none_iff.2 (hbefore t ht)⟩

/-- **There is a first NUL byte if there is any.** -/
theorem exists_nulAt_iff :
    (∃ position, c.NulAt position) ↔ ∃ s ∈ c.words ++ c.redirections.map (·.target), nul ∈ s := by
  constructor
  · rintro ⟨position, before, s, after, heq, -, pre, post, rfl, -⟩
    exact ⟨pre ++ nul :: post, heq ▸ by simp, by simp⟩
  · rintro ⟨s, hs, hnul⟩
    cases hnone : c.nulPosition? with
    | some position => exact ⟨position, nulPosition?_eq_some_iff.1 hnone⟩
    | none =>
        have hclean := List.findSome?_eq_none_iff.1 hnone s hs
        exact absurd hnul (findIdx?_nul_eq_none_iff.1 hclean)

/-- A command with a NUL byte at a position of its name, and with nothing else. -/
def stump (position : Nat) : Command := ⟨List.replicate position 1 ++ [nul], [], []⟩

theorem stump_nulPosition? (position : Nat) : (stump position).nulPosition? = some position := by
  refine nulPosition?_eq_some_iff.2 ⟨[], _, [], rfl, by simp, List.replicate position 1, [], rfl, ?_,
    List.length_replicate⟩
  intro hmem
  exact absurd (List.eq_of_mem_replicate hmem) (by decide)

end Command

/-! ### The program of the child -/

namespace Assignment

variable {a : Assignment} {position : Nat} {environment : Environment}

/-- The same place for a command of which nothing is left but the position of a NUL byte. -/
def cut (a : Assignment) (position : Nat) : Assignment :=
  { a with command := Command.stump position }

theorem Able.cut (ha : a.Able) (position : Nat) : (a.cut position).Able :=
  ⟨ha.input, ha.writer, ha.reader, ha.diagnostics⟩

/-- **With a NUL byte a child does what it would do without redirections**, and without most of its
words. -/
theorem run_cut (hnul : a.command.NulAt position) (environment : Environment) :
    (a.cut position).run environment = a.run environment := by
  have hprepare : a.command.prepare = (Command.stump position).prepare := by
    rw [Command.prepare, Command.prepare, Command.nulPosition?_eq_some_iff.2 hnul,
      Command.stump_nulPosition?]
  have harrange : (a.cut position).arrange = a.arrange := by
    unfold arrange
    rw [hprepare]
    rfl
  unfold run launch
  rw [harrange]

end Assignment

/-! ### Calls that change nothing -/

/-- A call that changes nothing but the process that makes it and the diagnostics of the shell. -/
def Call.Meek (d : Descriptors) : Call → Prop
  | .close _ | .dup2 _ _ | .dispose _ _ | .unblockChild | .setsid => True
  | .write fd _ => d.file? fd = some .diagnostics
  | _ => False

namespace Call

variable {c : Call} {d d' : Descriptors} {opened : List PathOpening} {pipes pipes' : Nat}

/-- All that can be noticed of a meek call is what it tells to the diagnostics. -/
theorem Meek.deeds (hc : c.Meek d) (reply : c.Reply) :
    ∀ deed ∈ c.deeds d reply, ∃ text, deed = .tells text := by
  cases c with
  | write fd bytes =>
      have hfile : d.file? fd = some .diagnostics := hc
      rw [Call.deeds, if_pos hfile]
      intro deed hdeed
      exact ⟨bytes, List.mem_singleton.1 hdeed⟩
  | close | dup2 | dispose | unblockChild | setsid => simp [Call.deeds]
  | _ => exact hc.elim

/-- A meek call opens no file. -/
theorem Meek.opens_nothing (hc : c.Meek d) {reply : c.Reply}
    (h : c.Affects pipes pipes' d reply d' opened) : opened = [] := by
  cases c with
  | close fd =>
      rcases (reply : Except Errno Unit) with errno | _
      · exact h.2
      · exact h.2
  | dup2 old new =>
      rcases (reply : Except Errno Unit) with errno | _
      · exact h.2
      · obtain ⟨file, -, -, hopened⟩ := h
        exact hopened
  | dispose | unblockChild | setsid | write => exact h.2
  | _ => exact hc.elim

/-- A meek call leaves its process with the same program. -/
theorem Meek.plain (hc : c.Meek d) : c.Plain := by
  cases c with
  | exec | fork | exit => exact hc.elim
  | _ => trivial

end Call

namespace Machine

/-- The tree and the open files, the pipes and the output of the shell are as they were, and nobody has
been forked. -/
structure Untouched (m m' : Machine) : Prop where
  files : m'.files = m.files
  openings : m'.openings = m.openings
  pipes : m'.pipes = m.pipes
  output : m'.output = m.output
  nextPid : m'.nextPid = m.nextPid

variable {m m' m'' : Machine} {p : Process} {held : Descriptors}

theorem Untouched.refl (m : Machine) : Untouched m m := ⟨rfl, rfl, rfl, rfl, rfl⟩

theorem Untouched.resume (h : Untouched m m') (pid : Int) (rest : Prog Nat) :
    Untouched m (m'.resume pid rest) :=
  ⟨h.files, h.openings, h.pipes, h.output, h.nextPid⟩

theorem untouched_update (pid : Int) (f : Process → Process) : Untouched m (m.update pid f) :=
  ⟨rfl, rfl, rfl, rfl, rfl⟩

theorem untouched_finish (pid : Int) (ending : Ending) : Untouched m (m.finish pid ending) := by
  unfold finish
  split
  · exact .refl m
  · split
    · dsimp only
      split <;> exact ⟨rfl, rfl, rfl, rfl, rfl⟩
    · exact .refl m

/-- **A meek call gets a reply**, and leaves the machine as it is. -/
theorem perform_meek {c : Call} (hc : c.Meek p.descriptors) (held : Descriptors) :
    ∃ reply m', m.perform held p c = .reply reply m' ∧ Untouched m m' := by
  cases c with
  | close fd =>
      refine ⟨_, _, rfl, ?_⟩
      unfold close
      split
      · exact untouched_update ..
      · exact .refl m
  | dup2 old new =>
      refine ⟨_, _, rfl, ?_⟩
      unfold dup2
      split
      · exact .refl m
      · split
        · exact .refl m
        · exact untouched_update ..
  | dispose | unblockChild => exact ⟨_, _, rfl, untouched_update ..⟩
  | setsid =>
      refine ⟨_, _, rfl, ?_⟩
      unfold setsid
      split
      · exact .refl m
      · exact untouched_update ..
  | write fd bytes => exact ⟨_, _, perform_diagnostics hc bytes, rfl, rfl, rfl, rfl, rfl⟩
  | _ => exact hc.elim

end Machine

/-- A process that is about to end, has ended, or makes a meek call next. -/
def Process.Meek (p : Process) : Prop :=
  ∀ c next, p.phase = .running (.call c next) → c.Meek p.descriptors

namespace Machine

variable {m m' : Machine} {p : Process} {held : Descriptors}

/-- What a process does that makes a call and gets a reply. -/
theorem deeds_of_plain {c : Call} {next : c.Reply → Prog Nat} {reply : c.Reply} (hc : c.Plain)
    (hphase : p.phase = .running (.call c next)) (hstopped : p.stopped = false)
    (hreply : m.perform held p c = .reply reply m') :
    m.deeds held p = c.deeds p.descriptors reply := by
  unfold deeds
  rw [hstopped, if_neg (by decide), hphase]
  cases c with
  | exec | fork | exit => exact hc.elim
  | _ => exact congrArg (Outcome.deeds _ p.descriptors) hreply

/-- **In its turn a meek process changes nothing**, is refused nothing and runs nothing, and gets
somewhere unless it is stopped or has ended. -/
theorem step_meek (hp : p.Meek) (held : Descriptors) :
    Untouched m (m.step held p).2 ∧
      (∀ deed ∈ m.deeds held p, ∃ text, deed = .tells text) ∧
        (p.alive = true → p.stopped = false → (m.step held p).1 = true) := by
  -- only a call can change anything, and it is known of the calls that are still to come
  by_cases hstopped : p.stopped = true
  · have hnone : m.deeds held p = [] := by rw [deeds, if_pos hstopped]
    have hstep : m.step held p = (false, m) := by
      unfold step
      rw [hstopped]
      cases p.phase <;> rfl
    rw [hnone, hstep]
    exact ⟨.refl m, by simp, fun _ hnot => absurd hstopped (by simp [hnot])⟩
  rw [Bool.not_eq_true] at hstopped
  cases hphase : p.phase with
  | ended ending =>
      have hnone : m.deeds held p = [] := by
        rw [deeds, hstopped, hphase]
        rfl
      have hstep : m.step held p = (false, m) := by
        unfold step
        rw [hphase]
      rw [hnone, hstep]
      exact ⟨.refl m, by simp, fun halive => by simp [Process.alive, hphase] at halive⟩
  | running rest =>
      cases rest with
      | done code =>
          have hnone : m.deeds held p = [] := by
            rw [deeds, hstopped, hphase]
            rfl
          have hstep : m.step held p = (true, m.finish p.pid (.exited (code % 256 : Nat))) := by
            unfold step
            rw [hphase]
            dsimp only
            rw [hstopped, if_neg (by decide)]
          rw [hnone, hstep]
          exact ⟨untouched_finish .., by simp, fun _ _ => rfl⟩
      | call c next =>
          have hc : c.Meek p.descriptors := hp c next hphase
          obtain ⟨reply, m', hreply, huntouched⟩ := perform_meek (m := m) hc held
          have hstep : m.step held p = (true, m'.resume p.pid (next reply)) := by
            rw [step_of_plain hc.plain hphase hstopped, hreply]
          have hdeeds : m.deeds held p = c.deeds p.descriptors reply :=
            deeds_of_plain hc.plain hphase hstopped hreply
          rw [hdeeds, hstep]
          exact ⟨huntouched.resume .., hc.deeds reply, fun _ _ => rfl⟩

/-- It opens nothing. -/
theorem opened_of_meek {pipes pipes' : Nat} {leads : Prop} {w : Standing} {deeds : List Deed}
    (hp : p.Meek) (h : Standing.Turn pipes pipes' leads p.standing deeds w) :
    w.opened = p.opened := by
  cases h with
  | waits | killed | finished | exited => rfl
  | @called c next reply d opened hphase haffects =>
      have hc : c.Meek p.descriptors := hp c next hphase
      obtain rfl : opened = [] := hc.opens_nothing haffects
      exact List.append_nil _
  | executed image rest hphase => exact (hp _ _ hphase).elim
  | refused errno hphase => exact (hp _ _ hphase).elim

end Machine

/-! ### What becomes of the child -/

namespace Assignment

variable {a : Assignment} {environment : Environment} {m : Machine} {q : Process} {r : Arrival}
  {refusals deeds : List Machine.Deed} {position : Nat} {e : LaunchError}

/-- With a NUL byte nothing else can hinder a command. -/
theorem Hindered.eq_nul (h : a.Hindered environment r refusals e)
    (hnul : a.command.nulPosition? = some position) : refusals = [] ∧ e = .nul position := by
  cases h with
  | nul hposition =>
      obtain rfl := Option.some.inj (hposition.symm.trans hnul)
      exact ⟨rfl, rfl⟩
  | opening _ hnone | executing hnone => cases hnul.symm.trans hnone

/-- **A child that has been cut is meek** wherever it is on its course. -/
theorem Course.meek (h : (a.cut position).Course environment m q.standing deeds) : q.Meek := by
  intro c next hphase
  have hsame : ∀ {phase : Phase}, q.standing.phase = phase → .running (.call c next) = phase :=
    fun h => hphase.symm.trans h
  cases h with
  | fresh _ hfresh =>
      obtain ⟨rfl, -⟩ := Prog.call.inj (Phase.running.inj (hsame hfresh))
      exact trivial
  | @underway x _ _ hunderway hx =>
      have heq := Phase.running.inj (hsame hunderway)
      cases x with
      | done e =>
          obtain rfl := write_of_complain heq.symm
          exact hx.2
      | call c' next' =>
          obtain ⟨rfl, -⟩ := Prog.call.inj heq
          -- it has nothing to open, and does not get as far as running a program
          cases c with
          | exec path words environment' =>
              obtain ⟨-, hready⟩ := hx.1
              exact absurd hready.nul (by rw [cut, Command.stump_nulPosition?]; exact nofun)
          | openPath path how mode =>
              obtain ⟨redirection, hmem, -⟩ := hx.1
              cases hmem
          | close | dup2 | dispose | unblockChild => exact trivial
          | _ => exact hx.1.elim
  | resolved _ hdone => cases hsame hdone
  | failed _ hended | killed _ hended => cases hsame hended
  | started _ hready =>
      exact absurd hready.nul (by rw [cut, Command.stump_nulPosition?]; exact nofun)

end Assignment

/-- **What has become of a child whose command has a NUL byte**, with all that it has done. -/
structure Process.Barren (q : Process) (m : Machine) (position : Nat)
    (deeds : List Machine.Deed) : Prop where
  /-- It has run no program. -/
  image : q.image = none
  /-- It has opened no file of a redirection. -/
  opened : q.opened = []
  /-- It has done nothing yet, or it has said where the byte is, and nothing else, and is about to
  exit with the status of a failed launch or has done so.  Only a signal may end it before that. -/
  told : deeds = [] ∧ (q.alive = true ∨ ∃ signal, q.phase = .ended (.killed signal)) ∨
    deeds = [.tells (LaunchError.nul position).line] ∧
      (q.phase = .running (.done launchFailure) ∨ q.phase = .ended (.exited launchFailure) ∨
        ∃ signal, q.phase = .ended (.killed signal))
  /-- Its next turn changes no file, no pipe and no output, and forks nobody. -/
  turn : ∀ held, m.Untouched (m.step held q).2
  /-- It never has to wait. -/
  proceeds : q.alive = true → q.stopped = false → ∀ held, (m.step held q).1 = true

namespace Machine

variable {a : Assignment} {environment : Environment} {m m' : Machine} {pid : Int} {position : Nat}
  {deeds : List Deed} {acts : List (Int × Deed)}

/-- A child is here, or has been, whose command has a NUL byte at a position: it keeps the course of
one that has no redirections, and has neither opened a file nor been refused anything. -/
def BearsCut (m : Machine) (pid : Int) (a : Assignment) (environment : Environment)
    (position : Nat) (deeds : List Deed) : Prop :=
  ∃ v ∈ m.standings, v.pid = pid ∧ (a.cut position).Course environment m v deeds ∧
    v.opened = [] ∧ ∀ deed ∈ deeds, ∃ text, deed = .tells text

/-- One act. -/
theorem BearsCut.act (h : m.BearsCut pid a environment position deeds) (ha : a.Able)
    (hm : m.Grouped) (hact : Act m acts m') :
    m'.BearsCut pid a environment position (deeds ++ deedsOf pid acts) := by
  obtain ⟨v, hv, rfl, hcourse, hopened, htells⟩ := h
  rcases hact.cases_of hm hv with
    ⟨p, held, hp, rfl, rfl, hdone⟩ | ⟨hdone, ⟨w, hw, hspared⟩, hleads⟩
  · -- it is its own turn
    have hmeek : p.Meek := hcourse.meek
    obtain ⟨w, hw, hpid, hcourse'⟩ := bears_step (ha.cut position) hcourse hm hp held
    obtain ⟨w', hw', hturn⟩ := exists_turn hm.numbered hp held
    obtain rfl : w' = w :=
      (hact.grouped hm).numbered.eq_of_pid hw' hw (hturn.next.pid_eq.trans hpid.symm)
    rw [hdone]
    refine ⟨w', hw', hpid, hcourse', (opened_of_meek hmeek hturn).trans hopened, ?_⟩
    exact List.forall_mem_append.2 ⟨htells, (step_meek hmeek held).2.1⟩
  · rw [hdone, List.append_nil]
    refine ⟨w, hw, hspared.pid_eq, hcourse.spared hspared hleads, ?_, htells⟩
    cases hspared <;> exact hopened

/-- **Whatever happens, the child keeps its course.** -/
theorem BearsCut.story (h : m.BearsCut pid a environment position deeds) (ha : a.Able)
    (hm : m.Grouped) (hstory : Story m acts m') :
    m'.BearsCut pid a environment position (deeds ++ deedsOf pid acts) := by
  induction hstory with
  | nil => simpa using h
  | snoc hstory hact ih =>
      rw [deedsOf_append, ← List.append_assoc]
      exact ih.act ha (hstory.grouped hm) hact

/-- **The start of the child.** -/
theorem bearsCut_start (ha : a.Able) (hm : m.Grouped) (hnul : a.command.NulAt position) :
    (m.start m.nextPid a).BearsCut m.nextPid a m.environment position [] := by
  have hrun : (a.cut position).run m.environment = a.run m.environment :=
    Assignment.run_cut hnul m.environment
  have hstart : m.start m.nextPid (a.cut position) = m.start m.nextPid a := by
    unfold start shellChild
    rw [hrun]
    rfl
  have hlaunched : Standing.launched m.nextPid (a.cut position) m.environment =
      Standing.launched m.nextPid a m.environment := by
    unfold Standing.launched
    rw [hrun]
    rfl
  have hcourse := course_launched (ha.cut position) hm
  rw [hstart, hlaunched] at hcourse
  exact ⟨_, mem_standings_start.2 (.inr rfl), rfl, hcourse, rfl, by simp⟩

/-- Who has met nothing but refusals, and has told all that he has done, has done nothing. -/
theorem eq_nil_of_refusals (hrefusals : ∀ deed ∈ deeds, deed.IsRefusal)
    (htells : ∀ deed ∈ deeds, ∃ text, deed = .tells text) : deeds = [] := by
  refine List.eq_nil_iff_forall_not_mem.2 fun deed hdeed => ?_
  obtain ⟨text, rfl⟩ := htells deed hdeed
  exact hrefusals _ hdeed

/-- **A child with a NUL byte is barren.** -/
theorem BearsCut.barren (h : m.BearsCut pid a environment position deeds) :
    ∃ q ∈ m.processes, q.pid = pid ∧ q.Barren m position deeds := by
  obtain ⟨v, hv, hpid, hcourse, hopened, htells⟩ := h
  obtain ⟨q, hq, rfl⟩ := List.mem_map.1 hv
  have hmeek : q.Meek := hcourse.meek
  have hnul : (a.cut position).command.nulPosition? = some position :=
    Command.stump_nulPosition? position
  have hturn : ∀ held, m.Untouched (m.step held q).2 := fun held => (step_meek hmeek held).1
  have hproceeds : q.alive = true → q.stopped = false → ∀ held, (m.step held q).1 = true :=
    fun halive hstopped held => (step_meek hmeek held).2.2 halive hstopped
  have halive : ∀ {rest : Prog Nat}, q.phase = .running rest → q.alive = true :=
    fun hphase => by rw [Process.alive, hphase]
  refine ⟨q, hq, hpid, ?_⟩
  -- the command stops at the byte, so the only error that it can come to is that of the byte
  cases hcourse with
  | fresh himage hphase =>
      exact ⟨himage, hopened, .inl ⟨rfl, .inl (halive hphase)⟩, hturn, hproceeds⟩
  | underway himage hphase _ hrefusals =>
      have hnone := eq_nil_of_refusals hrefusals htells
      exact ⟨himage, hopened, .inl ⟨hnone, .inl (halive hphase)⟩, hturn, hproceeds⟩
  | resolved himage hphase hhindered =>
      obtain ⟨rfl, rfl⟩ := hhindered.eq_nul hnul
      exact ⟨himage, hopened, .inr ⟨rfl, .inl hphase⟩, hturn, hproceeds⟩
  | failed himage hphase _ hhindered =>
      obtain ⟨rfl, rfl⟩ := hhindered.eq_nul hnul
      exact ⟨himage, hopened, .inr ⟨rfl, .inr (.inl hphase)⟩, hturn, hproceeds⟩
  | @killed _ signal himage hphase hdeeds =>
      refine ⟨himage, hopened, ?_, hturn, hproceeds⟩
      rcases hdeeds with hrefusals | ⟨e, d, refusals, hhindered, rfl⟩
      · exact .inl ⟨eq_nil_of_refusals hrefusals htells, .inr ⟨signal, hphase⟩⟩
      · obtain ⟨rfl, rfl⟩ := hhindered.eq_nul hnul
        exact .inr ⟨rfl, .inr (.inr ⟨signal, hphase⟩)⟩
  | started _ hready => cases hnul.symm.trans hready.nul

end Machine

/-! ### The child alone -/

namespace Launching

variable {held : Descriptors} {pid : Int} {s : Scene} {old new : Nat}

/-- A descriptor that is open gets another number, unless it has it already. -/
theorem moved_takes (hopen : s.descriptors.isOpen old = true) :
    Prog.Takes held pid (move old new).run s (.ok ())
      { s with descriptors := s.descriptors.moved old new } := by
  by_cases hne : old = new
  · unfold move Descriptors.moved
    rw [if_pos hne, if_pos hne]
    exact Prog.Takes.done _
  · obtain ⟨file, hfile⟩ := Option.isSome_iff_exists.1 hopen
    rw [Descriptors.moved_eq hne hfile]
    exact move_takes hne hfile

end Launching

namespace Assignment

open Launching (takes_bind takes_runs moved_takes close_takes)
open Machine (Alone)
open Prog (Takes)

variable {a : Assignment} {environment : Environment} {held : Descriptors} {pid : Int} {s : Scene}
  {m : Machine} {position : Nat}

/-- The ends of the pipes are put in place. -/
theorem Able.connect_takes (ha : a.Able) (hs : s.descriptors = a.descriptors) :
    Takes held pid a.connect.run s (.ok ()) { s with descriptors := a.connected } := by
  unfold connect connected
  have hinput : s.descriptors.isOpen a.input = true := hs ▸ ha.input
  refine takes_bind (moved_takes hinput) ?_
  rw [hs]
  cases hpipe : a.pipe with
  | none => exact Takes.done _
  | some ends =>
      obtain ⟨reader, writer⟩ := ends
      exact takes_bind (moved_takes (ha.writer reader writer hpipe))
        (close_takes (ha.reader reader writer hpipe))

/-- A child whose command cannot be handed to the system comes no further than its place. -/
theorem prepared_runs (ha : a.Able) (hs : s.descriptors = a.descriptors) {e : LaunchError}
    (hprepare : a.command.prepare = .error e) {k : Except LaunchError Command → Prog Nat}
    (h : m.Poised pid (a.prepared.run >>= k) s) :
    ∃ m', Alone held pid m m' ∧
      m'.Poised pid (k (.error e)) { s with descriptors := a.connected } := by
  unfold prepared at h
  obtain ⟨m₁, halone₁, h⟩ := takes_runs Launching.restoreSignals_takes h
  obtain ⟨m₂, halone₂, h⟩ := takes_runs (ha.connect_takes hs) h
  rw [hprepare] at h
  exact ⟨m₂, halone₁.trans halone₂, h⟩

variable (held) in
/-- **Left alone, a child whose command has a NUL byte** says where it is, and ends with the status
of a failed launch.  Nothing else has changed then. -/
theorem run_nul (ha : a.Able) (hnul : a.command.NulAt position)
    (hleader : a.jobClass = .background → ∀ q ∈ m.processes, q.group ≠ pid)
    (hs : s.descriptors = a.descriptors) (h : m.Poised pid (a.run environment) s) :
    ∃ m', Alone held pid m m' ∧ m'.Left pid (.exited launchFailure)
      { s with diagnostics := s.diagnostics ++ (LaunchError.nul position).line } := by
  have hprepare : a.command.prepare = .error (.nul position) := by
    rw [Command.prepare, Command.nulPosition?_eq_some_iff.2 hnul]
  -- a job in the background begins with a session of its own; the rest is the same for both classes
  have hsettle : ∀ m, m.Poised pid (a.settle environment >>= complain) s →
      ∃ m', Alone held pid m m' ∧ m'.Left pid (.exited launchFailure)
        { s with diagnostics := s.diagnostics ++ (LaunchError.nul position).line } := by
    intro m h
    unfold settle at h
    rw [Prog.bind_assoc] at h
    obtain ⟨m₁, halone₁, h⟩ := prepared_runs ha hs hprepare h
    obtain ⟨m₂, halone₂, hleft⟩ := gives_up held (ha.diagnostics) h
    exact ⟨m₂, halone₁.trans halone₂, hleft⟩
  rw [run_eq] at h
  by_cases hclass : a.jobClass = .background
  · obtain ⟨next, hlaunch, hnext⟩ := launch_background hclass environment
    rw [hlaunch] at h
    obtain ⟨m₁, hcalls, h⟩ := poised_setsid (hleader hclass) h
    obtain ⟨m', halone, hleft⟩ := hsettle m₁ (hnext ▸ h)
    exact ⟨m', halone.head hcalls, hleft⟩
  · rw [launch_foreground hclass] at h
    exact hsettle m h

end Assignment

end JobShell
