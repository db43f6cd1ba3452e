/-
**A process that runs alone.**

While no other process gets a turn, what becomes of a process depends on its program and on what
it sees of the machine.  A part of a program takes it from one scene to another, whatever it goes
on with after that, so the parts of a program can be looked at one by one and put together.

Main definitions:

* `JobShell.Machine.Calls`, `JobShell.Machine.Alone` — one call of a process, and calls of the same
  process one after another;
* `JobShell.Machine.Poised` — the program that a process has still to run, and what it sees;
* `JobShell.Prog.Takes` — what a part of a program does to the scene;
* `JobShell.Prog.Execs` — a part that does nothing but try to run another program.

Main results:

* `JobShell.Machine.Poised.call`, `JobShell.Machine.Poised.call_update` — a call that gets a reply;
* `JobShell.Prog.Takes.bind` — one part after another;
* `JobShell.Prog.writeAll_takes` — writing to the diagnostics of the shell;
* `JobShell.Machine.Poised.execs` — the attempts to run another program;
* `JobShell.Machine.Poised.finish` — the end of a program.
-/

import JobShell.Proofs.Machine.Opening
import Mathlib.Logic.Relation

set_option autoImplicit false

namespace JobShell

/-- Whether a call leaves its process with the same program. -/
def Call.Plain : Call → Prop
  | .exec _ _ _ | .fork | .exit _ => False
  | _ => True

namespace Machine

variable {held : Descriptors} {m m' : Machine} {p q : Process} {pid : Int} {s s' : Scene}
  {rest : Prog Nat}

/-- A process makes a call, and it gets the process somewhere. -/
inductive Calls (held : Descriptors) (pid : Int) (m : Machine) : Machine → Prop where
  | intro {p : Process} {m' : Machine} : m.process? pid = some p → m.step held p = (true, m') →
      Calls held pid m m'

/-- Calls of one process, of which there may be none. -/
abbrev Alone (held : Descriptors) (pid : Int) : Machine → Machine → Prop :=
  Relation.ReflTransGen (Calls held pid)

/-- A process can go on in one way only. -/
theorem Calls.unique {m'' : Machine} (h : Calls held pid m m') (h' : Calls held pid m m'') :
    m' = m'' := by
  obtain ⟨hp, hstep⟩ := h
  obtain ⟨hp', hstep'⟩ := h'
  obtain rfl := Option.some.inj (hp.symm.trans hp')
  exact congrArg Prod.snd (hstep.symm.trans hstep')

/-- A process has a program still to run, and sees a scene. -/
def Poised (m : Machine) (pid : Int) (rest : Prog Nat) (s : Scene) : Prop :=
  ∃ p, m.process? pid = some p ∧ p.phase = .running rest ∧ p.stopped = false ∧ m.scene p = s

/-! ### One call -/

theorem step_of_plain {c : Call} {next : c.Reply → Prog Nat} (hc : c.Plain)
    (hphase : p.phase = .running (.call c next)) (hstopped : p.stopped = false) :
    m.step held p =
      match m.perform held p c with
      | .reply value m => (true, m.resume p.pid (next value))
      | .blocked m => (false, m) := by
  unfold step
  rw [hphase]
  dsimp only
  rw [hstopped, if_neg (by decide)]
  cases c with
  | exec | fork | exit => exact hc.elim
  | _ => rfl

theorem poised_of_own (hown : m.own pid = some q) (hphase : q.phase = .running rest)
    (hstopped : q.stopped = false) : m.Poised pid rest (m.scene q) := by
  obtain ⟨p, hp, rfl⟩ := Option.map_eq_some_iff.1 hown
  exact ⟨p, hp, hphase, hstopped, rfl⟩

/-- A process goes on with the rest of its program. -/
theorem poised_resume (hown : m.own pid = some q) (hphase : q.phase = .running rest)
    (hstopped : q.stopped = false) (rest' : Prog Nat) :
    (m.resume pid rest').Poised pid rest' (m.scene q) := by
  obtain ⟨p, hp, rfl⟩ := Option.map_eq_some_iff.1 hown
  replace hphase : p.phase = .running rest := hphase
  have halive : p.alive = true := by rw [Process.alive, hphase]
  have hpid : ∀ q : Process, (if q.alive = true then
      { q with phase := .running rest', calls := q.calls + 1 } else q).pid = q.pid := by
    intro q
    split <;> rfl
  refine ⟨{ p with phase := .running rest', calls := p.calls + 1 }, ?_, rfl, hstopped, rfl⟩
  rw [resume, process?_update hpid, hp, Option.map_some, if_pos (pid_of_process? hp),
    if_pos halive]

/-- **A call that gets a reply.** -/
theorem Poised.call {c : Call} {next : c.Reply → Prog Nat} {value : c.Reply} (hc : c.Plain)
    (hp : m.process? pid = some p) (hphase : p.phase = .running (.call c next))
    (hstopped : p.stopped = false) (hperform : m.perform held p c = .reply value m')
    (hown : m'.own pid = some q) (hphase' : q.phase = p.phase) (hstopped' : q.stopped = false) :
    ∃ m'', Calls held pid m m'' ∧ m''.Poised pid (next value) (m'.scene q) := by
  refine ⟨m'.resume pid (next value), ⟨hp, ?_⟩,
    poised_resume hown (hphase'.trans hphase) hstopped' (next value)⟩
  rw [step_of_plain hc hphase hstopped, hperform, pid_of_process? hp]

/-- A change that leaves a process its id and its program. -/
structure Mild (f : Process → Process) : Prop where
  secluded : ∀ q, (f q).secluded = f q.secluded := by intro _; rfl
  pid : ∀ q, (f q).pid = q.pid := by intro _; rfl
  phase : ∀ q, (f q).phase = q.phase := by intro _; rfl
  stopped : ∀ q, (f q).stopped = q.stopped := by intro _; rfl

/-- The call is no more than a change of the process that makes it. -/
theorem Poised.call_update {c : Call} {next : c.Reply → Prog Nat} {value : c.Reply}
    {f : Process → Process} (hc : c.Plain) (h : m.Poised pid (.call c next) s) (hf : Mild f)
    (hperform : ∀ p, m.process? pid = some p → m.scene p = s →
      m.perform held p c = .reply value (m.update pid f))
    (hscene : ∀ q, m.scene q = s → m.scene (f q) = s') :
    ∃ m', Calls held pid m m' ∧ m'.Poised pid (next value) s' := by
  obtain ⟨p, hp, hphase, hstopped, rfl⟩ := h
  have hown : (m.update pid f).own pid = some (f p.secluded) := by
    rw [own_update_self hf.pid hf.secluded, own, hp]
    rfl
  obtain ⟨m'', hcalls, hpoised⟩ := Poised.call hc hp hphase hstopped (hperform p hp rfl) hown
    (hf.phase _) ((hf.stopped _).trans hstopped)
  have hs' : (m.update pid f).scene (f p.secluded) = s' := hscene p.secluded rfl
  exact ⟨m'', hcalls, hs' ▸ hpoised⟩

end Machine

/-! ### Parts of programs -/

namespace Prog

open Machine (Alone Calls)

variable {α β : Type} {held : Descriptors} {pid : Int} {s s' s'' : Scene} {a : α} {b : β}

theorem bind_assoc {γ : Type} (x : Prog α) (f : α → Prog β) (g : β → Prog γ) :
    (x >>= f) >>= g = x >>= fun a => f a >>= g := by
  induction x with
  | done a => rfl
  | call c next ih => exact congrArg (Prog.call c) (funext fun reply => ih reply)

/-- A part of a program takes a process from one scene to another, and gives a value to whatever
follows. -/
def Takes (held : Descriptors) (pid : Int) (x : Prog α) (s : Scene) (a : α) (s' : Scene) : Prop :=
  ∀ (m : Machine) (k : α → Prog Nat), m.Poised pid (x >>= k) s →
    ∃ m', Alone held pid m m' ∧ m'.Poised pid (k a) s'

theorem Takes.done (a : α) : Takes held pid (.done a) s a s :=
  fun m _ h => ⟨m, .refl, h⟩

/-- **One part after another.** -/
theorem Takes.bind {x : Prog α} {f : α → Prog β} (h : Takes held pid x s a s')
    (hf : Takes held pid (f a) s' b s'') : Takes held pid (x >>= f) s b s'' := by
  intro m k hm
  rw [bind_assoc] at hm
  obtain ⟨m₁, hm₁, hpoised₁⟩ := h m _ hm
  obtain ⟨m₂, hm₂, hpoised₂⟩ := hf m₁ k hpoised₁
  exact ⟨m₂, hm₁.trans hm₂, hpoised₂⟩

/-- A single call. -/
theorem Takes.ask {c : Call} {value : c.Reply}
    (h : ∀ (m : Machine) (next : c.Reply → Prog Nat), m.Poised pid (.call c next) s →
      ∃ m', Calls held pid m m' ∧ m'.Poised pid (next value) s') :
    Takes held pid (Prog.ask c) s value s' := by
  intro m k hm
  obtain ⟨m', hcalls, hpoised⟩ := h m k hm
  exact ⟨m', .single hcalls, hpoised⟩

/-! ### Writing -/

/-- Writing to the diagnostics of the shell. -/
theorem write_takes {fd : Nat} (hfile : s.descriptors.file? fd = some .diagnostics)
    (bytes : Bytes) :
    Takes held pid (Prog.ask (.write fd bytes)) s (.ok bytes.length)
      { s with diagnostics := s.diagnostics ++ bytes } := by
  refine Takes.ask fun m next h => ?_
  obtain ⟨p, hp, hphase, hstopped, rfl⟩ := h
  replace hfile : p.descriptors.file? fd = some .diagnostics := hfile
  have hperform : m.perform held p (.write fd bytes) =
      .reply (.ok bytes.length) { m with diagnostics := m.diagnostics ++ bytes } := by
    unfold Machine.perform
    dsimp only
    unfold Machine.write
    rw [hfile]
    rfl
  have hown : Machine.own { m with diagnostics := m.diagnostics ++ bytes } pid =
      some p.secluded := by
    unfold Machine.own
    exact congrArg (Option.map Process.secluded) hp
  refine Machine.Poised.call (q := p.secluded) ?_ hp hphase hstopped hperform hown rfl hstopped
  exact trivial

theorem repeatFor_succ {state : Type} (body : state → Prog (state ⊕ α)) (otherwise : state → α)
    (n : Nat) (start : state) :
    repeatFor body otherwise (n + 1) start = body start >>= fun
      | .inl next => repeatFor body otherwise n next
      | .inr value => .done value := rfl

/-- **Writing everything** to the diagnostics of the shell takes one call, or none. -/
theorem writeAll_takes {fd : Nat} (hfile : s.descriptors.file? fd = some .diagnostics)
    (bytes : Bytes) :
    Takes held pid (writeAll fd bytes) s (.ok ())
      { s with diagnostics := s.diagnostics ++ bytes } := by
  obtain ⟨n, hn⟩ : ∃ n, patience = n + 1 + 1 := ⟨patience - 2, rfl⟩
  unfold writeAll repeatWhile
  rw [hn, repeatFor_succ]
  by_cases hbytes : bytes = []
  · subst hbytes
    rw [if_pos rfl]
    have hs : ({ s with diagnostics := s.diagnostics ++ [] } : Scene) = s := by simp
    rw [hs]
    exact (Takes.done _).bind (Takes.done _)
  · rw [if_neg hbytes]
    have hround : ∀ f : Except Errno Nat → Prog (Bytes ⊕ Except Errno Unit),
        f (.ok bytes.length) = .done (.inl []) →
          Takes held pid (bind (ask (.write fd bytes)) f) s (.inl [])
            { s with diagnostics := s.diagnostics ++ bytes } := by
      intro f hf
      refine (write_takes hfile bytes).bind ?_
      rw [hf]
      exact Takes.done _
    refine (hround _ ?_).bind ?_
    · dsimp only
      rw [List.drop_length]
    · dsimp only
      rw [repeatFor_succ, if_pos rfl]
      exact (Takes.done _).bind (Takes.done _)

/-! ### Running another program -/

/-- A part of a program that does nothing but try to run another one. -/
inductive Execs : Prog α → Prop where
  | done (a : α) : Execs (.done a)
  | exec (path : Bytes) (words : List Bytes) (environment : Environment) {next : Errno → Prog α} :
      (∀ errno, Execs (next errno)) → Execs (.call (.exec path words environment) next)

theorem Execs.bind {x : Prog α} {f : α → Prog β} (h : x.Execs) (hf : ∀ a, (f a).Execs) :
    (x >>= f).Execs := by
  induction h with
  | done a => exact hf a
  | exec path words environment _ ih => exact .exec path words environment ih

theorem Execs.ite {b : Prop} [Decidable b] {x y : Prog α} (hx : x.Execs) (hy : y.Execs) :
    (if b then x else y).Execs := by
  split
  · exact hx
  · exact hy

theorem execFile_execs (path : Bytes) (words : List Bytes) (environment : Environment) :
    (execFile path words environment).Execs := by
  have hask : ∀ path words, (Prog.ask (.exec path words environment)).Execs :=
    fun path words => .exec path words environment fun errno => .done errno
  exact (hask path words).bind fun (errno : Errno) => .ite (hask _ _) (.done errno)

theorem searchIn_execs (name : Bytes) (words : List Bytes) (environment : Environment)
    (denied : Bool) (directories : List Bytes) :
    (searchIn name words environment denied directories).Execs := by
  induction directories generalizing denied with
  | nil => exact .done _
  | cons directory rest ih =>
      exact (execFile_execs _ words environment).bind fun errno => .ite (ih _) (.done errno)

theorem execSearching_execs (name : Bytes) (words : List Bytes) (environment : Environment) :
    (execSearching name words environment).Execs := by
  exact .ite (.done _) (.ite (execFile_execs name words environment)
    (.ite (.done _) (searchIn_execs name words environment false _)))

end Prog

namespace Machine

variable {held : Descriptors} {m m' : Machine} {p : Process} {pid : Int} {s : Scene} {α : Type}

/-- A process has started a program, with the descriptors that it has not kept to itself. -/
def Starts (m : Machine) (pid : Int) (s : Scene) : Prop :=
  ∃ rest image arrivals, image.descriptors = s.descriptors.kept ∧
    m.Poised pid rest
      { s with descriptors := s.descriptors.kept, image := some image, arrivals := arrivals }

/-- A process that has been given another program. -/
def restarted (image : Descriptors → Image) (environment : Environment) (rest : Prog Nat)
    (q : Process) : Process :=
  { q with
    descriptors := q.descriptors.kept
    environment := environment
    dispositions := q.dispositions.filter (·.2 = .ignore)
    caught := []
    image := some (image q.descriptors.kept)
    phase := .running rest }

/-- What it takes to run a program, and what comes of it. -/
theorem eq_of_exec {path : Bytes} {words : List Bytes} {environment : Environment}
    (h : m.exec p path words environment = .ok m') :
    ∃ name words' program, m.programs name = some program ∧
      m' = m.update p.pid (restarted
        (fun d => ⟨(Bytes.splitAt slash path).getLast?.getD [], words', d⟩) environment
        (program words' environment)) := by
  unfold exec at h
  obtain ⟨⟨name, words'⟩, -, h⟩ := eq_ok_of_bind h
  dsimp only at h
  cases hprogram : m.programs name with
  | none =>
      rw [hprogram] at h
      cases h
  | some program =>
      rw [hprogram] at h
      cases h
      exact ⟨name, words', program, hprogram, rfl⟩

theorem own_arrive (hp : m.process? pid = some p) :
    ∃ arrivals, (m.arrive p).own pid = some { p.secluded with arrivals := arrivals } := by
  unfold arrive
  by_cases himage : p.image.isNone = true
  · rw [if_pos himage, pid_of_process? hp]
    refine ⟨p.arrivals ++ [⟨p.descriptors, p.opened⟩], ?_⟩
    have hnoted := @own_update_self m pid
      (fun q => { q with arrivals := q.arrivals ++ [⟨q.descriptors, q.opened⟩] })
      (fun q => { q with arrivals := q.arrivals ++ [⟨q.descriptors, q.opened⟩] })
      (fun _ => rfl) fun _ => rfl
    rw [hnoted, own, hp]
    rfl
  · rw [if_neg himage, own, hp]
    exact ⟨p.arrivals, rfl⟩

variable (held) in
/-- **An attempt to run another program.** -/
theorem Poised.exec {path : Bytes} {words : List Bytes} {environment : Environment}
    {next : Errno → Prog Nat} (h : m.Poised pid (.call (.exec path words environment) next) s) :
    ∃ m', Calls held pid m m' ∧
      ((∃ errno arrivals, m'.Poised pid (next errno) { s with arrivals := arrivals }) ∨
        m'.Starts pid s) := by
  obtain ⟨p, hp, hphase, hstopped, rfl⟩ := h
  obtain ⟨arrivals, hown⟩ := own_arrive hp
  -- arriving is noted for the process alone
  have hfiles : ∀ q, (m.arrive p).scene q = m.scene q := by
    intro q
    unfold arrive
    split <;> rfl
  cases hexec : (m.arrive p).exec p path words environment with
  | error errno =>
      have hstep : m.step held p = (true, (m.arrive p).resume p.pid (next errno)) := by
        unfold step
        rw [hphase]
        dsimp only
        rw [hstopped, if_neg (by decide), hexec]
      refine ⟨_, ⟨hp, hstep⟩, .inl ⟨errno, arrivals, ?_⟩⟩
      have hpoised := poised_resume hown hphase hstopped (next errno)
      rw [hfiles] at hpoised
      rw [pid_of_process? hp]
      exact hpoised
  | ok m' =>
      have hstep : m.step held p = (true, m') := by
        unfold step
        rw [hphase]
        dsimp only
        rw [hstopped, if_neg (by decide), hexec]
      obtain ⟨name, words', program, -, rfl⟩ := eq_of_exec hexec
      refine ⟨_, ⟨hp, hstep⟩, .inr ?_⟩
      rw [pid_of_process? hp]
      generalize program words' environment = rest
      have hrestarted : ∀ image : Descriptors → Image,
          ((m.arrive p).update pid (restarted image environment rest)).own pid =
            some (restarted image environment rest { p.secluded with arrivals := arrivals }) := by
        intro image
        rw [own_update_self (f := restarted image environment rest)
          (g := restarted image environment rest) (fun _ => rfl) fun _ => rfl, hown]
        rfl
      have hpoised := poised_of_own (hrestarted fun d =>
        ⟨(Bytes.splitAt slash path).getLast?.getD [], words', d⟩) rfl hstopped
      have hscene : ∀ image q, ((m.arrive p).update pid (restarted image environment rest)).scene q
          = m.scene q := fun _ q => hfiles q
      rw [hscene] at hpoised
      exact ⟨rest, _, arrivals, rfl, hpoised⟩

variable (held) in
/-- **All attempts to run another program.**  The last one that is tried starts, or the process
goes on with the reason why none did. -/
theorem Poised.execs {x : Prog α} (hx : x.Execs) (k : α → Prog Nat)
    (h : m.Poised pid (x >>= k) s) :
    ∃ m', Alone held pid m m' ∧
      ((∃ a arrivals, m'.Poised pid (k a) { s with arrivals := arrivals }) ∨ m'.Starts pid s) := by
  induction hx generalizing m s with
  | done a => exact ⟨m, .refl, .inl ⟨a, s.arrivals, h⟩⟩
  | exec path words environment _ ih =>
      obtain ⟨m₁, hcalls, ⟨errno, arrivals, hpoised⟩ | hstarts⟩ := Poised.exec held h
      · obtain ⟨m₂, halone, hend⟩ := ih errno hpoised
        exact ⟨m₂, halone.head hcalls, hend⟩
      · exact ⟨m₁, .single hcalls, .inr hstarts⟩

/-! ### The end of a program -/

/-- A process has ended with a status, and has left behind what it sees. -/
def Left (m : Machine) (pid : Int) (ending : Ending) (s : Scene) : Prop :=
  ∃ p, m.process? pid = some p ∧ p.phase = .ended ending ∧
    m.scene p = { s with descriptors := {} }

variable (held) in
/-- **The end of a program.** -/
theorem Poised.finish {code : Nat} (h : m.Poised pid (.done code) s) :
    ∃ m', Calls held pid m m' ∧ m'.Left pid (.exited (code % 256 : Nat)) s := by
  obtain ⟨p, hp, hphase, hstopped, rfl⟩ := h
  have hstep : m.step held p = (true, m.finish p.pid (.exited (code % 256 : Nat))) := by
    unfold step
    rw [hphase]
    dsimp only
    rw [hstopped, if_neg (by decide)]
  refine ⟨_, ⟨hp, hstep⟩, ?_⟩
  have halive : p.alive = true := by rw [Process.alive, hphase]
  rw [pid_of_process? hp]
  unfold Machine.finish
  rw [hp]
  dsimp -zeta only
  rw [if_pos halive]
  extract_lets ended inherited left
  -- the children that it leaves are handed on, and whoever sees the end is told
  have hinherited : ∀ q, (inherited q).pid = q.pid ∧ m.scene (inherited q) = m.scene q := by
    intro q
    simp only [inherited]
    split
    · exact ⟨rfl, rfl⟩
    · split
      · unfold Process.notice
        split <;> exact ⟨rfl, rfl⟩
      · exact ⟨rfl, rfl⟩
  have hprocess : (update { m with processes := m.processes.map inherited } pid ended).process?
      pid = some (ended (inherited p)) := by
    rw [process?_update (f := ended) fun _ => rfl, process?_map fun q => (hinherited q).1, hp]
    simp [(hinherited p).1, pid_of_process? hp]
  have hscene : m.scene (ended (inherited p)) = { m.scene p with descriptors := {} } := by
    rw [← (hinherited p).2]
    rfl
  split
  · exact ⟨_, hprocess, rfl, hscene⟩
  · exact ⟨_, hprocess, rfl, hscene⟩

end Machine

end JobShell
