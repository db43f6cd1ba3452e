/-
**A machine that is watched.**

What has been done to a file in the end depends on who has done what, and when.  A machine keeps no
record of that, so the record is kept beside it: one moment after another, with the machine before
and after it, and with the process whose turn it is or the child that the shell starts.  The machine
does not notice.

Main definitions:

* `JobShell.Moment`, `JobShell.Moment.Occurs` — one thing that is done on the machine;
* `JobShell.Machine.Passage` — moments one after another, from one machine to another;
* `JobShell.Machine.turnMoments`, `JobShell.Machine.runForMoments`,
  `JobShell.Machine.untilDeathMoments` — the moments of turns;
* `JobShell.Watched`, `JobShell.Watched.Goes` — a machine with its moments, as a host for the shell;
* `JobShell.started` — the children that the shell has started.

Main results:

* `JobShell.Machine.Passage.story` — moments one after another are a story;
* `JobShell.Machine.runFor_passage`, `JobShell.Machine.untilDeath_passage` — the moments of turns
  lead to where the turns lead;
* `JobShell.Watched.drift_goes`, `JobShell.Watched.await_goes` — so do those of the host.
-/

import JobShell.Proofs.Machine.Story
import Mathlib.Data.List.Induction

set_option autoImplicit false

namespace JobShell

/-- What is done at a moment. -/
inductive Doing where
  /-- A process has its turn. -/
  | turn (p : Process)
  /-- The shell starts a child. -/
  | start (pid : Int) (assignment : Assignment)
  /-- Time goes on, or the shell asks for something else. -/
  | other

/-- One thing that is done, with the machine before and after it. -/
structure Moment where
  before : Machine
  doing : Doing
  after : Machine

open Machine (Act Story)

/-- **A moment that can occur.** -/
inductive Moment.Occurs : Moment → Prop where
  | turn {m : Machine} {p : Process} (held : Descriptors) : m.process? p.pid = some p →
      Occurs ⟨m, .turn p, (m.step held p).2⟩
  | start (m : Machine) (a : Assignment) :
      Occurs ⟨m, .start m.nextPid a, m.start m.nextPid a⟩
  | other {m m' : Machine} {deeds : List (Int × Machine.Deed)} : Act m deeds m' →
      Occurs ⟨m, .other, m'⟩

/-- The child that the shell starts at a moment. -/
def Moment.start? (x : Moment) : Option (Int × Assignment) :=
  match x.doing with
  | .start pid a => some (pid, a)
  | _ => none

/-- The children that the shell has started, the earliest first. -/
def started (xs : List Moment) : List (Int × Assignment) := xs.filterMap Moment.start?

@[simp] theorem started_nil : started [] = [] := rfl

@[simp] theorem started_append (xs ys : List Moment) :
    started (xs ++ ys) = started xs ++ started ys := List.filterMap_append

theorem mem_started_left {c : Int × Assignment} {xs : List Moment} (h : c ∈ started xs)
    (ys : List Moment) : c ∈ started (xs ++ ys) := by
  rw [started_append]
  exact List.mem_append_left _ h

theorem mem_started_right {c : Int × Assignment} {ys : List Moment} (xs : List Moment)
    (h : c ∈ started ys) : c ∈ started (xs ++ ys) := by
  rw [started_append]
  exact List.mem_append_right _ h

theorem started_cons (x : Moment) (xs : List Moment) :
    started (x :: xs) = x.start?.toList ++ started xs := by
  cases h : x.start? <;> simp [started, h]

theorem started_singleton (x : Moment) : started [x] = x.start?.toList := by
  simp [started_cons]

/-- What occurs is an act. -/
theorem Moment.Occurs.act {x : Moment} (h : x.Occurs) : ∃ deeds, Act x.before deeds x.after := by
  cases h with
  | turn held hp => exact ⟨_, .turn held hp⟩
  | start m a => exact ⟨_, .start a⟩
  | other hact => exact ⟨_, hact⟩

namespace Machine

/-- **Moments one after another**, from one machine to another. -/
inductive Passage (m : Machine) : List Moment → Machine → Prop where
  | nil : Passage m [] m
  | snoc {xs : List Moment} {x : Moment} :
      Passage m xs x.before → x.Occurs → Passage m (xs ++ [x]) x.after

variable {m m' m'' : Machine} {xs ys : List Moment} {x : Moment} {held : Descriptors}

theorem Passage.single (h : x.Occurs) : Passage x.before [x] x.after := .snoc .nil h

theorem Passage.trans (h : Passage m xs m') (h' : Passage m' ys m'') :
    Passage m (xs ++ ys) m'' := by
  induction h' with
  | nil => rwa [List.append_nil]
  | snoc _ hx ih =>
      rw [← List.append_assoc]
      exact .snoc ih hx

/-- Nothing has happened. -/
theorem Passage.of_nil (h : Passage m [] m') : m' = m := by
  generalize hxs : ([] : List Moment) = xs at h
  cases h with
  | nil => rfl
  | snoc => simp at hxs

/-- The last moment, and those before it. -/
theorem Passage.of_snoc (h : Passage m (xs ++ [x]) m') :
    Passage m xs x.before ∧ x.Occurs ∧ m' = x.after := by
  generalize hzs : xs ++ [x] = zs at h
  cases h with
  | nil => simp at hzs
  | snoc hxs hx =>
      obtain ⟨rfl, hlast⟩ := List.append_inj' hzs rfl
      obtain rfl := List.head_eq_of_cons_eq hlast
      exact ⟨hxs, hx, rfl⟩

/-- One part after another. -/
theorem Passage.split (h : Passage m (xs ++ ys) m') :
    ∃ m₁, Passage m xs m₁ ∧ Passage m₁ ys m' := by
  induction ys using List.reverseRecOn generalizing m' with
  | nil => exact ⟨m', by rwa [List.append_nil] at h, .nil⟩
  | append_singleton ys y ih =>
      rw [← List.append_assoc] at h
      obtain ⟨hbefore, hy, rfl⟩ := h.of_snoc
      obtain ⟨m₁, hxs, hys⟩ := ih hbefore
      exact ⟨m₁, hxs, .snoc hys hy⟩

/-- The machine before and after one of the moments. -/
theorem Passage.at (h : Passage m (xs ++ x :: ys) m') :
    Passage m xs x.before ∧ x.Occurs ∧ Passage x.after ys m' := by
  rw [← List.singleton_append, ← List.append_assoc] at h
  obtain ⟨m₁, hxs, hys⟩ := h.split
  obtain ⟨hbefore, hx, rfl⟩ := hxs.of_snoc
  exact ⟨hbefore, hx, hys⟩

/-- The first moment, and those after it. -/
theorem Passage.first (h : Passage m (x :: xs) m') :
    x.before = m ∧ x.Occurs ∧ Passage x.after xs m' := by
  rw [← List.nil_append (x :: xs)] at h
  obtain ⟨hbefore, hx, hxs⟩ := h.at
  exact ⟨hbefore.of_nil, hx, hxs⟩

/-- **Moments one after another are a story.** -/
theorem Passage.story (h : Passage m xs m') : ∃ deeds, Story m deeds m' := by
  induction h with
  | nil => exact ⟨[], .nil⟩
  | snoc _ hx ih =>
      obtain ⟨deeds, hstory⟩ := ih
      obtain ⟨more, hact⟩ := hx.act
      exact ⟨_, hstory.snoc hact⟩

/-! ### The moments of turns -/

/-- The processes that have their turn until one gets anywhere. -/
def stepFirstMoments (m : Machine) (held : Descriptors) : List Int → List Moment
  | [] => []
  | pid :: rest =>
    match m.process? pid with
    | none => stepFirstMoments m held rest
    | some p =>
      ⟨m, .turn p, (m.step held p).2⟩ ::
        match m.step held p with
        | (true, _) => []
        | (false, m) => stepFirstMoments m held rest

/-- The moments of one turn, after which the machine is `after`. -/
def turnMoments (m : Machine) (held : Descriptors) (after : Machine) : List Moment :=
  let counted := { m with turns := m.turns + 1 }
  let last := (counted.stepFirst held m.candidates).2
  ⟨m, .other, counted⟩ :: counted.stepFirstMoments held m.candidates ++ [⟨last, .other, after⟩]

/-- The moments of at most so many turns. -/
def runForMoments (m : Machine) (held : Descriptors) : Nat → List Moment
  | 0 => []
  | n + 1 =>
    match m.turnOnce held with
    | some m' => m.turnMoments held m' ++ m'.runForMoments held n
    | none => []

/-- The moments of turns until the shell's kernel has a death to be told of. -/
def untilDeathMoments (m : Machine) (held : Descriptors) : Nat → List Moment
  | 0 => []
  | n + 1 =>
    match m.shellKilled, m.deaths with
    | some _, _ => []
    | none, _ :: deaths => [⟨m, .other, { m with deaths := deaths }⟩]
    | none, [] =>
      match m.turnOnce held with
      | some m' => m.turnMoments held m' ++ m'.untilDeathMoments held n
      | none => []

/-- Nothing but time goes on. -/
theorem pass_passage (m : Machine) (turns clock : Nat) {deaths : List (Int × Ending)}
    (hdeaths : ∀ d ∈ deaths, d ∈ m.deaths) :
    Passage m [⟨m, .other, { m with turns := turns, clock := clock, deaths := deaths }⟩]
      { m with turns := turns, clock := clock, deaths := deaths } :=
  .single (.other (.pass turns clock hdeaths))

theorem stepFirst_passage (held : Descriptors) (pids : List Int) :
    Passage m (m.stepFirstMoments held pids) (m.stepFirst held pids).2 := by
  induction pids generalizing m with
  | nil => exact .nil
  | cons pid pids ih =>
      unfold stepFirstMoments stepFirst
      cases hprocess : m.process? pid with
      | none => exact ih
      | some p =>
          obtain rfl : p.pid = pid := (mem_standings_of_process? hprocess).2
          have hturn := Passage.single (Moment.Occurs.turn held hprocess)
          dsimp only at hturn ⊢
          -- the next one has its turn only if this one has got nowhere
          rcases hresult : m.step held p with ⟨_ | _, m'⟩
          · rw [hresult] at hturn
            exact hturn.trans ih
          · rw [hresult] at hturn
            exact hturn

theorem turnOnce_passage (h : m.turnOnce held = some m') :
    Passage m (m.turnMoments held m') m' := by
  have hcounted := pass_passage m (m.turns + 1) m.clock fun _ => id
  refine (hcounted.trans (stepFirst_passage held m.candidates)).trans ?_
  unfold turnOnce at h
  generalize { m with turns := m.turns + 1 }.stepFirst held m.candidates = result at h ⊢
  -- if nobody has got anywhere the clock goes on to what somebody waits for
  rcases result with ⟨_ | _, m₁⟩
  · obtain ⟨time, -, rfl⟩ := Option.map_eq_some_iff.1 h
    exact pass_passage m₁ m₁.turns (max m₁.clock time) fun _ => id
  · obtain rfl : m₁ = m' := by simpa using h
    exact pass_passage m₁ m₁.turns m₁.clock fun _ => id

theorem runFor_passage (held : Descriptors) (n : Nat) :
    Passage m (m.runForMoments held n) (m.runFor held n) := by
  induction n generalizing m with
  | zero => exact .nil
  | succ n ih =>
      unfold runForMoments runFor
      cases hturn : m.turnOnce held with
      | none => exact .nil
      | some m' => exact (turnOnce_passage hturn).trans ih

/-- Whether there is a death to be told of after the turns or not. -/
theorem untilDeath_passage (held : Descriptors) (n : Nat) :
    match m.runUntilDeath held n with
    | .ok (_, m') | .error (_, m') => Passage m (m.untilDeathMoments held n) m' := by
  induction n generalizing m with
  | zero => exact .nil
  | succ n ih =>
      unfold untilDeathMoments runUntilDeath
      cases hkilled : m.shellKilled with
      | some signal => exact .nil
      | none =>
          cases hdeaths : m.deaths with
          | cons death deaths =>
              -- one has waited to be told of, and nobody has a turn
              have hpass := pass_passage m m.turns m.clock
                fun d (hd : d ∈ deaths) => hdeaths ▸ List.mem_cons_of_mem _ hd
              rw [hkilled] at hpass
              exact hpass
          | nil =>
              cases hturn : m.turnOnce held with
              | none => exact .nil
              | some m₁ =>
                  have hrest := @ih m₁
                  dsimp only
                  split at hrest <;> exact (turnOnce_passage hturn).trans hrest

/-! ### Turns start nobody -/

theorem started_stepFirst (m : Machine) (held : Descriptors) (pids : List Int) :
    started (m.stepFirstMoments held pids) = [] := by
  induction pids generalizing m with
  | nil => rfl
  | cons pid pids ih =>
      unfold stepFirstMoments
      cases m.process? pid with
      | none => exact ih m
      | some p =>
          dsimp only
          rcases m.step held p with ⟨_ | _, m'⟩
          · exact ih m'
          · rfl

theorem started_turn (m : Machine) (held : Descriptors) (m' : Machine) :
    started (m.turnMoments held m') = [] := by
  simp [turnMoments, started_cons, started_stepFirst, Moment.start?]

theorem started_runFor (m : Machine) (held : Descriptors) (n : Nat) :
    started (m.runForMoments held n) = [] := by
  induction n generalizing m with
  | zero => rfl
  | succ n ih =>
      unfold runForMoments
      cases m.turnOnce held with
      | none => rfl
      | some m' => simp [started_turn, ih]

theorem started_untilDeath (m : Machine) (held : Descriptors) (n : Nat) :
    started (m.untilDeathMoments held n) = [] := by
  induction n generalizing m with
  | zero => rfl
  | succ n ih =>
      unfold untilDeathMoments
      cases m.shellKilled with
      | some signal => rfl
      | none =>
          cases m.deaths with
          | cons death deaths => rfl
          | nil =>
              cases m.turnOnce held with
              | none => rfl
              | some m' => simp [started_turn, ih]

end Machine

/-! ### The host -/

/-- A machine, and what has been done on it so far, the earliest first. -/
structure Watched where
  machine : Machine
  moments : List Moment := []

namespace Watched

/-- The machine goes on. -/
def goOn (w : Watched) (xs : List Moment) (m : Machine) : Watched :=
  { machine := m, moments := w.moments ++ xs }

/-- The shell asks for something. -/
def note (w : Watched) (doing : Doing) (m : Machine) : Watched := w.goOn [⟨w.machine, doing, m⟩] m

/-- The turns between two calls of the shell, and what the kernel is told after them. -/
def driftMoments (m : Machine) (held : Descriptors) : List Moment :=
  let last := m.runFor held (m.pace m.turns)
  m.runForMoments held (m.pace m.turns) ++ [⟨last, .other, { last with deaths := [] }⟩]

/-- The machine goes on until a child ends, if one does. -/
def await (w : Watched) (held : Descriptors) :
    Except (Loss × Watched) ((Int × Ending) × Watched) :=
  let xs := w.machine.untilDeathMoments held Machine.patience
  match w.machine.runUntilDeath held Machine.patience with
  | .ok (death, m) => .ok (death, w.goOn xs m)
  | .error (loss, m) => .error (loss, w.goOn xs m)

instance : Host Watched where
  refuses call w := Host.refuses call w.machine
  newPipe w := (w.machine.addPipe.1, w.note .other w.machine.addPipe.2)
  nextPid w := Host.nextPid w.machine
  start pid a w := w.note (.start pid a) (w.machine.start pid a)
  write file bytes w := w.note .other (w.machine.shellWrite file bytes)
  unread file w := Host.unread file w.machine
  take file n w := w.note .other (w.machine.take file n)
  enter place path w := Host.enter place path w.machine
  pathOf place w := Host.pathOf place w.machine
  kill pid signal w :=
    (w.machine.send w.machine.shellPid w.machine.shellPid pid signal).map fun (self, m) =>
      (self, w.note .other m)
  drift held w :=
    ((w.machine.drift held).1, w.goOn (driftMoments w.machine held) (w.machine.drift held).2)
  await held w := w.await held

/-- **The machine has gone on**, and some children have been started meanwhile. -/
def Goes (children : List (Int × Assignment)) (w w' : Watched) : Prop :=
  ∃ xs, w'.moments = w.moments ++ xs ∧ w.machine.Passage xs w'.machine ∧ started xs = children

variable {w w' w'' : Watched} {children more : List (Int × Assignment)} {held : Descriptors}

theorem Goes.refl (w : Watched) : Goes [] w w := ⟨[], by simp, .nil, rfl⟩

theorem Goes.trans (h : Goes children w w') (h' : Goes more w' w'') :
    Goes (children ++ more) w w'' := by
  obtain ⟨xs, hxs, hpassage, rfl⟩ := h
  obtain ⟨ys, hys, hpassage', rfl⟩ := h'
  exact ⟨xs ++ ys, by rw [hys, hxs, List.append_assoc], hpassage.trans hpassage',
    started_append xs ys⟩

/-- One thing that the shell does. -/
theorem note_goes (w : Watched) {doing : Doing} {m : Machine}
    (h : Moment.Occurs ⟨w.machine, doing, m⟩) :
    Goes (Moment.start? ⟨w.machine, doing, m⟩).toList w (w.note doing m) :=
  ⟨_, rfl, .single h, started_singleton _⟩

/-- **Time goes on** between two calls of the shell. -/
theorem drift_goes (w : Watched) (held : Descriptors) : Goes [] w (Host.drift held w).2 := by
  refine ⟨driftMoments w.machine held, rfl, ?_, ?_⟩
  · refine (Machine.runFor_passage held _).trans ?_
    exact Machine.pass_passage _ _ _ (by simp)
  · rw [driftMoments, started_append, Machine.started_runFor]
    rfl

/-- **The shell waits.** -/
theorem await_goes {death : Int × Ending} (h : Host.await held w = .ok (death, w')) :
    Host.await held w.machine = .ok (death, w'.machine) ∧ Goes [] w w' := by
  have hpassage := Machine.untilDeath_passage (m := w.machine) held Machine.patience
  have hhost : Host.await held w.machine = w.machine.runUntilDeath held Machine.patience := rfl
  change w.await held = _ at h
  rw [hhost]
  unfold await at h
  rcases hresult : w.machine.runUntilDeath held Machine.patience with ⟨_, _⟩ | ⟨_, _⟩
  · rw [hresult] at h
    cases h
  · rw [hresult] at h hpassage
    cases h
    exact ⟨rfl, _, rfl, hpassage, Machine.started_untilDeath _ _ _⟩

end Watched

end JobShell
