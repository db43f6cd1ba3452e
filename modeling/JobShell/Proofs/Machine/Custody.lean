/-
**Who can have an end of a pipe.**

A process that does not have an end of a pipe comes by it in two ways only: it is forked by a
process that has it, or it opens it by a path that leads to it, such as `/dev/stdin`.  The machine
keeps a record of what is opened by paths.  As long as an end has not been opened so, it stays with
the children of the shell that were given it and with what these have started.

A child of the shell can be given an end only to close it before its program runs.  Such a child is
a lender: it may have the end until then, and since it does not fork meanwhile nobody else gets it.

Main definitions:

* `JobShell.Standing.Heeds` — a child that runs its program only with descriptors that are ready;
* `JobShell.Machine.HasOpened` — an open file has been opened by a path;
* `JobShell.Machine.Kept` — an open file stays with its keeper and its lender;
* `JobShell.Machine.Tidy` — processes that have ended have nothing open.

Main results:

* `JobShell.Machine.AdvancesMany.heeds` — how a child is to come to its program stays settled;
* `JobShell.Machine.AdvancesMany.kept` — an end of a pipe stays with its keeper;
* `JobShell.Machine.isWritten_eq_false` — when the keeper has ended, nobody can write.
-/

import JobShell.Proofs.Launch
import JobShell.Proofs.Machine.Turns

set_option autoImplicit false

namespace JobShell

/-- The pipe of which an open file is an end. -/
def OpenFile.pipe? : OpenFile → Option Nat
  | .pipeReader i | .pipeWriter i => some i
  | _ => none

namespace Standing

/-- A child of the shell that comes to its program only with descriptors that are ready. -/
structure Heeds (ready : Descriptors → List PathOpening → Prop) (v : Standing) : Prop where
  arrivals : ∀ a ∈ v.arrivals, ready a.descriptors a.opened
  started : v.image.isSome = true → v.arrivals ≠ []
  heeds : v.image = none → ∀ rest, v.phase = .running rest →
    rest.Heeds ready (fun _ _ _ => True) v.descriptors v.opened

variable {ready : Descriptors → List PathOpening → Prop} {pipes pipes' : Nat} {v w : Standing}
  {file : OpenFile}

/-! ### One step of one process -/

theorem arrived_of_image (h : v.image.isSome = true) : v.arrived = v := by
  unfold arrived
  rw [if_neg]
  cases himage : v.image <;> simp_all

theorem arrived_of_none (h : v.image = none) :
    v.arrived = { v with arrivals := v.arrivals ++ [⟨v.descriptors, v.opened⟩] } := by
  unfold arrived
  rw [if_pos]
  rw [h, Option.isNone_none]

@[simp] theorem arrived_root : v.arrived.root = v.root := by
  unfold arrived
  split <;> rfl

@[simp] theorem arrived_opened : v.arrived.opened = v.opened := by
  unfold arrived
  split <;> rfl

theorem Next.root_eq (h : Next pipes pipes' v w) : w.root = v.root := by
  cases h with
  | same | ended | called => rfl
  | executed | refused => exact arrived_root

/-- What has been opened by paths is not forgotten. -/
theorem Next.opened (h : Next pipes pipes' v w) {o : PathOpening} (ho : o ∈ v.opened) : o ∈ w.opened := by
  cases h with
  | same | ended => exact ho
  | called => exact List.mem_append_left _ ho
  | executed | refused => simpa using ho

/-- A file that a process has afterwards it had before, unless it has just opened it or made the
pipe. -/
theorem affects_holds {c : Call} {reply : c.Reply} {d d' : Descriptors} {opened : List PathOpening}
    (h : c.Affects pipes pipes' d reply d' opened) (hfile : d'.holds file = true) :
    d.holds file = true ∨ (∃ o ∈ opened, o.file = file) ∨
      ∃ i, file.pipe? = some i ∧ pipes ≤ i ∧ i < pipes' := by
  cases c with
  | openPath path how mode =>
      cases reply with
      | error errno => exact .inl (h.1 ▸ hfile)
      | ok fd =>
          obtain ⟨file', -, rfl, rfl⟩ := h
          rcases Descriptors.holds_assign hfile with rfl | hfile
          · exact .inr (.inl ⟨_, List.mem_singleton_self _, rfl⟩)
          · exact .inl hfile
  | close fd =>
      cases reply with
      | error errno => exact .inl (h.1 ▸ hfile)
      | ok _ => exact .inl (Descriptors.holds_close (h.1 ▸ hfile))
  | dup2 old new =>
      cases reply with
      | error errno => exact .inl (h.1 ▸ hfile)
      | ok _ =>
          obtain ⟨file', hfile', rfl, -⟩ := h
          -- a number on itself changes nothing
          split at hfile
          · exact .inl hfile
          · rcases Descriptors.holds_assign hfile with rfl | hfile
            · exact .inl (Descriptors.holds_of_file? hfile')
            · exact .inl hfile
  | duplicate fd least =>
      cases reply with
      | error errno => exact .inl (h.1 ▸ hfile)
      | ok new =>
          obtain ⟨file', hfile', rfl, -⟩ := h
          rcases Descriptors.holds_assign hfile with rfl | hfile
          · exact .inl (Descriptors.holds_of_file? hfile')
          · exact .inl hfile
  | pipe =>
      cases reply with
      | error errno => exact .inl (h.1 ▸ hfile)
      | ok ends =>
          obtain ⟨i, hi, hi', rfl, -⟩ := h
          rcases Descriptors.holds_assign hfile with rfl | hfile
          · exact .inr (.inr ⟨i, rfl, hi, hi'⟩)
          · rcases Descriptors.holds_assign hfile with rfl | hfile
            · exact .inr (.inr ⟨i, rfl, hi, hi'⟩)
            · exact .inl hfile
  | _ => exact .inl (h.1 ▸ hfile)

theorem Next.holds (h : Next pipes pipes' v w) (hfile : w.descriptors.holds file = true) :
    v.descriptors.holds file = true ∨ (∃ o ∈ w.opened, o.file = file) ∨
      ∃ i, file.pipe? = some i ∧ pipes ≤ i ∧ i < pipes' := by
  cases h with
  | same => exact .inl hfile
  | ended => exact absurd hfile (by simp [Standing.ended, Descriptors.holds])
  | called hphase haffects =>
      rcases affects_holds haffects hfile with hfile | ⟨o, ho, heq⟩ | hpipe
      · exact .inl hfile
      · exact .inr (.inl ⟨o, List.mem_append_right _ ho, heq⟩)
      · exact .inr (.inr hpipe)
  | executed => exact .inl (Descriptors.holds_kept hfile)
  | refused => exact .inl (by simpa using hfile)

/-- A program that is not the first one has been noted before, and the first one is noted now. -/
theorem Heeds.arrived {path : Bytes} {words : List Bytes} {environment : Environment}
    {next : Errno → Prog Nat} (h : v.Heeds ready)
    (hphase : v.phase = .running (.call (.exec path words environment) next)) :
    (∀ a ∈ v.arrived.arrivals, ready a.descriptors a.opened) ∧ v.arrived.arrivals ≠ [] := by
  cases himage : v.image with
  | some image =>
      have hsome : v.image.isSome = true := by simp [himage]
      rw [arrived_of_image hsome]
      exact ⟨h.arrivals, h.started hsome⟩
  | none =>
      rw [arrived_of_none himage]
      refine ⟨?_, by simp⟩
      intro a ha
      rcases List.mem_append.1 ha with ha | ha
      · exact h.arrivals a ha
      · obtain rfl := List.mem_singleton.1 ha
        exact (h.heeds himage _ hphase).1

/-- **How a child is to come to its program stays settled.** -/
theorem Next.heeds (h : Next pipes pipes' v w) (hv : v.Heeds ready) : w.Heeds ready := by
  cases h with
  | same => exact hv
  | ended ending => exact ⟨hv.arrivals, hv.started, by rintro - rest ⟨⟩⟩
  | called hphase haffects =>
      refine ⟨hv.arrivals, hv.started, ?_⟩
      rintro himage rest ⟨⟩
      exact (hv.heeds himage _ hphase).2 _ _ _ _ _ haffects
  | executed image rest hphase =>
      obtain ⟨harrivals, hnoted⟩ := hv.arrived hphase
      exact ⟨harrivals, fun _ => hnoted, by rintro ⟨⟩⟩
  | refused errno hphase =>
      obtain ⟨harrivals, hnoted⟩ := hv.arrived hphase
      refine ⟨harrivals, fun _ => hnoted, ?_⟩
      rintro himage rest ⟨⟩
      have himage' : v.image = none := by
        cases hv_image : v.image with
        | none => rfl
        | some image =>
            rw [arrived_of_image (by simp [hv_image])] at himage
            exact hv_image.symm.trans himage
      have hnext := (hv.heeds himage' _ hphase).2 0 0 errno v.descriptors [] ⟨rfl, rfl⟩
      simpa using hnext

end Standing

namespace Machine

open Standing (Next Born)

/-- An open file has been opened by a path. -/
def HasOpened (m : Machine) (file : OpenFile) : Prop :=
  ∃ p ∈ m.processes, ∃ o ∈ p.opened, o.file = file

/-- An open file stays with its keeper, which is a child of the shell and what it has started, and
with its lender, which is a child of the shell that has not come to its program. -/
def Kept (m : Machine) (file : OpenFile) (keeper lender : Option Int) : Prop :=
  ∀ p ∈ m.processes, p.descriptors.holds file = true →
    keeper = some p.root ∨ lender = some p.pid ∧ p.arrivals = []

/-- Processes that have ended have nothing open. -/
def Tidy (m : Machine) : Prop := ∀ p ∈ m.processes, p.alive = false → p.descriptors = {}

variable {launching : Assignment → Prop} {m m' : Machine} {file : OpenFile}
  {keeper lender : Option Int} {ready : Descriptors → List PathOpening → Prop} {pid : Int}

/-! ### In terms of the standings -/

theorem hasOpened_iff : m.HasOpened file ↔ ∃ v ∈ m.standings, ∃ o ∈ v.opened, o.file = file := by
  simp [HasOpened, standings, Process.standing]

theorem kept_iff : m.Kept file keeper lender ↔ ∀ v ∈ m.standings,
    v.descriptors.holds file = true →
      keeper = some v.root ∨ lender = some v.pid ∧ v.arrivals = [] := by
  rw [standings, List.forall_mem_map]
  rfl

theorem tidy_iff : m.Tidy ↔ ∀ v ∈ m.standings, ∀ ending, v.phase = .ended ending →
    v.descriptors = {} := by
  rw [standings, List.forall_mem_map]
  refine forall₂_congr fun p _ => ?_
  unfold Process.alive
  cases hphase : p.phase with
  | running rest => simp [Process.standing, hphase]
  | ended ending => simp [Process.standing, hphase]

/-! ### One step of all processes -/

theorem Advances.hasOpened (h : Advances launching m m') (hm : m.HasOpened file) :
    m'.HasOpened file := by
  rw [hasOpened_iff] at hm ⊢
  obtain ⟨v, hv, o, ho, heq⟩ := hm
  obtain ⟨w, hw, hnext⟩ := h.future hv
  exact ⟨w, hw, o, hnext.opened ho, heq⟩

theorem Advances.tidy (h : Advances launching m m') (hm : m.Tidy) : m'.Tidy := by
  rw [tidy_iff] at hm ⊢
  intro w hw ending hphase
  rcases h.past hw with ⟨v, hv, hnext⟩ | ⟨v, -, next, -, rfl⟩ | ⟨a, environment, -, rfl⟩
  · cases hnext with
    | same => exact hm _ hv ending hphase
    | ended => rfl
    | called | executed | refused => cases hphase
  · cases hphase
  · cases hphase

theorem Advances.heeds (h : Advances launching m m') (hpid : pid < m.nextPid)
    (hm : ∀ v ∈ m.standings, v.pid = pid → v.Heeds ready) :
    ∀ v ∈ m'.standings, v.pid = pid → v.Heeds ready := by
  intro w hw hw_pid
  rcases h.past hw with ⟨v, hv, hnext⟩ | ⟨v, -, next, -, rfl⟩ | ⟨a, environment, -, rfl⟩
  · exact hnext.heeds (hm v hv (hnext.pid_eq ▸ hw_pid))
  · exact absurd hw_pid (Int.ne_of_gt hpid)
  · exact absurd hw_pid (Int.ne_of_gt hpid)

/-- What is to be known of a lender: when it comes to its program it has the file only if it has
opened it by a path. -/
def Lends (m : Machine) (file : OpenFile) (lender : Option Int) : Prop :=
  ∀ pid, lender = some pid → pid < m.nextPid ∧
    ∃ ready : Descriptors → List PathOpening → Prop,
      (∀ v ∈ m.standings, v.pid = pid → v.Heeds ready) ∧
        ∀ d opened, ready d opened → d.holds file = true → ∃ o ∈ opened, o.file = file

theorem Advances.lends (h : Advances launching m m') (hm : m.Lends file lender) :
    m'.Lends file lender := by
  intro pid hpid
  obtain ⟨hlt, ready, hheeds, hready⟩ := hm pid hpid
  exact ⟨Int.lt_of_lt_of_le hlt h.nextPid_le, ready, h.heeds hlt hheeds, hready⟩

/-- **An end of a pipe stays where it is**, until it is opened by a path. -/
theorem Advances.kept (h : Advances launching m m') (hlends : m.Lends file lender)
    (hpipe : ∀ i, file.pipe? = some i → ¬ (m.pipes.length ≤ i ∧ i < m'.pipes.length))
    (hlaunching : ∀ a, launching a → a.descriptors.holds file = false)
    (hm : m.Kept file keeper lender) : m'.HasOpened file ∨ m'.Kept file keeper lender := by
  by_cases hopened : m'.HasOpened file
  · exact .inl hopened
  refine .inr ?_
  rw [kept_iff] at hm ⊢
  rw [hasOpened_iff] at hopened
  intro w hw hfile
  rcases h.past hw with ⟨v, hv, hnext⟩ | ⟨v, hv, next, hphase, rfl⟩ | ⟨a, environment, ha, rfl⟩
  · have hv_file : v.descriptors.holds file = true := by
      rcases hnext.holds hfile with hfile | ⟨o, ho, heq⟩ | ⟨i, hi, hrange⟩
      · exact hfile
      · exact absurd ⟨w, hw, o, ho, heq⟩ hopened
      · exact absurd hrange (hpipe i hi)
    rcases hm v hv hv_file with hkeeper | ⟨hlender, harrivals⟩
    · exact .inl (hnext.root_eq ▸ hkeeper)
    · obtain ⟨-, ready, hheeds, hready⟩ := hlends v.pid hlender
      have hv_heeds := hheeds v hv rfl
      -- a lender that comes to its program does not have the file any more
      have hunready : ∀ path words environment next,
          v.phase = .running (.call (.exec path words environment) next) →
            ∃ o ∈ v.opened, o.file = file := by
        intro path words environment next hphase
        have hnone : v.image = none := by
          cases himage : v.image with
          | none => rfl
          | some image => exact absurd harrivals (hv_heeds.started (by simp [himage]))
        exact hready _ _ (hv_heeds.heeds hnone _ hphase).1 hv_file
      refine .inr ⟨hnext.pid_eq ▸ hlender, ?_⟩
      have hcome : ∀ path words environment next,
          v.phase ≠ .running (.call (.exec path words environment) next) := by
        intro path words environment next hphase
        obtain ⟨o, ho, heq⟩ := hunready path words environment next hphase
        exact hopened ⟨w, hw, o, hnext.opened ho, heq⟩
      cases hnext with
      | same | ended | called => exact harrivals
      | executed _ _ hphase => exact absurd hphase (hcome _ _ _ _)
      | refused _ hphase => exact absurd hphase (hcome _ _ _ _)
  · rcases hm v hv hfile with hkeeper | ⟨hlender, harrivals⟩
    · exact .inl hkeeper
    · -- a lender does not fork
      obtain ⟨-, ready, hheeds, -⟩ := hlends v.pid hlender
      have hv_heeds := hheeds v hv rfl
      have hnone : v.image = none := by
        cases himage : v.image with
        | none => rfl
        | some image => exact absurd harrivals (hv_heeds.started (by simp [himage]))
      exact (hv_heeds.heeds hnone _ hphase).1.elim
  · have hclear := hlaunching a ha
    exact absurd hfile (by simp [Standing.launched, hclear])

/-! ### A machine in order -/

/-- A machine on which no process id is given twice, and no end is held of a pipe that is still to
be made. -/
structure Sound (m : Machine) : Prop where
  numbered : m.Numbered
  tidy : m.Tidy
  fresh : ∀ file i, file.pipe? = some i → m.pipes.length ≤ i →
    m.HasOpened file ∨ m.Kept file none none

theorem lends_none : m.Lends file none := by
  rintro pid ⟨⟩

/-- A machine without processes is in order. -/
theorem Sound.of_nil (h : m.processes = []) : m.Sound := by
  have hstandings : m.standings = [] := by rw [standings, h, List.map_nil]
  refine ⟨⟨?_, ?_⟩, ?_, fun file i _ _ => .inr ?_⟩
  · rw [hstandings]
    exact List.nodup_nil
  · rw [hstandings]
    exact fun v hv => absurd hv List.not_mem_nil
  · intro p hp
    rw [h] at hp
    exact absurd hp List.not_mem_nil
  · intro p hp
    rw [h] at hp
    exact absurd hp List.not_mem_nil

theorem Advances.sound (h : Advances launching m m') (hm : m.Sound)
    (hlaunching : ∀ a, launching a → ∀ file i, file.pipe? = some i → m'.pipes.length ≤ i →
      a.descriptors.holds file = false) : m'.Sound := by
  refine ⟨h.numbered hm.numbered, h.tidy hm.tidy, fun file i hfile hi => ?_⟩
  rcases hm.fresh file i hfile (Nat.le_trans h.pipes_le hi) with hopened | hkept
  · exact .inl (h.hasOpened hopened)
  · refine h.kept lends_none ?_ (fun a ha => hlaunching a ha file i hfile hi) hkept
    rintro j hj ⟨-, hlt⟩
    obtain rfl : i = j := Option.some.inj (hfile.symm.trans hj)
    omega

/-- Where an open file is that exists: with its keeper and its lender, until it is opened by a
path. -/
structure Custody (m : Machine) (file : OpenFile) (keeper lender : Option Int) : Prop where
  made : ∀ i, file.pipe? = some i → i < m.pipes.length
  lends : m.Lends file lender
  kept : m.HasOpened file ∨ m.Kept file keeper lender

theorem Advances.custody (h : Advances launching m m')
    (hlaunching : ∀ a, launching a → a.descriptors.holds file = false)
    (hm : m.Custody file keeper lender) : m'.Custody file keeper lender := by
  refine ⟨fun i hi => Nat.lt_of_lt_of_le (hm.made i hi) h.pipes_le, h.lends hm.lends, ?_⟩
  rcases hm.kept with hopened | hkept
  · exact .inl (h.hasOpened hopened)
  · refine h.kept hm.lends ?_ hlaunching hkept
    rintro i hi ⟨hle, -⟩
    exact absurd (hm.made i hi) (by omega)

/-! ### Many steps -/

theorem AdvancesMany.tidy (h : AdvancesMany launching m m') (hm : m.Tidy) : m'.Tidy := by
  induction h with
  | refl => exact hm
  | tail _ hstep ih => exact hstep.tidy ih

theorem AdvancesMany.sound (h : AdvancesMany (fun _ => False) m m') (hm : m.Sound) : m'.Sound := by
  induction h with
  | refl => exact hm
  | tail _ hstep ih => exact hstep.sound ih fun a ha => ha.elim

/-- **How a child is to come to its program stays settled.** -/
theorem AdvancesMany.heeds (h : AdvancesMany launching m m') (hpid : pid < m.nextPid)
    (hm : ∀ v ∈ m.standings, v.pid = pid → v.Heeds ready) :
    ∀ v ∈ m'.standings, v.pid = pid → v.Heeds ready := by
  induction h with
  | refl => exact hm
  | tail hmany hstep ih => exact hstep.heeds (Int.lt_of_lt_of_le hpid (AdvancesMany.nextPid_le hmany)) ih

/-- **An end of a pipe stays with its keeper**, whatever happens, until it is opened by a path. -/
theorem AdvancesMany.custody (h : AdvancesMany launching m m')
    (hlaunching : ∀ a, launching a → a.descriptors.holds file = false)
    (hm : m.Custody file keeper lender) : m'.Custody file keeper lender := by
  induction h with
  | refl => exact hm
  | tail _ hstep ih => exact hstep.custody hlaunching ih

/-! ### A child that is started -/

variable {a : Assignment} {keeper' lender' : Option Int}

theorem mem_standings_start {v : Standing} : v ∈ (m.start m.nextPid a).standings ↔
    v ∈ m.standings ∨ v = .launched m.nextPid a m.environment := by
  simp [start, standings, shellChild, Process.standing, Standing.launched]

/-- A child that heeds what is ready when it starts heeds it from then on. -/
theorem Numbered.heeds_start (hm : m.Numbered)
    (ha : (a.run m.environment).Heeds ready (fun _ _ _ => True) a.descriptors []) :
    ∀ v ∈ (m.start m.nextPid a).standings, v.pid = m.nextPid → v.Heeds ready := by
  intro v hv hpid
  rcases mem_standings_start.1 hv with hv | rfl
  · exact absurd hpid (Int.ne_of_lt (hm.lt v hv))
  · refine ⟨by simp [Standing.launched], by simp [Standing.launched], ?_⟩
    rintro - rest ⟨⟩
    exact ha

/-- A child is given an open file to keep it or to lend it. -/
theorem Custody.start (h : m.Custody file keeper lender)
    (hkeeper : ∀ pid, keeper = some pid → keeper' = some pid)
    (hlender : ∀ pid, lender = some pid → lender' = some pid)
    (hlends : (m.start m.nextPid a).Lends file lender')
    (ha : a.descriptors.holds file = true → keeper' = some m.nextPid ∨ lender' = some m.nextPid) :
    (m.start m.nextPid a).Custody file keeper' lender' := by
  have hstart : Advances (fun _ => True) m (m.start m.nextPid a) := start_advances trivial
  refine ⟨h.made, hlends, ?_⟩
  rcases h.kept with hopened | hkept
  · exact .inl (hstart.hasOpened hopened)
  · refine .inr ?_
    rw [kept_iff] at hkept ⊢
    intro v hv hfile
    rcases mem_standings_start.1 hv with hv | rfl
    · rcases hkept v hv hfile with hroot | ⟨hpid, harrivals⟩
      · exact .inl (hkeeper _ hroot)
      · exact .inr ⟨hlender _ hpid, harrivals⟩
    · rcases ha hfile with hroot | hpid
      · exact .inl hroot
      · exact .inr ⟨hpid, rfl⟩

/-! ### The end of a pipe -/

/-- **When the keeper has ended nobody can write.** -/
theorem isWritten_eq_false {held : Descriptors} {i : Nat} (hm : m.Tidy)
    (hkept : m.Kept (.pipeWriter i) (some pid) none) (hheld : held.holds (.pipeWriter i) = false)
    (hended : ∀ p ∈ m.processes, p.root = pid → p.alive = false) :
    m.isWritten held i = false := by
  unfold isWritten isHeld
  rw [hheld, Bool.false_or, List.any_eq_false]
  intro p hp hholds
  rcases hkept p hp hholds with hroot | ⟨hlender, -⟩
  · have hclosed := hm p hp (hended p hp (Option.some.inj hroot).symm)
    simp [hclosed, Descriptors.holds] at hholds
  · cases hlender

/-- A reader of a pipe that nobody can write is told that this is the end. -/
theorem read_eq_nil {held : Descriptors} {p : Process} {fd count i : Nat}
    (hfd : p.descriptors.file? fd = some (.pipeReader i)) (hempty : m.pipe i = [])
    (hwritten : m.isWritten held i = false) : m.read held p fd count = .reply (.ok []) m := by
  simp [read, hfd, hempty, hwritten]

end Machine

end JobShell
