/-
**The file into which a command writes its output.**

A child of the shell opens the file into which its output is redirected before it runs its program,
and it is the first file that the child opens to write it.  So it can be told at any time, from what
the child has opened, through which open file its output goes, if any; and until then nothing that
happens on the machine gives it one but the opening itself.

Main definitions:

* `JobShell.Command.outlets` — the redirections of the output of a command;
* `JobShell.outletOf`, `JobShell.Machine.outlet?` — the open file through which the output of a
  process goes;
* `JobShell.Machine.Rears` — a child of the shell that is to have one;
* `JobShell.Machine.Redirects` — a child opens the file into which its output is redirected.

Main results:

* `JobShell.Machine.step_redirects` — the opening;
* `JobShell.Machine.Rears.act` — **nothing but its own opening gives a child its outlet.**
-/

import JobShell.Proofs.Course
import JobShell.Proofs.Machine.Contents

set_option autoImplicit false

namespace JobShell

open Launching (openMode fileMode)
open Standing (Turn Spared)

/-- The number of an open file of the tree. -/
def OpenFile.number? : OpenFile → Option Nat
  | .opened number => some number
  | _ => none

/-- The redirections of the output of a command. -/
def Command.outlets (c : Command) : List Redirection :=
  c.redirections.filter (·.direction ≠ .input)

theorem Command.mem_outlets {c : Command} {r : Redirection} :
    r ∈ c.outlets ↔ r ∈ c.redirections ∧ r.direction ≠ .input := by
  simp [Command.outlets]

/-- Some of the files have been opened to be written. -/
def Writes (opened : List PathOpening) : Prop := ∃ o ∈ opened, o.how.write = true

/-- The open file of the tree that has been the first to be opened for writing. -/
def outletOf (opened : List PathOpening) : Option Nat :=
  (opened.find? (·.how.write)).bind (·.file.number?)

section

variable {opened more : List PathOpening} {o : PathOpening}

theorem outletOf_append_of_writes (h : Writes opened) :
    outletOf (opened ++ more) = outletOf opened := by
  obtain ⟨first, hfirst⟩ := Option.isSome_iff_exists.1 (List.find?_isSome.2 h)
  rw [outletOf, outletOf, List.find?_append, hfirst]
  rfl

theorem outletOf_append_of_not_writes (h : ¬ Writes opened) :
    outletOf (opened ++ more) = outletOf more := by
  have hnone : opened.find? (·.how.write) = none :=
    List.find?_eq_none.2 fun o ho hwrite => h ⟨o, ho, hwrite⟩
  rw [outletOf, outletOf, List.find?_append, hnone]
  rfl

theorem outletOf_eq_none (h : ¬ Writes opened) : outletOf opened = none := by
  rw [← List.append_nil opened, outletOf_append_of_not_writes h]
  rfl

end

namespace Machine

/-- The open file through which the output of a process goes, if it has been redirected. -/
def outlet? (m : Machine) (pid : Int) : Option Nat :=
  (m.process? pid).bind fun p => outletOf p.opened

variable {m m' : Machine} {pid : Int} {p q : Process} {v w : Standing}

/-- It is told from the standing of the process. -/
theorem outlet?_eq (m : Machine) (pid : Int) :
    m.outlet? pid = (m.standings.find? (·.pid = pid)).bind fun v => outletOf v.opened := by
  rw [outlet?, process?, standings, List.find?_map, Option.bind_map]
  rfl

theorem outlet?_of_mem (hm : m.Numbered) (hv : v ∈ m.standings) :
    m.outlet? v.pid = outletOf v.opened := by
  rw [outlet?_eq]
  cases hfound : m.standings.find? (·.pid = v.pid) with
  | none => simpa using List.find?_eq_none.1 hfound v hv
  | some w =>
      have hpid : w.pid = v.pid := by simpa using List.find?_some hfound
      rw [hm.eq_of_pid (List.mem_of_find?_eq_some hfound) hv hpid]
      rfl

theorem outlet?_of_standings (h : m'.standings = m.standings) (pid : Int) :
    m'.outlet? pid = m.outlet? pid := by
  rw [outlet?_eq, outlet?_eq, h]

theorem outlet?_of_process? (hp : m.process? pid = some p) : m.outlet? pid = outletOf p.opened := by
  rw [outlet?, hp]
  rfl

/-- What a process sees that has a program still to run. -/
theorem Poised.sees {rest : Prog Nat} {s : Scene} (h : m.Poised pid rest s) :
    m.outlet? pid = outletOf s.opened ∧ m.files = s.files ∧ m.openings = s.openings := by
  obtain ⟨p, hp, -, -, rfl⟩ := h
  exact ⟨outlet?_of_process? hp, rfl, rfl⟩

/-! ### The opening -/

/-- **A child opens the file into which its output is redirected**, on a machine that becomes
another one. -/
structure Redirects (m m' : Machine) (pid : Int) (r : Redirection) : Prop where
  direction : r.direction ≠ .input
  before : m.outlet? pid = none
  after : m'.outlet? pid = some m.openings.length
  opened : ∃ n, m'.openings = m.openings ++ [Scene.fresh r.direction n] ∧
    ∀ data, m'.contents? n = some data → data = r.direction.left (m.contents? n)

theorem write_openMode {direction : Direction} :
    (openMode direction).write = true ↔ direction ≠ .input := by
  cases direction <;> decide

/-- **The call that opens the file of a redirection**, by a process that has opened none to write it
before. -/
theorem step_redirects {r : Redirection} {next : Except Errno Nat → Prog Nat}
    (hp : m.process? p.pid = some p)
    (hphase : p.phase = .running (.call (.openPath r.target (openMode r.direction) fileMode) next))
    (hdirection : r.direction ≠ .input) (hwrites : ¬ Writes p.opened) (held : Descriptors) :
    (m.step held p).2.outlet? p.pid = m.outlet? p.pid ∨ m.Redirects (m.step held p).2 p.pid r := by
  have hbefore : m.outlet? p.pid = none := by
    rw [outlet?_of_process? hp, outletOf_eq_none hwrites]
  by_cases hstopped : p.stopped = true
  · left
    unfold step
    rw [hphase]
    dsimp only
    rw [if_pos hstopped]
  replace hstopped : p.stopped = false := by simpa using hstopped
  have hplain : (Call.openPath r.target (openMode r.direction) fileMode).Plain := trivial
  have hperform : m.perform held p (.openPath r.target (openMode r.direction) fileMode) =
      (m.openFor held p r).noting p r.target (openMode r.direction) := rfl
  have hanswered : m.Answered p r (m.openFor held p r) := openPath_answered held r
  rcases hopen : m.openFor held p r with ⟨errno | fd, m₁⟩ | m₁
  · -- the file is not opened
    left
    rw [hopen] at hanswered hperform
    obtain rfl : m₁ = m := hanswered
    have hown : m₁.own p.pid = some p.secluded := congrArg (Option.map Process.secluded) hp
    obtain ⟨m₂, ⟨hp', hstep⟩, hpoised⟩ :=
      Poised.call hplain hp hphase hstopped hperform hown rfl hstopped
    obtain rfl := Option.some.inj (hp.symm.trans hp')
    rw [hstep, hpoised.sees.1, outlet?_of_process? hp]
    rfl
  · -- the file is opened, and it is the first one that the process may write
    rw [hopen, noting_ok] at hperform
    rw [hopen] at hanswered
    obtain ⟨file, files, openings, hgets, hgranted⟩ := hanswered
    have hown := hgranted.own_noted hp r.target (openMode r.direction)
    obtain ⟨m₂, ⟨hp', hstep⟩, hpoised⟩ :=
      Poised.call hplain hp hphase hstopped hperform hown rfl hstopped
    obtain rfl := Option.some.inj (hp.symm.trans hp')
    obtain ⟨houtlet, hfiles, hopenings⟩ := hpoised.sees
    replace houtlet : m₂.outlet? p.pid = file.number? := by
      rw [houtlet]
      change outletOf (p.opened ++ _) = _
      rw [outletOf_append_of_not_writes hwrites]
      simp [outletOf, write_openMode.2 hdirection]
    replace hfiles : m₂.files = files := hfiles.trans hgranted.files
    replace hopenings : m₂.openings = openings := hopenings.trans hgranted.openings
    rw [hstep]
    -- a path can also lead to a pipe or to a stream of the shell, which is no outlet
    cases file with
    | opened number =>
        right
        obtain ⟨rfl, n, hfresh, hleft⟩ := hgets.contents hdirection
        refine ⟨hdirection, hbefore, houtlet, n, hopenings.trans hfresh, fun data hdata => ?_⟩
        rw [contents?, hfiles] at hdata
        exact hleft data hdata
    | _ => exact .inl (houtlet.trans hbefore.symm)
  · -- the process waits
    left
    have hkeeps : Keeps m m₁ := by
      have hopens : Opens m p (m.openFor held p r) := openPath_opens held _ _ _
      rwa [hopen] at hopens
    rw [hopen] at hperform
    rw [step_of_plain hplain hphase hstopped, hperform]
    exact outlet?_of_standings hkeeps.standings _

end Machine

/-! ### A child on its course -/

/-- No call but that for a file adds to the files that have been opened. -/
theorem Call.Affects.opened {pipes pipes' : Nat} {d d' : Descriptors} {c : Call} {reply : c.Reply}
    {opened : List PathOpening} (h : c.Affects pipes pipes' d reply d' opened) :
    opened = [] ∨ ∃ path how mode file, c = .openPath path how mode ∧
      opened = [⟨path, how, file⟩] := by
  cases c with
  | openPath path how mode =>
      rcases (reply : Except Errno Nat) with errno | fd
      · exact .inl h.2
      · obtain ⟨file, -, -, hopened⟩ := h
        exact .inr ⟨path, how, mode, file, rfl, hopened⟩
  | close fd => rcases (reply : Except Errno Unit) with errno | _ <;> exact .inl h.2
  | dup2 old new =>
      rcases (reply : Except Errno Unit) with errno | _
      · exact .inl h.2
      · obtain ⟨file, -, -, hopened⟩ := h
        exact .inl hopened
  | duplicate fd least =>
      rcases (reply : Except Errno Nat) with errno | new
      · exact .inl h.2
      · obtain ⟨file, -, -, hopened⟩ := h
        exact .inl hopened
  | pipe =>
      rcases (reply : Except Errno (Nat × Nat)) with errno | ⟨reader, writer⟩
      · exact .inl h.2
      · obtain ⟨i, -, -, -, hopened⟩ := h
        exact .inl hopened
  | _ => exact .inl h.2

namespace Assignment

variable {a : Assignment} {environment : Environment} {m : Machine} {v w : Standing}
  {deeds done : List Machine.Deed} {pipes pipes' : Nat} {leads : Prop}

/-- What a child may call for that runs no program yet. -/
theorem Course.permits (h : a.Course environment m v deeds) (himage : v.image = none) {c : Call}
    {next : c.Reply → Prog Nat} (hphase : v.phase = .running (.call c next)) :
    c = .setsid ∨
      (∃ e : LaunchError, c = .write 2 e.line ∧ v.descriptors.file? 2 = some .diagnostics) ∨
      a.Permits environment c ⟨⟨v.descriptors, v.opened⟩, deeds⟩ := by
  cases h with
  | fresh _ hphase' =>
      rw [hphase] at hphase'
      exact .inl (Prog.call.inj (Phase.running.inj hphase')).1
  | @underway x _ _ hphase' hx =>
      rw [hphase] at hphase'
      have heq := (Phase.running.inj hphase').symm
      cases x with
      | done e => exact .inr (.inl ⟨e, write_of_complain heq, hx.2⟩)
      | call c' next' =>
          obtain ⟨rfl, -⟩ := Prog.call.inj heq
          exact .inr (.inr hx.1)
  | resolved _ hphase' | failed _ hphase' | killed _ hphase' =>
      rw [hphase] at hphase'
      cases hphase'
  | started hsome =>
      rw [himage] at hsome
      cases hsome

/-- A child that runs its program has opened the files of all redirections. -/
theorem Ready.writes {path : Bytes} {words : List Bytes} {r : Arrival}
    {refusals : List Machine.Deed} (h : a.Ready environment path words r refusals)
    (ha : a.command.outlets ≠ []) : Writes r.opened := by
  obtain ⟨outlet, houtlet⟩ := List.exists_mem_of_ne_nil _ ha
  obtain ⟨hmem, hdirection⟩ := Command.mem_outlets.1 houtlet
  have hpair : (outlet.target, openMode outlet.direction) ∈
      r.opened.map fun o => (o.path, o.how) := by
    rw [h.suits.opened]
    exact List.mem_map_of_mem hmem
  obtain ⟨o, ho, heq⟩ := List.mem_map.1 hpair
  refine ⟨o, ho, ?_⟩
  rw [(Prod.mk.inj heq).2]
  exact Machine.write_openMode.2 hdirection

/-- **A child has its turn.**  It has opened a file to write it before it runs its program, and its
outlet is what it was unless it calls for the file into which its output is redirected. -/
theorem Course.outlet (h : a.Course environment m v deeds) (ha : a.command.outlets ≠ [])
    (hwrites : v.image.isSome = true → Writes v.opened)
    (hturn : Turn pipes pipes' leads v done w) :
    (w.image.isSome = true → Writes w.opened) ∧ (outletOf w.opened = outletOf v.opened ∨
      ¬ Writes v.opened ∧ ∃ r ∈ a.command.outlets, ∃ next : Except Errno Nat → Prog Nat,
        v.phase = .running (.call (.openPath r.target (openMode r.direction) fileMode) next)) := by
  cases hturn with
  | waits | killed | finished | exited => exact ⟨hwrites, .inl rfl⟩
  | refused => exact ⟨by simpa using hwrites, .inl (congrArg outletOf Standing.arrived_opened)⟩
  | @executed path words _ next image rest hphase =>
      refine ⟨fun _ => ?_, .inl (congrArg outletOf Standing.arrived_opened)⟩
      change Writes v.arrived.opened
      rw [Standing.arrived_opened]
      cases himage : v.image with
      | some image => exact hwrites (by rw [himage]; rfl)
      | none =>
          rcases h.permits himage hphase with hcall | ⟨e, hcall, -⟩ | ⟨-, hready⟩
          · cases hcall
          · cases hcall
          · exact hready.writes ha
  | @called c next reply d opened hphase haffects =>
      have hkept : Writes v.opened → Writes (v.opened ++ opened) :=
        fun ⟨o, ho, hwrite⟩ => ⟨o, List.mem_append_left _ ho, hwrite⟩
      refine ⟨fun himage => hkept (hwrites himage), ?_⟩
      change outletOf (v.opened ++ opened) = _ ∨ _
      by_cases hbefore : Writes v.opened
      · exact .inl (outletOf_append_of_writes hbefore)
      rcases haffects.opened with rfl | ⟨path, how, mode, file, rfl, rfl⟩
      · exact .inl (congrArg outletOf (List.append_nil _))
      -- a child that has opened nothing to write it runs no program yet
      have himage : v.image = none := by
        by_contra hsome
        exact hbefore (hwrites (Option.isSome_iff_ne_none.2 hsome))
      rcases h.permits himage hphase with hcall | ⟨e, hcall, -⟩ | ⟨r, hr, rfl, rfl, rfl⟩
      · cases hcall
      · cases hcall
      by_cases hdirection : r.direction = .input
      · left
        rw [outletOf_append_of_not_writes hbefore, outletOf_eq_none hbefore, hdirection]
        rfl
      · exact .inr ⟨hbefore, r, Command.mem_outlets.2 ⟨hr, hdirection⟩, next, hphase⟩

end Assignment

namespace Machine

open Assignment (Course)

variable {a : Assignment} {m m' : Machine} {pid : Int} {acts : List (Int × Deed)}

/-- **A child of the shell is here**, or has been, that has opened a file to write it if it has come
to its program. -/
def Rears (m : Machine) (pid : Int) (a : Assignment) : Prop :=
  ∃ v ∈ m.standings, v.pid = pid ∧ (∃ environment deeds, a.Course environment m v deeds) ∧
    (v.image.isSome = true → Writes v.opened)

/-- **Nothing but its own opening gives a child its outlet.** -/
theorem Rears.act (h : m.Rears pid a) (hable : a.Able) (ha : a.command.outlets ≠ [])
    (hm : m.Grouped) (hact : Act m acts m') :
    m'.Rears pid a ∧ (m'.outlet? pid = m.outlet? pid ∨
      ∃ r ∈ a.command.outlets, m.Redirects m' pid r) := by
  have hm' := hact.grouped hm
  obtain ⟨v, hv, rfl, ⟨environment, deeds, hcourse⟩, hwrites⟩ := h
  rcases hact.cases_of hm hv with
    ⟨p, held, hp, rfl, rfl, -⟩ | ⟨-, ⟨w, hw, hspared⟩, hleads⟩
  · -- it is its own turn
    obtain ⟨w, hw, hturn⟩ := exists_turn hm.numbered hp held
    have hpid : w.pid = p.pid := hturn.next.pid_eq
    obtain ⟨w', hw', hpid', hcourse'⟩ := bears_step hable hcourse hm hp held
    obtain rfl : w' = w := hm'.numbered.eq_of_pid hw' hw (hpid'.trans hpid.symm)
    obtain ⟨hwrites', houtlet⟩ := hcourse.outlet ha hwrites hturn
    refine ⟨⟨w', hw, hpid, ⟨_, _, hcourse'⟩, hwrites'⟩, ?_⟩
    have hbefore : m.outlet? p.pid = outletOf p.opened := outlet?_of_process? hp
    have hafter : (m.step held p).2.outlet? p.pid = outletOf w'.opened :=
      hpid ▸ outlet?_of_mem hm'.numbered hw
    rcases houtlet with houtlet | ⟨hnot, r, hr, next, hphase⟩
    · exact .inl (hafter.trans (houtlet.trans hbefore.symm))
    · exact (step_redirects hp hphase (Command.mem_outlets.1 hr).2 hnot held).imp_right
        fun hredirects => ⟨r, hr, hredirects⟩
  · -- it is spared
    have hbefore : m.outlet? v.pid = outletOf v.opened := outlet?_of_mem hm.numbered hv
    have hafter : m'.outlet? v.pid = outletOf w.opened :=
      hspared.pid_eq ▸ outlet?_of_mem hm'.numbered hw
    have hsame : w.opened = v.opened ∧ w.image = v.image := by
      cases hspared <;> exact ⟨rfl, rfl⟩
    refine ⟨⟨w, hw, hspared.pid_eq, ⟨environment, deeds, hcourse.spared hspared hleads⟩, ?_⟩,
      .inl ?_⟩
    · rw [hsame.1, hsame.2]
      exact hwrites
    · rw [hafter, hsame.1, hbefore]

/-- A child that has just been started has opened nothing. -/
theorem rears_start (hable : a.Able) (hm : m.Grouped) :
    (m.start m.nextPid a).Rears m.nextPid a ∧ (m.start m.nextPid a).outlet? m.nextPid = none := by
  have hmem : Standing.launched m.nextPid a m.environment ∈ (m.start m.nextPid a).standings :=
    mem_standings_start.2 (.inr rfl)
  refine ⟨⟨_, hmem, rfl, ⟨_, _, course_launched hable hm⟩, nofun⟩, ?_⟩
  exact outlet?_of_mem ((Act.start a).grouped hm).numbered hmem

end Machine

end JobShell
