/-
**Outputs accumulate in a file.**

Lines are run one after another, each a single command in the foreground whose output is redirected
into the same file.  The shell waits for the child of each line before it starts the next one, so the
outputs come into the file as they are written in the lines: from the last line that overwrites the
file on, one after another.

Main definitions:

* `JobShell.OutputLine` — a single command in the foreground whose output is redirected once;
* `JobShell.outputsOf` — what has been written for the children;
* `JobShell.Shell.Accumulates` — what is in the file after such lines.

Main results:

* `JobShell.Shell.runForked_goes` — the children of a foreground pipeline, in the record;
* `JobShell.Shell.runOutputLines_goes` — those of the lines, one after another;
* `JobShell.Shell.runLines_accumulates` — **truncating and appending accumulate as written.**
-/

import JobShell.Proofs.Machine.Filling
import JobShell.Proofs.Machine.Forgetting
import JobShell.Proofs.Pipeline.Frame
import JobShell.Proofs.Pipeline.Independence
import JobShell.Proofs.Pipeline.Release

set_option autoImplicit false

namespace JobShell

open Machine (Passage Story)
open Supervisor (Comes Reaches Dispatches Lulls forkedPids)

/-- **A line of a single command in the foreground whose output is redirected once.** -/
structure OutputLine where
  text : Bytes
  command : Command
  outlet : Redirection
  parsed : parse text >>= Line.validate = .ok [⟨[command], false⟩]
  once : command.outlets = [outlet]

namespace Shell

variable {s t : Shell Watched} {stdin : OpenFile}

/-! ### The children of a pipeline -/

/-- A pipeline that comes to its end has forked somebody. -/
theorem runForked_forkedPids_ne {p : Pipeline} {s t : Shell Machine} (hbuiltin : p.builtin? = none)
    (hp : p.commands ≠ []) (hs : s.Poised) (hrun : (runForked p).run s = (.ok (), t)) :
    forkedPids t.journal ≠ forkedPids s.journal := by
  intro hsame
  obtain ⟨events, hevents, horderly⟩ :=
    runForked_orderly hbuiltin hp hs.accounted hs.foreground hrun
  replace hevents : t.journal = s.journal ++ events := hevents
  rw [hevents, Supervisor.forkedPids_append] at hsame
  have hnone := List.append_cancel_left (hsame.trans (List.append_nil _).symm)
  rw [← lives_pids, List.map_eq_nil_iff] at hnone
  have hstages := horderly.stages hbuiltin rfl
  rw [hnone] at hstages
  have hlength := congrArg List.length hstages
  have hpositive := List.length_pos_iff.2 hp
  simp only [List.map_nil, List.length_nil, List.length_replicate] at hlength
  omega

/-- A shell that has come to the end of a pipeline is between two pipelines. -/
theorem Poised.runForked {p : Pipeline} {s t : Shell Machine} (hbuiltin : p.builtin? = none)
    (hs : s.Poised) (hrun : (runForked p).run s = (.ok (), t)) :
    Reaches (fun _ => True) s.toSupervisor t.toSupervisor ∧ t.Poised := by
  have hreaches : Reaches (fun _ => True) s.toSupervisor t.toSupervisor :=
    Supervisor.Proceeds.reaches ((runForked_proceeds p fun _ _ => trivial).run hrun)
  obtain ⟨hregistered, hgrouped, -, -⟩ := hreaches.attests hs.registered hs.grouped
  have hclear := runPipeline_clear p s hs.foreground
  rw [runPipeline_eq hbuiltin, hrun] at hclear
  exact ⟨hreaches, {
    accounted := Reaches.keeps hreaches (fun _ _ => Supervisor.Moves.accounted) hs.accounted
    registered := hregistered
    grouped := hgrouped
    foreground := hclear }⟩

/-- **The children of a foreground pipeline** are in the record, one for each command, and all of them
have ended when the shell goes on. -/
theorem runForked_goes {p : Pipeline} (hbuiltin : p.builtin? = none) (hp : p.commands ≠ [])
    (hforeground : p.background = false) (hs : s.bare.Poised)
    (hfile : s.descriptors.file? 0 = some stdin)
    (hdiagnostics : s.descriptors.file? 2 = some .diagnostics)
    (hrun : (runForked p).run s = (.ok (), t)) :
    t.bare.Poised ∧ ∃ children, Watched.Goes children s.host t.host ∧
      children.map (·.2.command) = p.commands ∧
        ∀ c ∈ children, c.2.Able ∧ t.host.machine.IsOver c.1 := by
  have hbare : (runForked p).run s.bare = (.ok (), t.bare) := by
    rw [runForked_forgets p s, hrun]
  obtain ⟨hreaches, hpoised⟩ := hs.runForked hbuiltin hbare
  have hlaunched := runForked_all_or_none (p := p) (fun _ _ => rfl)
    (Supervisor.accounted_of_bare hs.accounted) hfile s rfl
  rw [hrun] at hlaunched
  -- a pipeline that launches nobody does not come to its end
  rcases hlaunched with hnone | ⟨v, pipes, pids, u, hv, hlength, hdispatches, hcomes⟩
  · exact absurd hnone (runForked_forkedPids_ne hbuiltin hp hs hbare)
  replace hcomes : Reaches (fun _ => False) u t.toSupervisor := hcomes
  have hcount : p.commands.length = pipes.length + 1 := by
    have hpositive := List.length_pos_iff.2 hp
    omega
  have hcommands : (p.seated s.descriptors s.place stdin pipes).map (·.command) = p.commands :=
    Seat.command_assignAll (Nat.le_of_eq (by rw [Descriptors.length_seats, hcount]))
  have henrolled := (enrolls_of_dispatches hlength hdispatches).enrolled
  have hforked : forkedPids t.journal = forkedPids s.journal ++ pids := by
    rw [Comes.forkedPids (r := .ok ()) hcomes, henrolled.forked, hv.untouched.forked]
  have hable : ∀ a ∈ p.seated s.descriptors s.place stdin pipes, a.Able :=
    p.seated_able hcount (Option.isSome_of_eq_some hfile) hdiagnostics
  generalize p.seated s.descriptors s.place stdin pipes = as at *
  have hlengths : pids.length = as.length := by
    rw [henrolled.length, ← hcommands, List.length_map]
  -- before, during and after the launch
  have hbefore : Reaches (fun _ => False) s.toSupervisor v :=
    Relation.ReflTransGen.mono (fun _ _ hlull => hlull.moves _) _ _ hv
  obtain ⟨hregistered, -⟩ := hbefore.goes hs.registered
  obtain ⟨hregistered', hgoes⟩ := hdispatches.goes hregistered
  have hwhole := ((hbefore.goes_alone hs.registered).trans hgoes).trans
    (hcomes.goes_alone hregistered')
  rw [List.nil_append, List.append_nil] at hwhole
  refine ⟨hpoised, pids.zip as, hwhole, ?_, ?_⟩
  · have hassignments : (pids.zip as).map Prod.snd = as :=
      List.map_snd_zip (Nat.le_of_eq hlengths.symm)
    calc (pids.zip as).map (·.2.command)
      _ = ((pids.zip as).map Prod.snd).map (·.command) := List.map_map.symm
      _ = p.commands := by rw [hassignments, hcommands]
  · rintro ⟨pid, a⟩ hc
    obtain ⟨hpid, ha⟩ := List.of_mem_zip hc
    obtain ⟨ending, -, hended⟩ := runForked_died hbuiltin hp hs hbare hforeground hreaches hforked
      pid hpid
    exact ⟨hable a ha, ending, hended⟩

/-! ### Lines, one after another -/

theorem runLines_cons_eq_ok {σ : Type} [Host σ] {text : Bytes} {texts : List Bytes}
    {s t : Shell σ} (hrun : (runLines (text :: texts)).run s = (.ok (), t)) :
    ∃ u, (runLine text).run s = (.ok (), u) ∧ (runLines texts).run u = (.ok (), t) := by
  rw [runLines, run_bind] at hrun
  generalize (runLine text).run s = outcome at hrun ⊢
  rcases outcome with ⟨_ | ⟨⟩, u⟩
  · cases hrun
  · exact ⟨u, rfl, hrun⟩

theorem runLines_eq_ok {σ : Type} [Host σ] {texts : List Bytes} {s : Shell σ}
    (hok : ((runLines texts).run s).1 = .ok ()) :
    (runLines texts).run s = (.ok (), ((runLines texts).run s).2) := Prod.ext hok rfl

end Shell

namespace OutputLine

variable {σ : Type} [Host σ] {s t : Shell σ}

/-- The pipeline of the line. -/
def pipeline (l : OutputLine) : Pipeline := ⟨[l.command], false⟩

/-- It is not run in the shell. -/
theorem builtin?_eq_none (l : OutputLine) : l.pipeline.builtin? = none := by
  rw [← Option.not_isSome_iff_eq_none, Pipeline.builtin?_isSome_iff]
  rintro ⟨command, hcommand, hplain, -⟩
  obtain rfl : l.command = command := List.head_eq_of_cons_eq hcommand
  have honce := l.once
  rw [Command.outlets, hplain] at honce
  cases honce

/-- The line is run by a child. -/
theorem runForked_of_runLine (l : OutputLine) (hrun : (Shell.runLine l.text).run s = (.ok (), t)) :
    (Shell.runForked l.pipeline).run s = (.ok (), t) := by
  rw [Shell.runLine, l.parsed] at hrun
  change (Shell.execute [l.pipeline]).run s = _ at hrun
  rw [Shell.execute_cons, Shell.andThen, Shell.runPipeline_eq l.builtin?_eq_none] at hrun
  generalize (Shell.runForked l.pipeline).run s = outcome at hrun ⊢
  rcases outcome with ⟨_ | ⟨⟩, u⟩
  · cases hrun
  · simpa [Shell.execute_nil] using hrun

/-! ### What the lines make of the bytes in a file -/

/-- What the line leaves of the bytes. -/
theorem left_eq (l : OutputLine) (old : Option Bytes) :
    l.command.left old = l.outlet.direction.left old := by
  rw [Command.left, l.once]

/-- Lines that append add their outputs. -/
theorem accumulated_append {lines : List OutputLine} {outputs : List Bytes} (old : Bytes)
    (happend : ∀ l ∈ lines, l.outlet.direction = .append)
    (hlength : outputs.length = lines.length) :
    accumulated (some old) ((lines.map (·.command)).zip outputs) =
      some (old ++ outputs.flatten) := by
  induction lines generalizing old outputs with
  | nil =>
      obtain rfl := List.length_eq_zero_iff.1 hlength
      simp [accumulated]
  | cons l lines ih =>
      obtain ⟨output, rest, rfl⟩ := List.exists_cons_of_length_eq_add_one hlength
      rw [List.forall_mem_cons] at happend
      have hleft : l.command.left (some old) = old := by
        rw [l.left_eq, happend.1]
        rfl
      calc accumulated (some old) (((l :: lines).map (·.command)).zip (output :: rest))
        _ = accumulated (some (l.command.left (some old) ++ output))
              ((lines.map (·.command)).zip rest) := rfl
        _ = some (old ++ output ++ rest.flatten) := by
            rw [hleft, ih (old ++ output) happend.2 (Nat.succ.inj hlength)]
        _ = some (old ++ (output :: rest).flatten) := by rw [List.flatten_cons, List.append_assoc]

/-- **A line, and lines after it that append.** -/
theorem accumulated_cons {l : OutputLine} {after : List OutputLine} {outputs : List Bytes}
    (old : Option Bytes) (happend : ∀ l' ∈ after, l'.outlet.direction = .append)
    (hlength : outputs.length = after.length + 1) :
    accumulated old (((l :: after).map (·.command)).zip outputs) =
      some (l.outlet.direction.left old ++ outputs.flatten) := by
  obtain ⟨output, rest, rfl⟩ := List.exists_cons_of_length_eq_add_one hlength
  calc accumulated old (((l :: after).map (·.command)).zip (output :: rest))
    _ = accumulated (some (l.command.left old ++ output))
          ((after.map (·.command)).zip rest) := rfl
    _ = some (l.outlet.direction.left old ++ output ++ rest.flatten) := by
        rw [accumulated_append _ happend (Nat.succ.inj hlength), l.left_eq]
    _ = some (l.outlet.direction.left old ++ (output :: rest).flatten) := by
        rw [List.flatten_cons, List.append_assoc]

end OutputLine

/-- **The children of the lines** come one after another, and all have ended when the shell is done. -/
theorem Shell.runOutputLines_goes (lines : List OutputLine) {s t : Shell Watched} {stdin : OpenFile}
    (hs : s.bare.Poised) (hfile : s.descriptors.file? 0 = some stdin)
    (hdiagnostics : s.descriptors.file? 2 = some .diagnostics)
    (hrun : (runLines (lines.map (·.text))).run s = (.ok (), t)) :
    ∃ xs, t.host.moments = s.host.moments ++ xs ∧ s.host.machine.Passage xs t.host.machine ∧
      OneByOne xs ∧ (started xs).map (·.2.command) = lines.map (·.command) ∧
        ∀ c ∈ started xs, c.2.Able ∧ t.host.machine.IsOver c.1 := by
  induction lines generalizing s with
  | nil =>
      cases hrun
      exact ⟨[], (List.append_nil _).symm, .nil, by simp [OneByOne], rfl, nofun⟩
  | cons l lines ih =>
      obtain ⟨u, hline, hrest⟩ := runLines_cons_eq_ok hrun
      have hforked := l.runForked_of_runLine hline
      obtain ⟨hpoised, children, ⟨xs, hxs, hpassage, hstarted⟩, hcommands, hchildren⟩ :=
        runForked_goes l.builtin?_eq_none (List.cons_ne_nil _ _) rfl hs hfile hdiagnostics hforked
      have hdescriptors : u.descriptors = s.descriptors := by
        have hkept := runPipeline_descriptors l.pipeline s
        rwa [runPipeline_eq l.builtin?_eq_none, hforked] at hkept
      obtain ⟨ys, hys, hpassage', hone, hcommands', hchildren'⟩ :=
        ih hpoised (hdescriptors ▸ hfile) (hdescriptors ▸ hdiagnostics) hrest
      have hgrouped : u.host.machine.Grouped := hpoised.grouped
      subst hstarted
      -- the child of this line has ended when the others are started
      obtain ⟨c, hc⟩ : ∃ c, started xs = [c] := by
        rw [← List.length_eq_one_iff, ← List.length_map (·.2.command), hcommands]
        rfl
      refine ⟨xs ++ ys, by rw [hys, hxs, List.append_assoc], hpassage.trans hpassage',
        (OneByOne.of_one hc).append hone hgrouped hpassage' fun c hc => (hchildren c hc).2, ?_, ?_⟩
      · rw [started_append, List.map_append, hcommands, hcommands']
        rfl
      · rw [started_append]
        intro c hc
        rcases List.mem_append.1 hc with hc | hc
        · obtain ⟨hable, hover⟩ := hchildren c hc
          exact ⟨hable, hover.passage hgrouped hpassage'⟩
        · exact hchildren' c hc

/-- What has been written for the children, the earliest first. -/
def outputsOf (xs : List Moment) : List Bytes := (started xs).map fun c => outputOf c.1 xs

namespace Shell

/-- **What lines leave in a file** into which their outputs are redirected, when a shell has run them
from `s` to `t`, with the moments of the run. -/
structure Accumulates (n : Nat) (lines : List OutputLine) (s t : Shell Machine)
    (xs : List Moment) : Prop where
  passage : s.host.Passage xs t.host
  /-- A child is started for each line, and for nothing else. -/
  commands : (started xs).map (·.2.command) = lines.map (·.command)
  /-- If no line overwrites the file, all outputs are added to what there was, in order. -/
  appended : lines ≠ [] → (∀ l ∈ lines, l.outlet.direction = .append) →
    t.host.contents? n = some ((s.host.contents? n).getD [] ++ (outputsOf xs).flatten)
  /-- Otherwise the file holds the outputs from the last line on that overwrites it, in order. -/
  overwritten : ∀ before l after, lines = before ++ l :: after → l.outlet.direction = .output →
    (∀ l' ∈ after, l'.outlet.direction = .append) →
      t.host.contents? n = some ((outputsOf xs).drop before.length).flatten
  /-- Nothing is written for a child whose program is not run. -/
  unexecuted : ∀ c ∈ started xs, (∀ p ∈ t.host.processes, p.pid = c.1 → p.image = none) →
    outputOf c.1 xs = []
  /-- When a line's child is started those of the lines before it have ended, and nothing is written
  for them any more. -/
  apart : ∀ before x after, xs = before ++ x :: after → x.start?.isSome → ∀ c ∈ started before,
    x.before.IsOver c.1 ∧ outputOf c.1 (x :: after) = []

/-- **Truncating and appending accumulate as written.**  A shell on a machine, between two pipelines,
runs any number of lines, each a single command in the foreground whose output is redirected once, and
comes to the end of them.  The child of each line gets as far as opening the file, the one with the
number `n`, for its output; the file is written in no other way than through these openings, by who
descends from the children, and by nobody any more when the child has ended.  It may be there before
or not.

Then the file holds the outputs of the lines in order, from the last one on that overwrites it, or
after what it held before if there is none.  The output of a line is empty if its program is not run.
No line comes to the file before the one before it has finished. -/
theorem runLines_accumulates {lines : List OutputLine} {s t : Shell Machine} {stdin : OpenFile}
    {n : Nat} (hs : s.Poised) (hroots : s.host.Rooted)
    (hstdin : s.descriptors.file? 0 = some stdin)
    (hdiagnostics : s.descriptors.file? 2 = some .diagnostics)
    (hrun : (runLines (lines.map (·.text))).run s = (.ok (), t))
    (hreserved : Reserved n (s.moments (lines.map (·.text)))) :
    Accumulates n lines s t (s.moments (lines.map (·.text))) := by
  -- the moments are those of a run with a record, which is the same run
  obtain ⟨w, hwatched, rfl, hmoments⟩ := runLines_watched hrun
  obtain ⟨xs, hxs, hpassage, hone, hcommands, hchildren⟩ :=
    runOutputLines_goes lines (s := s.watched) hs hstdin hdiagnostics hwatched
  replace hxs : w.host.moments = xs := hxs
  rw [← hmoments, hxs] at hreserved ⊢
  replace hpassage : s.host.Passage xs w.bare.host := hpassage
  have hfilling : Filling n s.host xs w.bare.host := {
    toReserved := hreserved
    passage := hpassage
    grouped := hs.grouped
    able := fun c hc => (hchildren c hc).1
    once := by
      intro c hc
      have hmem : c.2.command ∈ lines.map (·.command) := hcommands ▸ List.mem_map_of_mem hc
      obtain ⟨l, -, hl⟩ := List.mem_map.1 hmem
      exact ⟨l.outlet, hl ▸ l.once⟩
    oneByOne := hone }
  have hlength : (outputsOf xs).length = lines.length := by
    rw [outputsOf, List.length_map, ← List.length_map (·.2.command), hcommands, List.length_map]
  have hcontents : w.bare.host.contents? n =
      accumulated (s.host.contents? n) ((lines.map (·.command)).zip (outputsOf xs)) := by
    rw [hfilling.contents, ← hcommands, outputsOf, List.zip_map']
  refine ⟨hpassage, hcommands, fun hlines happend => ?_, ?_, fun c => hfilling.unexecuted hroots, ?_⟩
  · obtain ⟨l, after, rfl⟩ := List.exists_cons_of_ne_nil hlines
    rw [List.forall_mem_cons] at happend
    rw [hcontents, OutputLine.accumulated_cons _ happend.2 hlength, happend.1]
    rfl
  · rintro before l after rfl hoverwrites happend
    have hafter : ((outputsOf xs).drop before.length).length = after.length + 1 := by
      rw [List.length_drop, hlength, List.length_append, List.length_cons]
      omega
    have hbefore : (before.map (·.command)).length = ((outputsOf xs).take before.length).length := by
      rw [List.length_map, List.length_take, hlength, List.length_append]
      omega
    -- whatever the lines before have left, this one starts from nothing
    rw [hcontents, ← List.take_append_drop before.length (outputsOf xs), List.map_append,
      List.zip_append hbefore, accumulated_append, OutputLine.accumulated_cons _ happend hafter,
      hoverwrites]
    simp [Direction.left]
  · rintro before x after rfl hstart c hc
    exact ⟨hone before x after rfl hstart c hc, hfilling.settled hstart hc⟩

/-- A shell as `orderly`, with a file to work with. -/
def stocked : Shell Machine :=
  let put := Installation.Entry.install orderly.place (utf8 "f") (.file (utf8 "old") 0o644)
  { orderly with host := { orderly.host with files := put orderly.host.files } }

theorem stocked_poised : stocked.Poised := .initial rfl rfl rfl (by decide) (by decide)

theorem stocked_rooted : stocked.host.Rooted := List.forall_mem_nil _

/-- Lines of which the first overwrites a file, the second has no program, and the third appends. -/
def accumulating : List OutputLine :=
  [⟨utf8 "echo a > f", ⟨utf8 "echo", [utf8 "a"], [⟨.output, utf8 "f"⟩]⟩, ⟨.output, utf8 "f"⟩,
      by decide, by decide⟩,
    ⟨utf8 "nosuch >> f", ⟨utf8 "nosuch", [], [⟨.append, utf8 "f"⟩]⟩, ⟨.append, utf8 "f"⟩,
      by decide, by decide⟩,
    ⟨utf8 "echo b >> f", ⟨utf8 "echo", [utf8 "b"], [⟨.append, utf8 "f"⟩]⟩, ⟨.append, utf8 "f"⟩,
      by decide, by decide⟩]

/-- Three outputs, one of them empty, in a file that was there before. -/
theorem runLines_accumulates_three :
    ((runLines (accumulating.map (·.text))).run stocked).1 = .ok () ∧
      Accumulates 65 accumulating stocked ((runLines (accumulating.map (·.text))).run stocked).2
        (stocked.moments (accumulating.map (·.text))) ∧
      ((runLines (accumulating.map (·.text))).run stocked).2.host.contents? 65 =
        some (utf8 "a\nb\n") := by
  have hok : ((runLines (accumulating.map (·.text))).run stocked).1 = .ok () := by decide +kernel
  have hreserved : Reserved 65 (stocked.moments (accumulating.map (·.text))) := by decide +kernel
  exact ⟨hok, runLines_accumulates stocked_poised stocked_rooted rfl rfl (runLines_eq_ok hok)
    hreserved, by decide +kernel⟩

/-- A line that overwrites a file, but not before it has tried to open another one. -/
def hesitant : OutputLine :=
  ⟨utf8 "cat < missing > f", ⟨utf8 "cat", [], [⟨.input, utf8 "missing"⟩, ⟨.output, utf8 "f"⟩]⟩,
    ⟨.output, utf8 "f"⟩, by decide, by decide⟩

/-- A line whose child does not get as far as opening the file: it may be written and nobody else
writes it, but it is not overwritten. -/
theorem runLines_not_accumulates :
    ¬ ∀ (lines : List OutputLine) (s t : Shell Machine) (stdin : OpenFile) (n : Nat), s.Poised →
      s.host.Rooted → s.descriptors.file? 0 = some stdin →
      s.descriptors.file? 2 = some .diagnostics →
      (s.host.contents? n).isSome → s.host.files.grants n .write = true →
      (∀ l ∈ lines, s.host.files.find s.place l.outlet.target true = .ok n) →
      (runLines (lines.map (·.text))).run s = (.ok (), t) →
      (∀ x ∈ s.moments (lines.map (·.text)),
        x.Respects n ((started (s.moments (lines.map (·.text)))).map Prod.fst)) →
      Accumulates n lines s t (s.moments (lines.map (·.text))) := by
  intro h
  have hok : ((runLines ([hesitant].map (·.text))).run stocked).1 = .ok () := by decide +kernel
  have hrespects : ∀ x ∈ stocked.moments ([hesitant].map (·.text)),
      x.Respects 65 ((started (stocked.moments ([hesitant].map (·.text)))).map Prod.fst) := by
    decide +kernel
  have haccumulates := h [hesitant] stocked _ _ 65 stocked_poised stocked_rooted rfl rfl
    (by decide +kernel) (by decide +kernel) (by decide +kernel) (runLines_eq_ok hok) hrespects
  have hcontents := haccumulates.overwritten [] hesitant [] rfl rfl (List.forall_mem_nil _)
  have hdiffers : ((runLines ([hesitant].map (·.text))).run stocked).2.host.contents? 65 ≠
      some ((outputsOf (stocked.moments ([hesitant].map (·.text)))).drop 0).flatten := by
    decide +kernel
  exact hdiffers hcontents

end Shell

end JobShell
