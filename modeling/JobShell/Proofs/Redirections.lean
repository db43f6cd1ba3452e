/-
**Redirections, from the first one on up to one that fails.**

A child opens the files of its redirections in the order in which they are written, each in the
scene that those before it have left.  The first that is refused ends the child: what those before
it have done stays, those after it are not looked at, and one line of diagnostics names the target.
If none is refused the child comes to its program.  One more thing can happen: a file that is a
fifo which nobody has open at its other end keeps the child waiting.

Main definitions:

* `JobShell.Scene.Redirected` — redirections that have been opened one after the other;
* `JobShell.Scene.Follows` — what they leave of the files;
* `JobShell.Machine.Refuses`, `JobShell.Machine.Detains` — a redirection that fails, and one that
  has to wait;
* `JobShell.Assignment.Ends` — what becomes of the child after the redirections that succeed.

Main results:

* `JobShell.Scene.Gets.follows`, `JobShell.Scene.Redirected.follows` — one redirection, and a list
  of them;
* `JobShell.Launching.redirectAll_runs` — a list is worked off up to the first that fails;
* `JobShell.Assignment.run_redirects` — the child as a whole.
-/

import JobShell.Proofs.Diagnostics
import JobShell.Proofs.Launch
import JobShell.Proofs.Machine.Alone

set_option autoImplicit false

namespace JobShell

open Launching (openMode standard fileMode)

/-! ### What redirections leave -/

namespace Scene

variable {s s' s₀ : Scene} {r : Redirection} {rs : List Redirection} {file : OpenFile}
  {files : FileSystem} {openings : List Opening} {base : Descriptors} {source sink : OpenFile}

/-- The file of a redirection has been opened and stands in place of its standard stream. -/
def redirected (s : Scene) (r : Redirection) (file : OpenFile) (files : FileSystem)
    (openings : List Opening) : Scene :=
  { s with
    files := files
    openings := openings
    descriptors := s.descriptors.assign (standard r.direction) file
    opened := s.opened ++ [⟨r.target, openMode r.direction, file⟩] }

/-- **Redirections one after the other**, each opened in the scene that those before it have
left. -/
inductive Redirected : Scene → List Redirection → Scene → Prop where
  | nil (s : Scene) : Redirected s [] s
  | cons {s s' : Scene} {r : Redirection} {rs : List Redirection} {file : OpenFile}
      {files : FileSystem} {openings : List Opening} :
      s.Gets r file files openings → Redirected (s.redirected r file files openings) rs s' →
        Redirected s (r :: rs) s'

/-- The file of a number has been opened to be written from its start. -/
def Overwrites (s : Scene) (n : Nat) : Prop :=
  ∃ o ∈ s.opened, o.how = openMode .output ∧
    ∃ number opening, o.file = .opened number ∧ s.openings[number]? = some opening ∧
      opening.node = n

/-- **What redirections leave of the files.**  The files that were there keep their permissions,
and what is stored in them unless they were to be written from their start; those are empty.  A new
file is empty and has the permissions of a new file. -/
structure Follows (s s' : Scene) : Prop where
  output : s'.output = s.output
  diagnostics : s'.diagnostics = s.diagnostics
  image : s'.image = s.image
  arrivals : s'.arrivals = s.arrivals
  mask : s'.mask = s.mask
  isOpen : ∀ o ∈ s'.opened, ∀ number, o.file = .opened number → (s'.openings[number]?).isSome
  kept : ∀ n node, s.files.node? n = some node → ∃ node', s'.files.node? n = some node' ∧
    node'.mode = node.mode ∧ ∀ data, node.content = .file data →
      node'.content = .file data ∨ node'.content = .file [] ∧ s'.Overwrites n
  made : ∀ n node, s.files.node? n = none → s'.files.node? n = some node →
    node = { content := .file [], mode := fileMode &&& (0o7777 ^^^ s.mask) } ∨
      ∃ process item, node.content = .account process item
  emptied : ∀ n node data, s'.Overwrites n → s'.files.node? n = some node →
    node.content = .file data → data = []

/-- Before the first redirection. -/
theorem Follows.refl (hopened : s.opened = []) : s.Follows s where
  output := rfl
  diagnostics := rfl
  image := rfl
  arrivals := rfl
  mask := rfl
  isOpen o ho := by
    rw [hopened] at ho
    cases ho
  kept n node hnode := ⟨node, hnode, rfl, fun data hdata => .inl hdata⟩
  made n node hnone hnode := by
    rw [hnone] at hnode
    cases hnode
  emptied n node data hover := by
    obtain ⟨o, ho, -⟩ := hover
    rw [hopened] at ho
    cases ho

/-! ### One redirection -/

section Gets

variable {n : Nat} {node : FileSystem.Node}

/-- A file that is to be written from its start is empty. -/
theorem Obtains.empty (h : s.Obtains r n files) (hdirection : r.direction = .output)
    (hnode : files.node? n = some node) {data : Bytes} (hcontent : node.content = .file data) :
    data = [] := by
  have hreadied : ∀ {n files}, s.files.Readied n r.direction files →
      files.node? n = some node → data = [] := by
    intro n files hreadied hnode
    rw [hdirection] at hreadied
    cases hreadied with
    | kept hkept => exact absurd hcontent (hkept rfl node data hnode)
    | emptied hnode₁ _ =>
        rw [FileSystem.node?_setNode hnode₁, if_pos rfl] at hnode
        obtain rfl := Option.some.inj hnode
        cases hcontent
        rfl
  cases h with
  | again _ _ _ h => exact hreadied h hnode
  | found _ _ h => exact hreadied h hnode
  | made hpath hne hlacks hmake =>
      have hnone : s.files.node? n = none := by
        obtain ⟨rfl, -⟩ := Prod.mk.inj hmake
        exact List.getElem?_eq_none (Nat.le_refl _)
      obtain rfl := Obtains.new (.made hpath hne hlacks hmake) hnone hnode
      cases hcontent
      rfl

/-- The open files of the machine stay open. -/
theorem Gets.stays_open (h : s.Gets r file files openings) {number : Nat} {o : Opening}
    (ho : s.openings[number]? = some o) : openings[number]? = some o := by
  have hlt : number < s.openings.length := (List.getElem?_eq_some_iff.1 ho).1
  cases h with
  | file | account => rwa [List.getElem?_append_left hlt]
  | fifo | pipe | stream => exact ho

/-- A file that is empty stays so. -/
theorem Leaves.empty {direction : Direction} {n' : Nat} {node' : FileSystem.Node}
    (h : Leaves direction n' n node node')
    (hempty : ∀ data, node.content = .file data → data = []) {data : Bytes}
    (hcontent : node'.content = .file data) : data = [] := by
  cases h with
  | same => exact hempty data hcontent
  | emptied =>
      cases hcontent
      rfl
  | named => cases hcontent

/-- A file that is new is left as it is. -/
theorem Leaves.made {direction : Direction} {n' mode : Nat} {node' : FileSystem.Node}
    (h : Leaves direction n' n node node')
    (hmade : node = { content := .file [], mode := mode } ∨
      ∃ process item, node.content = .account process item) :
    node' = { content := .file [], mode := mode } ∨
      ∃ process item, node'.content = .account process item := by
  cases h with
  | same => exact hmade
  | emptied _ _ hcontent =>
      rcases hmade with rfl | ⟨process, item, hmade⟩
      · exact .inl rfl
      · rw [hmade] at hcontent
        cases hcontent
  | named _ _ hdirectory =>
      rcases hmade with rfl | ⟨process, item, hmade⟩
      · cases hdirectory
      · rw [hmade] at hdirectory
        cases hdirectory

/-- What is left of a file that was there. -/
theorem Gets.leaves (h : s.Gets r file files openings) (hnode : s.files.node? n = some node) :
    ∃ node', files.node? n = some node' ∧ ∃ n', Leaves r.direction n' n node node' ∧
      (n' = n → r.direction = .output → ∀ data, node'.content = .file data →
        file = .opened s.openings.length ∧ openings = s.openings ++ [fresh .output n]) := by
  cases h with
  | @file n' _ hobtains _ =>
      obtain ⟨node', hnode', hleaves⟩ := hobtains.leaves hnode
      refine ⟨node', hnode', n', hleaves, ?_⟩
      rintro rfl hdirection data -
      rw [hdirection]
      exact ⟨rfl, rfl⟩
  | @fifo n' i node₁ _ hobtains hnode₁ hcontent =>
      obtain ⟨node', hnode', hleaves⟩ := hobtains.leaves hnode
      refine ⟨node', hnode', n', hleaves, ?_⟩
      rintro rfl - data hdata
      obtain rfl : node₁ = node' := Option.some.inj (hnode₁.symm.trans hnode')
      rw [hcontent] at hdata
      cases hdata
  | pipe | stream => exact ⟨node, hnode, n + 1, .same, fun h => absurd h (Nat.succ_ne_self n)⟩
  | account =>
      exact ⟨node, FileSystem.node?_add hnode _, n + 1, .same,
        fun h => absurd h (Nat.succ_ne_self n)⟩

/-- A file that was not there. -/
theorem Gets.new (h : s.Gets r file files openings) (hnone : s.files.node? n = none)
    (hnode : files.node? n = some node) :
    node = { content := .file [], mode := fileMode &&& (0o7777 ^^^ s.mask) } ∨
      ∃ process item, node.content = .account process item := by
  cases h with
  | file hobtains _ => exact .inl (hobtains.new hnone hnode)
  | fifo hobtains _ _ => exact .inl (hobtains.new hnone hnode)
  | pipe | stream =>
      rw [hnone] at hnode
      cases hnode
  | @account _ _ process item =>
      have hlt := (List.getElem?_eq_some_iff.1 hnode).1
      have hle : s.files.nodes.length ≤ n := List.getElem?_eq_none_iff.1 hnone
      obtain rfl : n = s.files.nodes.length := by
        simp only [FileSystem.add, List.length_append, List.length_singleton] at hlt
        omega
      rw [FileSystem.node?_add_length] at hnode
      obtain rfl := Option.some.inj hnode
      exact .inr ⟨process, item, rfl⟩

/-- What is written from its start is empty. -/
theorem Gets.empty (h : s.Gets r file files openings) (hdirection : r.direction = .output)
    {number : Nat} {o : Opening} (hfile : file = .opened number)
    (ho : openings[number]? = some o) (hnode : files.node? o.node = some node) {data : Bytes}
    (hcontent : node.content = .file data) : data = [] := by
  cases h with
  | file hobtains _ =>
      cases hfile
      obtain rfl : fresh r.direction _ = o := by simpa using ho
      exact hobtains.empty hdirection hnode hcontent
  | fifo | pipe =>
      rw [hdirection] at hfile
      cases hfile
  | stream _ _ hstream =>
      rcases hstream with rfl | rfl <;> cases hfile
  | account hinput =>
      rw [hinput] at hdirection
      cases hdirection

/-- What has been written from its start stays so. -/
theorem Gets.overwrites (h : s.Gets r file files openings) (hover : s.Overwrites n) :
    (s.redirected r file files openings).Overwrites n := by
  obtain ⟨o, ho, hhow, number, opening, hfile, hopening, hn⟩ := hover
  exact ⟨o, List.mem_append_left _ ho, hhow, number, opening, hfile, h.stays_open hopening, hn⟩

/-- What is written from its start has been so before, or is the file of this redirection. -/
theorem Gets.overwrites_cases (h : s.Gets r file files openings) (hs : ∀ o ∈ s.opened,
      ∀ number, o.file = .opened number → (s.openings[number]?).isSome)
    (hover : (s.redirected r file files openings).Overwrites n) :
    s.Overwrites n ∨ r.direction = .output ∧ ∃ number o, file = .opened number ∧
      openings[number]? = some o ∧ o.node = n := by
  obtain ⟨o, ho, hhow, number, opening, hfile, hopening, hn⟩ := hover
  rcases List.mem_append.1 ho with ho | ho
  · left
    obtain ⟨before, hbefore⟩ := Option.isSome_iff_exists.1 (hs o ho number hfile)
    obtain rfl : before = opening := Option.some.inj ((h.stays_open hbefore).symm.trans hopening)
    exact ⟨o, ho, hhow, number, before, hfile, hbefore, hn⟩
  · right
    obtain rfl := List.mem_singleton.1 ho
    refine ⟨?_, number, opening, hfile, hopening, hn⟩
    cases hdirection : r.direction <;> simp_all [openMode]

/-- The file of a redirection is open. -/
theorem Gets.isOpen (h : s.Gets r file files openings) {number : Nat}
    (hfile : file = .opened number) : (openings[number]?).isSome := by
  cases h with
  | file | account =>
      cases hfile
      simp
  | fifo | pipe =>
      unfold pipeEnd at hfile
      split at hfile <;> cases hfile
  | stream _ _ hstream => rcases hstream with rfl | rfl <;> cases hfile

/-- What is kept of a file that was there. -/
theorem Gets.kept (h : s.Gets r file files openings) (hnode : s.files.node? n = some node) :
    ∃ node', files.node? n = some node' ∧ node'.mode = node.mode ∧ ∀ data,
      node.content = .file data → node'.content = .file data ∨
        node'.content = .file [] ∧ (s.redirected r file files openings).Overwrites n := by
  obtain ⟨node', hnode', n', hleaves, hfile⟩ := h.leaves hnode
  refine ⟨node', hnode', hleaves.mode, fun data hdata => ?_⟩
  cases hleaves with
  | same => exact .inl hdata
  | emptied hdirection hn _ =>
      obtain ⟨hfile', hopenings⟩ := hfile hn.symm hdirection [] rfl
      refine .inr ⟨rfl, _, List.mem_append_right _ (List.mem_singleton_self _), ?_,
        s.openings.length, fresh .output n, hfile', ?_, rfl⟩
      · exact congrArg openMode hdirection
      · rw [redirected, hopenings]
        simp
  | named _ _ hdirectory =>
      -- a directory stores no data
      rw [hdirectory] at hdata
      cases hdata

/-- **One redirection.** -/
theorem Gets.follows (h : s.Gets r file files openings) (hs : s₀.Follows s) :
    s₀.Follows (s.redirected r file files openings) where
  output := hs.output
  diagnostics := hs.diagnostics
  image := hs.image
  arrivals := hs.arrivals
  mask := hs.mask
  isOpen o ho number hfile := by
    rcases List.mem_append.1 ho with ho | ho
    · obtain ⟨opening, hopening⟩ := Option.isSome_iff_exists.1 (hs.isOpen o ho number hfile)
      exact Option.isSome_iff_exists.2 ⟨opening, h.stays_open hopening⟩
    · obtain rfl := List.mem_singleton.1 ho
      exact h.isOpen hfile
  kept n node hnode := by
    -- a file that has been emptied on the way stays empty
    obtain ⟨node₁, hnode₁, hmode₁, hdata₁⟩ := hs.kept n node hnode
    obtain ⟨node₂, hnode₂, hmode₂, hdata₂⟩ := h.kept hnode₁
    refine ⟨node₂, hnode₂, hmode₂.trans hmode₁, fun data hdata => ?_⟩
    rcases hdata₁ data hdata with hsame | ⟨hempty, hover⟩
    · exact hdata₂ data hsame
    · exact .inr ⟨(hdata₂ [] hempty).elim id And.left, h.overwrites hover⟩
  made n node hnone hnode := by
    cases hnode₁ : s.files.node? n with
    | none =>
        rw [← hs.mask]
        exact h.new hnode₁ hnode
    | some node₁ =>
        obtain ⟨node₂, hnode₂, n', hleaves, -⟩ := h.leaves hnode₁
        obtain rfl : node₂ = node := Option.some.inj (hnode₂.symm.trans hnode)
        exact hleaves.made (hs.made n node₁ hnone hnode₁)
  emptied n node data hover hnode hcontent := by
    -- it was overwritten before, and is only left as it is now, or it is overwritten now
    rcases h.overwrites_cases hs.isOpen hover with hover | ⟨hdirection, number, o, hfile, ho, rfl⟩
    · cases hnode₁ : s.files.node? n with
      | none =>
          rcases h.new hnode₁ hnode with rfl | ⟨process, item, hnew⟩
          · cases hcontent
            rfl
          · rw [hnew] at hcontent
            cases hcontent
      | some node₁ =>
          obtain ⟨node₂, hnode₂, n', hleaves, -⟩ := h.leaves hnode₁
          obtain rfl : node₂ = node := Option.some.inj (hnode₂.symm.trans hnode)
          exact hleaves.empty (fun data => hs.emptied n node₁ data hover hnode₁) hcontent
    · exact h.empty hdirection hfile ho hnode hcontent

end Gets

/-- **A list of redirections.** -/
theorem Redirected.follows (h : s.Redirected rs s') (hs : s₀.Follows s) : s₀.Follows s' := by
  induction h with
  | nil s => exact hs
  | cons hgets _ ih => exact ih (hgets.follows hs)

/-- What stands behind 0 and 1 is what has been opened last. -/
theorem Gets.laid (hs : Launching.Redirected base source sink s.descriptors s.opened) :
    Launching.Redirected base source sink (s.redirected r file files openings).descriptors
      (s.redirected r file files openings).opened := by
  rw [redirected, Launching.Redirected, latest_append, latest_append]
  cases hdirection : r.direction with
  | input => exact Descriptors.Laid.assign_zero hs
  | output | append => exact Descriptors.Laid.assign_one hs

theorem Redirected.laid (h : s.Redirected rs s')
    (hs : Launching.Redirected base source sink s.descriptors s.opened) :
    Launching.Redirected base source sink s'.descriptors s'.opened ∧
      s'.opened.map (fun o => (o.path, o.how)) = s.opened.map (fun o => (o.path, o.how)) ++
        rs.map fun r => (r.target, openMode r.direction) := by
  induction h with
  | nil s => exact ⟨hs, by simp⟩
  | cons hgets _ ih =>
      obtain ⟨hlaid, hopened⟩ := ih (Gets.laid hs)
      exact ⟨hlaid, by simpa [redirected] using hopened⟩

/-- Which descriptors a process keeps to itself is none of the redirections' business. -/
theorem Redirected.fleeting (h : s.Redirected rs s') :
    s'.descriptors.fleeting = s.descriptors.fleeting := by
  induction h with
  | nil s => rfl
  | cons _ _ ih => exact ih

end Scene

/-! ### Redirections that do not succeed -/

namespace Machine

variable {m m' : Machine} {p : Process} {file : OpenFile} {files : FileSystem}
  {openings : List Opening} {fd : Nat}

/-- A new descriptor has a number of its own. -/
theorem Granted.ne_of_isOpen (h : m.Granted p file files openings fd m') {fd' : Nat}
    (hopen : p.descriptors.isOpen fd' = true) : fd ≠ fd' := by
  rintro rfl
  rw [h.free] at hopen
  cases hopen

/-- What a process sees once its new descriptor has been moved to that of a standard stream. -/
theorem Granted.redirected (h : m.Granted p file files openings fd m') (r : Redirection)
    (hne : fd ≠ standard r.direction) :
    { m'.scene { p.secluded with
        descriptors := p.descriptors.assign fd file
        opened := p.opened ++ [⟨r.target, openMode r.direction, file⟩] } with
      descriptors :=
        ((p.descriptors.assign fd file).assign (standard r.direction) file).close fd } =
      (m.scene p).redirected r file files openings := by
  rw [Descriptors.close_assign_assign h.free hne]
  obtain ⟨-, rfl, rfl, houtput, hdiagnostics, -⟩ := h
  simp [Machine.scene, Scene.redirected, Process.secluded, houtput, hdiagnostics]

/-- What the file of a redirection comes to when a process opens it. -/
def openFor (m : Machine) (held : Descriptors) (p : Process) (r : Redirection) :
    Outcome (Except Errno Nat) :=
  m.openPath held p r.target (openMode r.direction) fileMode

/-- A process sees a scene, and a redirection of it fails. -/
def Refuses (m : Machine) (held : Descriptors) (pid : Int) (s : Scene) (r : Redirection)
    (errno : Errno) : Prop :=
  ∃ p, m.process? pid = some p ∧ m.scene p = s ∧ m.openFor held p r = .reply (.error errno) m

/-- A process sees a scene, and waits for somebody at the other end of the fifo that a redirection
leads to.  It does not get anywhere by itself. -/
def Detains (m : Machine) (held : Descriptors) (pid : Int) (s : Scene) (r : Redirection) : Prop :=
  (∃ p m' i, m.process? pid = some p ∧ m.scene p = s ∧ m.openFor held p r = .blocked m' ∧
    m'.hasName i = true) ∧ ∀ m', ¬Calls held pid m m'

end Machine

/-! ### The steps of a child -/

namespace Launching

open Machine (Alone Calls)
open Prog (Takes)

variable {α β : Type} {held : Descriptors} {pid : Int} {s s' s'' : Scene} {a : α}
  {m : Machine}

/-- One step after another, if the first does not fail. -/
theorem takes_bind {x : Launching α} {f : α → Launching β} {b : Except LaunchError β}
    (h : Takes held pid x.run s (.ok a) s') (hf : Takes held pid (f a).run s' b s'') :
    Takes held pid (x >>= f).run s b s'' :=
  h.bind (f := ExceptT.bindCont f) hf

/-- What a step leaves to do of the steps of a child. -/
theorem takes_runs {x : Launching α} {f : α → Launching β} {k : Except LaunchError β → Prog Nat}
    (hx : Takes held pid x.run s (.ok a) s')
    (h : m.Poised pid ((x >>= f).run >>= k) s) :
    ∃ m', Alone held pid m m' ∧ m'.Poised pid ((f a).run >>= k) s' := by
  -- what follows a step of a child looks at whether it has failed
  replace h : m.Poised pid ((x.run >>= ExceptT.bindCont f) >>= k) s := h
  rw [Prog.bind_assoc] at h
  exact hx m _ h

theorem demand_takes {reply : Prog (Except Errno α)} {cause : Errno → LaunchError}
    (h : Takes held pid reply s (.ok a) s') :
    Takes held pid (demand reply cause).run s (.ok a) s' :=
  h.bind (Takes.done _)

/-- A call that only changes its own process, and nothing that matters. -/
theorem ask_takes {c : Call} {value : c.Reply} {f : Process → Process} (hc : c.Plain)
    (hf : Machine.Mild f)
    (hperform : ∀ (m : Machine) p, m.process? pid = some p → m.scene p = s →
      m.perform held p c = .reply value (m.update pid f))
    (hscene : ∀ (m : Machine) q, m.scene q = s → m.scene (f q) = s') :
    Takes held pid (Prog.ask c) s value s' :=
  Takes.ask fun m _ h => Machine.Poised.call_update hc h hf (hperform m) (hscene m)

theorem dispose_takes (signal : Nat) (disposition : Disposition) :
    Takes held pid (dispose signal disposition).run s (.ok ()) s := by
  refine demand_takes (ask_takes (f := fun p =>
    { p with dispositions := (signal, disposition) :: p.dispositions.filter (·.1 ≠ signal) })
    trivial {} ?_ fun _ _ h => h)
  intro m p hp _
  rw [← Machine.pid_of_process? hp]
  rfl

/-- The signals make no difference to what a process sees of its files. -/
theorem restoreSignals_takes : Takes held pid restoreSignals.run s (.ok ()) s := by
  refine takes_bind (dispose_takes _ _) ?_
  refine takes_bind (dispose_takes _ _) ?_
  refine takes_bind (dispose_takes _ _) ?_
  refine demand_takes (ask_takes (f := fun p => { p with childBlocked := false })
    trivial {} ?_ fun _ _ h => h)
  intro m p hp _
  rw [← Machine.pid_of_process? hp]
  rfl

theorem close_takes {fd : Nat} (hopen : s.descriptors.isOpen fd = true) :
    Takes held pid (Launching.close fd).run s (.ok ())
      { s with descriptors := s.descriptors.close fd } := by
  refine demand_takes (ask_takes (f := fun p =>
    { p with descriptors := s.descriptors.close fd })
    trivial {} ?_ ?_)
  · rintro m p hp rfl
    have hclose : m.close p fd =
        (.ok (), m.setDescriptors p.pid (p.descriptors.close fd)) := if_pos hopen
    rw [Machine.perform, hclose, Machine.pid_of_process? hp]
    rfl
  · rintro m q rfl
    rfl

/-- Moving a descriptor that is open to another number. -/
theorem move_takes {old new : Nat} {file : OpenFile} (hne : old ≠ new)
    (hfile : s.descriptors.file? old = some file) :
    Takes held pid (move old new).run s (.ok ())
      { s with descriptors := (s.descriptors.assign new file).close old } := by
  have hdup : Takes held pid (demand (Prog.ask (.dup2 old new)) (.descriptor .dup2)).run s
      (.ok ()) { s with descriptors := s.descriptors.assign new file } := by
    refine demand_takes (ask_takes (f := fun p =>
      { p with descriptors := s.descriptors.assign new file })
      trivial {} ?_ ?_)
    · rintro m p hp rfl
      have hdup2 : m.dup2 p old new =
          (.ok (), m.setDescriptors p.pid (p.descriptors.assign new file)) := by
        replace hfile : p.descriptors.file? old = some file := hfile
        rw [Machine.dup2, hfile]
        exact if_neg hne
      rw [Machine.perform, hdup2, Machine.pid_of_process? hp]
      rfl
    · rintro m q rfl
      rfl
  unfold move
  rw [if_neg hne]
  refine takes_bind hdup (close_takes ?_)
  rw [Descriptors.isOpen_assign, Descriptors.isOpen, hfile]
  simp

variable (held) in
/-- **One redirection** is put in place, or it fails, or it has to wait. -/
theorem redirect_runs {r : Redirection} {k : Except LaunchError Unit → Prog Nat}
    (hstandard : s.descriptors.isOpen (standard r.direction) = true)
    (h : m.Poised pid ((redirect r).run >>= k) s) :
    (∃ file files openings m', s.Gets r file files openings ∧ Alone held pid m m' ∧
        m'.Poised pid (k (.ok ())) (s.redirected r file files openings)) ∨
      (∃ errno m', m.Refuses held pid s r errno ∧ Calls held pid m m' ∧
        m'.Poised pid (k (.error (.opening r.target errno))) s) ∨
      m.Detains held pid s r := by
  obtain ⟨p, hp, hphase, hstopped, rfl⟩ := h
  -- the call comes first, and the rest depends on its reply
  obtain ⟨next, hcall, hok, herror⟩ : ∃ next : Except Errno Nat → Prog Nat,
      (redirect r).run >>= k =
          .call (.openPath r.target (openMode r.direction) fileMode) next ∧
        (∀ fd, next (.ok fd) = (move fd (standard r.direction)).run >>= k) ∧
          ∀ errno, next (.error errno) = k (.error (.opening r.target errno)) :=
    ⟨_, rfl, fun _ => rfl, fun _ => rfl⟩
  rw [hcall] at hphase
  have hperform : m.perform held p (.openPath r.target (openMode r.direction) fileMode) =
      (m.openFor held p r).noting p r.target (openMode r.direction) := rfl
  have hanswered : m.Answered p r (m.openFor held p r) := Machine.openPath_answered held r
  have hplain : (Call.openPath r.target (openMode r.direction) fileMode).Plain := trivial
  have hown : m.own pid = some p.secluded := congrArg (Option.map Process.secluded) hp
  rcases hopen : m.openFor held p r with ⟨errno | fd, m₁⟩ | m₁
  · -- the file is not opened
    right; left
    rw [hopen] at hanswered hperform
    obtain rfl : m₁ = m := hanswered
    obtain ⟨m₂, hcalls, hpoised⟩ :=
      Machine.Poised.call hplain hp hphase hstopped hperform hown rfl hstopped
    rw [herror] at hpoised
    exact ⟨errno, m₂, ⟨p, hp, rfl, hopen⟩, hcalls, hpoised⟩
  · -- the file is open under a number of its own, which is not that of a standard stream
    left
    rw [hopen] at hanswered hperform
    obtain ⟨file, files, openings, hgets, hgranted⟩ := hanswered
    have hne := hgranted.ne_of_isOpen hstandard
    have hpid := Machine.pid_of_process? hp
    have hown₁ := hgranted.own_noted (hpid.symm ▸ hp) r.target (openMode r.direction)
    rw [Machine.noting_ok, hpid] at hperform
    rw [hpid] at hown₁
    obtain ⟨m₂, hcalls, hpoised⟩ :=
      Machine.Poised.call hplain hp hphase hstopped hperform hown₁ rfl hstopped
    rw [hok] at hpoised
    obtain ⟨m₃, halone, hpoised⟩ :=
      (move_takes hne (Descriptors.file?_assign.trans (if_pos rfl)) : Takes held pid _ _ _ _)
        m₂ k hpoised
    refine ⟨file, files, openings, m₃, hgets, halone.head hcalls, ?_⟩
    rw [← hgranted.redirected r hne]
    exact hpoised
  · -- the call does not come back, so the process takes no step
    right; right
    rw [hopen] at hanswered hperform
    obtain ⟨i, hname⟩ := hanswered
    refine ⟨⟨p, m₁, i, hp, rfl, hopen, hname⟩, ?_⟩
    rintro m₂ ⟨hp', hstep⟩
    obtain rfl := Option.some.inj (hp.symm.trans hp')
    rw [Machine.step_of_plain hplain hphase hstopped, hperform] at hstep
    cases hstep

variable (held) in
/-- **A list of redirections** is worked off up to the first that fails, or has to wait. -/
theorem redirectAll_runs {base : Descriptors} {source sink : OpenFile} (rs : List Redirection)
    {k : Except LaunchError Unit → Prog Nat}
    (hs : Redirected base source sink s.descriptors s.opened)
    (h : m.Poised pid ((redirectAll rs).run >>= k) s) :
    ∃ before after s' m', rs = before ++ after ∧ s.Redirected before s' ∧ Alone held pid m m' ∧
      match after with
      | [] => m'.Poised pid (k (.ok ())) s'
      | r :: _ =>
        (∃ errno m'', m'.Refuses held pid s' r errno ∧ Calls held pid m' m'' ∧
          m''.Poised pid (k (.error (.opening r.target errno))) s') ∨ m'.Detains held pid s' r := by
  -- what carries the induction is that 0 and 1 are open: a file is moved to a number that is taken
  induction rs generalizing m s with
  | nil => exact ⟨[], [], s, m, rfl, .nil s, .refl, h⟩
  | cons r rs ih =>
      have hstandard := Descriptors.Laid.isOpen_standard hs r.direction
      replace h : m.Poised pid (((redirect r).run >>= ExceptT.bindCont fun _ => redirectAll rs) >>= k)
        s := h
      rw [Prog.bind_assoc] at h
      rcases redirect_runs held hstandard h with
        ⟨file, files, openings, m₁, hgets, halone₁, hpoised₁⟩ | hrefused | hdetained
      · obtain ⟨before, after, s', m', rfl, hredirected, halone, hend⟩ :=
          ih (Scene.Gets.laid hs) hpoised₁
        exact ⟨r :: before, after, s', m', rfl, .cons hgets hredirected, halone₁.trans halone, hend⟩
      · exact ⟨[], r :: rs, s, m, rfl, .nil s, .refl, .inl hrefused⟩
      · exact ⟨[], r :: rs, s, m, rfl, .nil s, .refl, .inr hdetained⟩

end Launching

/-! ### The child -/

namespace Descriptors

variable {d : Descriptors} {fd : Nat}

/-- A number that the process does not keep to itself. -/
theorem file?_kept (hfleeting : fd ∉ d.fleeting) : d.kept.file? fd = d.file? fd := by
  have hentries : ∀ entries : List (Nat × OpenFile),
      (entries.filter fun entry => !d.fleeting.contains entry.1).lookup fd = entries.lookup fd := by
    intro entries
    induction entries with
    | nil => rfl
    | cons entry entries ih =>
        obtain ⟨number, file⟩ := entry
        by_cases hkept : number ∈ d.fleeting
        · have hnumber : fd ≠ number := by
            rintro rfl
            exact hfleeting hkept
          rw [List.filter_cons_of_neg (by simpa using hkept), ih, List.lookup_cons,
            beq_eq_false_iff_ne.2 hnumber]
        · rw [List.filter_cons_of_pos (by simpa using hkept), List.lookup_cons, List.lookup_cons,
            ih]
  exact hentries d.entries

/-- A number that the next program starts with. -/
theorem of_isOpen_kept (h : d.kept.isOpen fd = true) : d.isOpen fd = true ∧ fd ∉ d.fleeting := by
  have hfleeting : fd ∉ d.fleeting := by
    intro hmem
    have hclosed : d.kept.isOpen fd = false := by
      refine isOpen_eq_false_iff.2 fun entry hentry hfd => ?_
      have hkept := (List.mem_filter.1 hentry).2
      rw [hfd] at hkept
      simp [hmem] at hkept
    rw [hclosed] at h
    cases h
  rw [isOpen, file?_kept hfleeting] at h
  exact ⟨h, hfleeting⟩

end Descriptors

namespace Assignment

open Descriptors (Connected Laid)
open Launching (takes_bind takes_runs move_takes close_takes)
open Machine (Alone Calls)
open Prog (Takes)

variable {held : Descriptors} {pid : Int} {s : Scene} {m : Machine} {base : Descriptors}
  {source sink : OpenFile} {a : Assignment}

variable (held pid) in
/-- The ends of the pipes are put in place. -/
theorem connect_takes (h : a.Seated base source sink) (h0 : base.isOpen 0 = true)
    (h1 : base.isOpen 1 = true) (hs : s.descriptors = a.descriptors) :
    ∃ d, base.Laid source sink d ∧ d.fleeting = base.fleeting ∧
      Takes held pid a.connect.run s (.ok ()) { s with descriptors := d } := by
  unfold connect
  cases h with
  | last hpipe hfree hd hsink =>
      have hinput := (standard_of_free h0 h1 hfree).1
      refine ⟨_, Seated.laid_last hfree hinput hd hsink, by rw [hd]; rfl, ?_⟩
      rw [hpipe, ← hs]
      refine takes_bind (move_takes hinput ?_) (Takes.done _)
      rw [hs, hd, Descriptors.file?_assign, if_pos rfl]
  | @writer reader writer pipe hpipe hconnected hsink =>
      have hinput := (standard_of_free h0 h1 hconnected.input_free).1
      have hreader := standard_of_free h0 h1 hconnected.reader_base.2
      have hwriter := standard_of_free h0 h1 hconnected.writer_base.2.2
      subst hsink
      refine ⟨_, Seated.laid_writer hconnected hreader hwriter, rfl, ?_⟩
      rw [hpipe]
      have hmoved := Seated.moved_input hinput hconnected
      rw [← hs] at hmoved
      refine takes_bind (move_takes hinput (hs ▸ Seated.file?_input hconnected)) ?_
      dsimp only
      rw [hmoved]
      -- the writer is where it was when the input is in its place
      have hfile : (((base.assign reader (.pipeReader pipe)).assign writer (.pipeWriter
          pipe)).assign 0 source).file? writer = some (.pipeWriter pipe) := by
        simp [Descriptors.file?_assign, hwriter.1]
      refine takes_bind (move_takes hwriter.2 hfile) (close_takes ?_)
      simp [Descriptors.isOpen, Descriptors.file?_assign, Descriptors.file?_close, hreader,
          Ne.symm hconnected.writer_base.1]

/-- A new session, for a process that leads no group. -/
theorem poised_setsid {next : Except Errno Unit → Prog Nat}
    (hleader : ∀ q ∈ m.processes, q.group ≠ pid) (h : m.Poised pid (.call .setsid next) s) :
    ∃ m', Calls held pid m m' ∧ m'.Poised pid (next (.ok ())) s := by
  refine Machine.Poised.call_update (c := .setsid)
    (f := fun q => { q with group := q.pid, session := q.pid }) trivial h {} ?_ fun _ h => h
  intro p hp _
  have hnone : ¬(m.processes.any (·.group = p.pid)) = true := by
    rw [Machine.pid_of_process? hp]
    simpa using hleader
  rw [Machine.perform, Machine.setsid, if_neg hnone, Machine.pid_of_process? hp]
  rfl

/-- The step that begins a session. -/
theorem setsid_runs {α : Type} {f : Unit → Launching α} {k : Except LaunchError α → Prog Nat}
    (hleader : ∀ q ∈ m.processes, q.group ≠ pid)
    (h : m.Poised pid ((Launching.demand (Prog.ask .setsid) (.descriptor .setsid) >>= f).run >>= k)
      s) :
    ∃ m', Calls held pid m m' ∧ m'.Poised pid ((f ()).run >>= k) s := by
  obtain ⟨next, hcall, hok⟩ : ∃ next : Except Errno Unit → Prog Nat,
      (Launching.demand (Prog.ask .setsid) (.descriptor .setsid) >>= f).run >>= k =
          .call .setsid next ∧
        next (.ok ()) = (f ()).run >>= k := ⟨_, rfl, rfl⟩
  rw [hcall] at h
  rw [← hok]
  exact poised_setsid hleader h

variable (held) in
/-- **Everything up to the first redirection.** -/
theorem arrange_runs (hseated : a.Seated base source sink) (h0 : base.isOpen 0 = true)
    (h1 : base.isOpen 1 = true) (hnul : a.command.nulPosition? = none)
    (hleader : a.jobClass = .background → ∀ q ∈ m.processes, q.group ≠ pid)
    (hs : s.descriptors = a.descriptors) {k : Except LaunchError Command → Prog Nat}
    (h : m.Poised pid (a.arrange.run >>= k) s) :
    ∃ d m', base.Laid source sink d ∧ d.fleeting = base.fleeting ∧ Alone held pid m m' ∧
      m'.Poised pid ((Launching.redirectAll a.command.redirections >>= fun _ =>
        pure a.command).run >>= k) { s with descriptors := d } := by
  obtain ⟨d, hlaid, hfleeting, hconnect⟩ :=
    connect_takes held pid hseated h0 h1 hs
  have hprepare : a.command.prepare = .ok a.command := by rw [Command.prepare, hnul]
  unfold arrange at h
  -- a job in the background begins with a session of its own; the rest is the same for both classes
  extract_lets rest at h
  have hrest : ∀ m, m.Poised pid ((rest ⟨⟩).run >>= k) s → ∃ m', Alone held pid m m' ∧
      m'.Poised pid ((Launching.redirectAll a.command.redirections >>= fun _ =>
        pure a.command).run >>= k) { s with descriptors := d } := by
    intro m h
    obtain ⟨m₁, halone₁, h⟩ := takes_runs Launching.restoreSignals_takes h
    obtain ⟨m₂, halone₂, h⟩ := takes_runs hconnect h
    rw [hprepare] at h
    obtain ⟨m₃, halone₃, h⟩ := takes_runs (Takes.done (Except.ok a.command)) h
    exact ⟨m₃, (halone₁.trans halone₂).trans halone₃, h⟩
  split at h
  · rename_i hbackground
    obtain ⟨m₁, hcalls, h⟩ := setsid_runs (hleader hbackground) h
    obtain ⟨m', halone, h⟩ := hrest m₁ h
    exact ⟨d, m', hlaid, hfleeting, halone.head hcalls, h⟩
  · obtain ⟨m', halone, h⟩ := hrest m h
    exact ⟨d, m', hlaid, hfleeting, halone, h⟩

/-- **What becomes of a child after the redirections that succeed**, by those that are left.  The
child is alone, and `s` is what it sees when it comes to the first of them. -/
inductive Ends (held : Descriptors) (pid : Int) (a : Assignment) (m : Machine) (s : Scene) :
    List Redirection → Prop where
  /-- None is left, and the program starts. -/
  | started {m' : Machine} : Alone held pid m m' → m'.Starts pid s → Ends held pid a m s []
  /-- None is left, and there is no such program, or it cannot be run. -/
  | unfit {m' : Machine} {errno : Errno} {arrivals : List Arrival} : Alone held pid m m' →
      m'.Left pid (.exited launchFailure)
        { s with
          arrivals := arrivals
          diagnostics := s.diagnostics ++
            utf8 ((LaunchError.executing a.command.name errno).message ++ "\n") } →
        Ends held pid a m s []
  /-- The first that is left fails.  Nothing else happens, and the child says so, in one line if
  the target is one, and ends. -/
  | refused {r : Redirection} {after : List Redirection} {errno : Errno} {m₁ m' : Machine} :
      Alone held pid m m₁ → m₁.Refuses held pid s r errno → Alone held pid m₁ m' →
        m'.Left pid (.exited launchFailure)
          { s with
            diagnostics := s.diagnostics ++
              utf8 ((LaunchError.opening r.target errno).message ++ "\n") } →
          (newline ∉ r.target → newline ∉ utf8 (LaunchError.opening r.target errno).message) →
            Ends held pid a m s (r :: after)
  /-- The first that is left is a fifo that nobody has open at its other end. -/
  | detained {r : Redirection} {after : List Redirection} {m₁ : Machine} :
      Alone held pid m m₁ → m₁.Detains held pid s r → Ends held pid a m s (r :: after)

/-- What a child sees before its first call. -/
def scene (a : Assignment) (m : Machine) (mask : Nat) : Scene :=
  { files := m.files
    openings := m.openings
    output := m.output
    diagnostics := m.diagnostics
    descriptors := a.descriptors
    opened := []
    place := a.place
    mask := mask
    image := none
    arrivals := [] }

variable (held) in
/-- The child says why it cannot run its program, and ends. -/
theorem gives_up {e : LaunchError} (h2 : s.descriptors.file? 2 = some .diagnostics)
    (h : m.Poised pid (Prog.writeAll 2 (utf8 (e.message ++ "\n")) >>= fun _ =>
      .done launchFailure) s) :
    ∃ m', Alone held pid m m' ∧ m'.Left pid (.exited launchFailure)
      { s with diagnostics := s.diagnostics ++ utf8 (e.message ++ "\n") } := by
  obtain ⟨m₁, halone, hpoised⟩ := (Prog.writeAll_takes h2 _ : Prog.Takes held pid _ _ _ _) m _ h
  obtain ⟨m₂, hcalls, hleft⟩ := hpoised.finish held
  exact ⟨m₂, halone.tail hcalls, hleft⟩

variable (held) in
/-- **Redirections, and what becomes of the child.**  A child that runs alone opens the files of
its redirections from the first one on up to one that fails.

* What those before that have done is what `Scene.Redirected` says, and stays: `Scene.Follows`.
* If one fails, those after it have no effect, the program is not run, one line of diagnostics
  names the target, and the child exits with the status of a failed launch.
* If none fails, the program starts with the last file opened to be read as its descriptor 0, and
  the last opened to be written as its descriptor 1, or with those that its place in the pipeline
  gives it. -/
theorem run_redirects {mask : Nat} {environment : Environment}
    (hseated : a.Seated base source sink) (h0 : base.kept.isOpen 0 = true)
    (h1 : base.kept.isOpen 1 = true) (h2 : base.file? 2 = some .diagnostics)
    (hnul : a.command.nulPosition? = none)
    (hleader : a.jobClass = .background → ∀ q ∈ m.processes, q.group ≠ pid)
    (h : m.Poised pid (a.run environment) (a.scene m mask)) :
    ∃ before after d s, a.command.redirections = before ++ after ∧ base.Laid source sink d ∧
      Scene.Redirected { a.scene m mask with descriptors := d } before s ∧
      (a.scene m mask).Follows s ∧
      Arrival.Wired base before source sink ⟨s.descriptors, s.opened⟩ ∧
      s.descriptors.kept.file? 0 = some (latest (·.read) s.opened source) ∧
      s.descriptors.kept.file? 1 = some (latest (·.write) s.opened sink) ∧
      a.Ends held pid m s after := by
  obtain ⟨h0, hfleeting0⟩ := Descriptors.of_isOpen_kept h0
  obtain ⟨h1, hfleeting1⟩ := Descriptors.of_isOpen_kept h1
  unfold run launch at h
  rw [Prog.bind_assoc] at h
  obtain ⟨d, m₁, hlaid, hfleeting, halone₁, h⟩ :=
    arrange_runs held hseated h0 h1 hnul hleader rfl h
  have hstart : Launching.Redirected base source sink d [] := hlaid
  replace h := (congrArg (fun rest => m₁.Poised pid rest _) (Prog.bind_assoc ..)).mp h
  obtain ⟨before, after, s, m₂, heq, hredirected, halone₂, hend⟩ :=
    Launching.redirectAll_runs held a.command.redirections hstart h
  obtain ⟨hlaid', hopened⟩ := hredirected.laid hstart
  have hfleeting' : s.descriptors.fleeting = base.fleeting := hredirected.fleeting.trans hfleeting
  have h2' : s.descriptors.file? 2 = some .diagnostics := (hlaid'.file 2).trans h2
  have hfollows : (a.scene m mask).Follows s := by
    have hrefl : (a.scene m mask).Follows { a.scene m mask with descriptors := d } := by
      obtain ⟨h₁, h₂, h₃, h₄, h₅, h₆, h₇, h₈, h₉⟩ := Scene.Follows.refl (s := a.scene m mask) rfl
      exact ⟨h₁, h₂, h₃, h₄, h₅, h₆, h₇, h₈, h₉⟩
    exact hredirected.follows hrefl
  refine ⟨before, after, d, s, heq, hlaid, hredirected, hfollows, ⟨hopened, hlaid'⟩, ?_, ?_, ?_⟩
  · rw [Descriptors.file?_kept (hfleeting' ▸ hfleeting0)]
    exact hlaid'.file 0
  · rw [Descriptors.file?_kept (hfleeting' ▸ hfleeting1)]
    exact hlaid'.file 1
  cases after with
  | nil =>
      -- nothing failed, so the child tries to run its program, and says so if it cannot
      have hexecs := Prog.execSearching_execs a.command.name a.command.words environment
      replace h := (congrArg (fun rest => m₂.Poised pid rest s) (Prog.bind_assoc ..)).mp hend
      obtain ⟨m₃, halone₃, ⟨errno, arrivals, h⟩ | hstarts⟩ := Machine.Poised.execs held hexecs _ h
      · obtain ⟨m₄, halone₄, hleft⟩ :=
          gives_up held (s := { s with arrivals := arrivals }) h2' h
        exact .unfit ((halone₁.trans halone₂).trans (halone₃.trans halone₄)) hleft
      · exact .started ((halone₁.trans halone₂).trans halone₃) hstarts
  | cons r after =>
      rcases hend with ⟨errno, m₃, hrefuses, hcalls, h⟩ | hdetains
      · obtain ⟨m₄, halone₄, hleft⟩ := gives_up held h2' h
        exact .refused (halone₁.trans halone₂) hrefuses (halone₄.head hcalls) hleft
          fun htarget => LaunchError.newline_notMem_opening htarget errno
      · exact .detained (halone₁.trans halone₂) hdetains

/-- A child that has just been started. -/
theorem poised_start (pid : Int) (hnew : m.process? pid = none) :
    (m.start pid a).Poised pid (a.run m.environment) (a.scene (m.start pid a) 0) := by
  refine ⟨m.shellChild pid a, ?_, rfl, rfl, rfl⟩
  rw [Machine.process?] at hnew
  rw [Machine.process?, Machine.start, List.find?_append, hnew]
  simp [Machine.shellChild]

/-- A machine with an empty working directory, a shell that reads a pipe, and a command that is to
write a file, to read one that is not there, and to write another one. -/
def bare : Machine where
  files := ⟨[{ content := .directory [] 0, mode := 0o755 }]⟩
  pipes := [[]]
  programs _ := none

def bareShell : Descriptors where
  entries := [(0, .pipeReader 0), (1, .output), (2, .diagnostics)]

def threeRedirections : Assignment where
  command :=
    { name := utf8 "cat"
      arguments := []
      redirections :=
        [⟨.output, utf8 "made"⟩, ⟨.input, utf8 "missing"⟩, ⟨.append, utf8 "other"⟩] }
  jobClass := .foreground
  input := 3
  pipe := none
  descriptors := bareShell.assign 3 (.pipeReader 0)
  place := 0

theorem run_redirects_three :
    bareShell.kept.isOpen 0 = true ∧ bareShell.kept.isOpen 1 = true ∧
      bareShell.file? 2 = some .diagnostics ∧
      threeRedirections.command.nulPosition? = none ∧
      ∃ before after d s,
        threeRedirections.command.redirections = before ++ after ∧
        bareShell.Laid (.pipeReader 0) .output d ∧
        Scene.Redirected { threeRedirections.scene (bare.start 101 threeRedirections) 0 with
          descriptors := d } before s ∧
        threeRedirections.Ends {} 101 (bare.start 101 threeRedirections) s after := by
  have hseated : threeRedirections.Seated bareShell (.pipeReader 0) .output :=
    .last rfl (by decide) rfl (by decide)
  have hnul : threeRedirections.command.nulPosition? = none := by decide +kernel
  obtain ⟨before, after, d, s, heq, hlaid, hredirected, -, -, -, -, hends⟩ :=
    run_redirects {} hseated (by decide) (by decide) (by decide) hnul nofun
      (poised_start (m := bare) 101 rfl)
  exact ⟨by decide, by decide, by decide, hnul, before, after, d, s, heq, hlaid, hredirected, hends⟩

end Assignment

end JobShell
