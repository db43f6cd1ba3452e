/-
**What becomes of the bytes in a file.**

Two things matter to a file into which outputs are redirected: that what is written through an open
file comes to stand at the end, and what the opening for a redirection leaves of what was there.  A
write goes to the end if the open file is for appending, or if its position is at the end; in both
cases the position is at the end again afterwards.

Main definitions:

* `JobShell.Machine.contents?` — the bytes in a file;
* `JobShell.Process.writing?` — the open file that a process is about to write to, and what;
* `JobShell.Machine.AtEnd` — an open file through which everything is written at the end;
* `JobShell.Direction.left` — what a redirection leaves of the bytes in a file.

Main results:

* `JobShell.Machine.AtEnd.step` — **what is written comes to stand at the end**;
* `JobShell.Scene.Gets.contents` — **what the opening for a redirection leaves**.
-/

import JobShell.Proofs.Redirections

set_option autoImplicit false

namespace JobShell

open Launching (openMode fileMode)

/-- The bytes in a file. -/
def FileSystem.contents? (fs : FileSystem) (n : Nat) : Option Bytes :=
  match fs.node? n with
  | some { content := .file data, .. } => some data
  | _ => none

theorem FileSystem.contents?_eq_some_iff {fs : FileSystem} {n : Nat} {data : Bytes} :
    fs.contents? n = some data ↔ ∃ node, fs.node? n = some node ∧ node.content = .file data := by
  unfold contents?
  split
  · rename_i data' mode removed system hnode
    simp [hnode]
  · rename_i hother
    refine ⟨nofun, ?_⟩
    rintro ⟨⟨content, mode, removed, system⟩, hnode, rfl⟩
    exact absurd hnode (hother data mode removed system)

namespace Machine

/-- The bytes in a file. -/
def contents? (m : Machine) (n : Nat) : Option Bytes := m.files.contents? n

end Machine

/-! ### Writing -/

/-- The open file of the tree that a process is about to write to, and what it is to write. -/
def Process.writing? (p : Process) : Option (Nat × Bytes) :=
  match p.stopped, p.phase with
  | false, .running (.call (.write fd bytes) _) =>
    match p.descriptors.file? fd with
    | some (.opened number) => some (number, bytes)
    | _ => none
  | _, _ => none

theorem Process.writing?_eq_some_iff {p : Process} {number : Nat} {bytes : Bytes} :
    p.writing? = some (number, bytes) ↔ p.stopped = false ∧ ∃ fd next,
      p.phase = .running (.call (.write fd bytes) next) ∧
        p.descriptors.file? fd = some (.opened number) := by
  constructor
  · intro h
    unfold writing? at h
    split at h
    · rename_i fd bytes' next hstopped hphase
      split at h
      · rename_i hfile
        cases h
        exact ⟨hstopped, fd, next, hphase, hfile⟩
      · cases h
    · cases h
  · rintro ⟨hstopped, fd, next, hphase, hfile⟩
    simp [writing?, hstopped, hphase, hfile]

namespace Machine

variable {m m' : Machine} {p : Process} {number n : Nat} {bytes data : Bytes} {held : Descriptors}

/-- **Everything is written at the end** through an open file, of a file with some bytes. -/
structure AtEnd (m : Machine) (number n : Nat) (data : Bytes) : Prop where
  contents : m.contents? n = some data
  opening : ∃ o, m.openings[number]? = some o ∧ o.node = n ∧ o.writable = true ∧
    (o.append = true ∨ o.offset = data.length)

/-- Only the files matter, and how the one is open. -/
theorem AtEnd.of_eq (h : m.AtEnd number n data) (hcontents : m'.contents? n = m.contents? n)
    (hopening : m'.openings[number]? = m.openings[number]?) : m'.AtEnd number n data :=
  ⟨hcontents.trans h.contents, by rw [hopening]; exact h.opening⟩

theorem splice_length (data bytes : Bytes) :
    FileSystem.splice data data.length bytes = data ++ bytes := by
  simp [FileSystem.splice]

/-- What is written through it comes to stand at the end. -/
theorem AtEnd.writeOpening (h : m.AtEnd number n data) {o : Opening}
    (ho : m.openings[number]? = some o) (bytes : Bytes) :
    (m.writeOpening number o bytes).2.AtEnd number n (data ++ bytes) := by
  obtain ⟨hcontents, o', ho', rfl, hwritable, hposition⟩ := h
  obtain rfl : o = o' := Option.some.inj (ho.symm.trans ho')
  obtain ⟨node, hnode, hcontent⟩ := FileSystem.contents?_eq_some_iff.1 hcontents
  have hlt : number < m.openings.length := (List.getElem?_eq_some_iff.1 ho).1
  have hoffset : (if o.append = true then data.length else o.offset) = data.length := by
    split
    · rfl
    · exact hposition.resolve_left ‹_›
  unfold Machine.writeOpening
  rw [if_neg (by simp [hwritable]), hnode]
  simp only [hcontent, hoffset, splice_length]
  refine ⟨FileSystem.contents?_eq_some_iff.2
    ⟨{ node with content := .file (data ++ bytes) }, ?_, rfl⟩,
    { o with offset := data.length + bytes.length }, ?_, rfl, hwritable, .inr (by simp)⟩
  · exact (FileSystem.node?_setNode hnode _ _).trans (if_pos rfl)
  · simp [setOpening, hlt]

/-- A process that is about to write to an open file does so when it has its turn. -/
theorem step_writing (hwriting : p.writing? = some (number, bytes)) {o : Opening}
    (ho : m.openings[number]? = some o) (held : Descriptors) :
    (m.step held p).2.files = (m.writeOpening number o bytes).2.files ∧
      (m.step held p).2.openings = (m.writeOpening number o bytes).2.openings := by
  obtain ⟨hstopped, fd, next, hphase, hfile⟩ := Process.writing?_eq_some_iff.1 hwriting
  have hperform : m.perform held p (.write fd bytes) =
      .reply (m.writeOpening number o bytes).1 (m.writeOpening number o bytes).2 := by
    rw [perform, write, hfile]
    simp only [ho]
    rfl
  rw [step_of_plain (c := .write fd bytes) trivial hphase hstopped, hperform]
  exact ⟨rfl, rfl⟩

/-- **What a process writes comes to stand at the end.** -/
theorem AtEnd.step (h : m.AtEnd number n data) (hwriting : p.writing? = some (number, bytes))
    (held : Descriptors) : (m.step held p).2.AtEnd number n (data ++ bytes) := by
  obtain ⟨o, ho, -⟩ := h.opening
  obtain ⟨hfiles, hopenings⟩ := step_writing hwriting ho held
  refine (h.writeOpening ho bytes).of_eq ?_ (by rw [hopenings])
  rw [contents?, contents?, hfiles]

end Machine

/-! ### Opening -/

/-- What a redirection leaves of the bytes in a file, or finds where there was none. -/
def Direction.left (old : Option Bytes) : Direction → Bytes
  | .output => []
  | .input | .append => old.getD []

namespace Scene

variable {s : Scene} {r : Redirection} {n number : Nat} {files : FileSystem}
  {openings : List Opening} {data : Bytes}

/-- What the opening of a file leaves of the bytes in it. -/
theorem Obtains.contents (h : s.Obtains r n files) (hdata : files.contents? n = some data) :
    data = r.direction.left (s.files.contents? n) := by
  obtain ⟨node, hnode, hcontent⟩ := FileSystem.contents?_eq_some_iff.1 hdata
  cases hdirection : r.direction with
  | output => exact h.empty hdirection hnode hcontent
  | input | append =>
      cases hbefore : s.files.node? n with
      | none =>
          obtain rfl := h.new hbefore hnode
          cases hcontent
          simp [Direction.left, FileSystem.contents?, hbefore]
      | some old =>
          obtain ⟨node', hnode', hleaves⟩ := h.leaves hbefore
          obtain rfl : node = node' := Option.some.inj (hnode.symm.trans hnode')
          rw [hdirection] at hleaves
          cases hleaves with
          | same =>
              rw [FileSystem.contents?_eq_some_iff.2 ⟨_, hbefore, hcontent⟩]
              rfl
          | emptied houtput => cases houtput
          | named => cases hcontent

/-- **What the opening for a redirection leaves**: an open file of the tree has a number of its own,
and is at the start of the file, or is for appending. -/
theorem Gets.contents (h : s.Gets r (.opened number) files openings)
    (hdirection : r.direction ≠ .input) : number = s.openings.length ∧
      ∃ n, openings = s.openings ++ [fresh r.direction n] ∧
        ∀ data, files.contents? n = some data → data = r.direction.left (s.files.contents? n) := by
  generalize hfile : OpenFile.opened number = file at h
  cases h with
  | file hobtains _ =>
      cases hfile
      exact ⟨rfl, _, rfl, fun data => hobtains.contents⟩
  | fifo | pipe =>
      unfold pipeEnd at hfile
      split at hfile <;> cases hfile
  | stream _ _ hstream => rcases hstream with rfl | rfl <;> cases hfile
  | account hinput => exact absurd hinput hdirection

end Scene

end JobShell
