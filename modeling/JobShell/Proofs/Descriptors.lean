/-
**Descriptor tables.**

What stands behind a number after a table has changed, and when a change can be undone: a number
that was free and has been given an open file is free again when it is closed, and the table is the
same list as before.  That the least free number is free, though it is searched for among finitely
many, is a matter of counting.

Main definitions:

* `JobShell.Descriptors.Connected` — the table in which a command is launched that writes a pipe.

Main results:

* `JobShell.Descriptors.leastFree_free` — the least free number is free;
* `JobShell.Descriptors.file?_assign`, `JobShell.Descriptors.file?_close` — what stands behind a
  number;
* `JobShell.Descriptors.close_assign`, `JobShell.Descriptors.close_assign_of_ne` — undoing a
  change, and changing the order of two.
-/

import JobShell.Descriptor
import Mathlib.Data.List.Nodup
import Mathlib.Data.List.Perm.Subperm

set_option autoImplicit false

namespace JobShell

namespace Descriptors

variable {d : Descriptors} {fd fd' : Nat} {file : OpenFile}

/-! ### Numbers in use -/

theorem lookup_eq_none_iff {entries : List (Nat × OpenFile)} :
    entries.lookup fd = none ↔ ∀ entry ∈ entries, entry.1 ≠ fd := by
  induction entries with
  | nil => simp
  | cons entry entries ih =>
      obtain ⟨number, file⟩ := entry
      by_cases h : fd = number
      · simp [h]
      · simp [List.lookup_cons, ih, Ne.symm h, beq_eq_false_iff_ne.2 h]

theorem isOpen_eq_false_iff : d.isOpen fd = false ↔ ∀ entry ∈ d.entries, entry.1 ≠ fd := by
  rw [isOpen, Option.isSome_eq_false_iff, Option.isNone_iff_eq_none, file?, lookup_eq_none_iff]

/-- **The least free number is free**: among more numbers than there are entries one is free. -/
theorem leastFree_free (d : Descriptors) (start : Nat) : d.isOpen (d.leastFree start) = false := by
  obtain ⟨candidates, hcandidates⟩ : ∃ candidates : List Nat,
      candidates = (List.range (d.entries.length + 1)).map (start + ·) := ⟨_, rfl⟩
  have hexists : ∃ number ∈ candidates, d.isOpen number = false := by
    by_contra hnone
    have hsubset : candidates ⊆ d.entries.map (·.1) := by
      intro number hnumber
      by_contra hfree
      refine hnone ⟨number, hnumber, isOpen_eq_false_iff.2 ?_⟩
      rintro entry hentry rfl
      exact hfree (List.mem_map_of_mem hentry)
    have hnodup : candidates.Nodup := by
      rw [hcandidates]
      exact List.Nodup.map (fun a b h => Nat.add_left_cancel h) List.nodup_range
    have hlength := (List.Nodup.subperm hnodup hsubset).length_le
    rw [hcandidates, List.length_map, List.length_range, List.length_map] at hlength
    omega
  obtain ⟨number, hnumber, hfree⟩ := hexists
  cases hfind : candidates.find? fun fd => !d.isOpen fd with
  | none => exact absurd (by simp [hfree]) (List.find?_eq_none.1 hfind number hnumber)
  | some found =>
      have : d.leastFree start = found := by
        rw [leastFree, ← hcandidates, hfind, Option.getD_some]
      rw [this]
      simpa using List.find?_some hfind

/-! ### Assigning and closing -/

theorem file?_filter {entries : List (Nat × OpenFile)} :
    (entries.filter (·.1 ≠ fd)).lookup fd' = if fd' = fd then none else entries.lookup fd' := by
  induction entries with
  | nil => simp
  | cons entry entries ih =>
      obtain ⟨number, file⟩ := entry
      by_cases h : number = fd
      · rw [List.filter_cons_of_neg (by simp [h]), ih]
        by_cases h' : fd' = fd
        · simp [h']
        · simp [List.lookup_cons, h, h', beq_eq_false_iff_ne.2 h']
      · rw [List.filter_cons_of_pos (by simp [h]), List.lookup_cons, List.lookup_cons, ih]
        by_cases h' : fd' = number
        · simp [h', h]
        · simp [beq_eq_false_iff_ne.2 h']

theorem file?_assign :
    (d.assign fd file).file? fd' = if fd' = fd then some file else d.file? fd' := by
  rw [file?, assign, List.lookup_cons, file?_filter]
  by_cases h : fd' = fd
  · simp [h]
  · simp [h, file?, beq_eq_false_iff_ne.2 h]

theorem file?_close : (d.close fd).file? fd' = if fd' = fd then none else d.file? fd' :=
  file?_filter

theorem isOpen_assign : (d.assign fd file).isOpen fd' = (decide (fd' = fd) || d.isOpen fd') := by
  rw [isOpen, file?_assign]
  by_cases h : fd' = fd <;> simp [h, isOpen]

theorem isOpen_assign_self : (d.assign fd file).isOpen fd = true := by
  simp [isOpen_assign]

theorem close_of_free (h : d.isOpen fd = false) : d.close fd = d := by
  have hfilter : d.entries.filter (·.1 ≠ fd) = d.entries := by
    rw [List.filter_eq_self]
    simpa using isOpen_eq_false_iff.1 h
  rw [close, hfilter]

theorem assign_of_free (h : d.isOpen fd = false) :
    d.assign fd file = { d with entries := (fd, file) :: d.entries } := by
  have hclose : d.entries.filter (·.1 ≠ fd) = d.entries :=
    congrArg Descriptors.entries (close_of_free h)
  rw [assign, hclose]

/-- Closing a number that was free before it was given a file. -/
theorem close_assign (h : d.isOpen fd = false) : (d.assign fd file).close fd = d := by
  have hself : (d.assign fd file).close fd = d.close fd := by
    simp [assign, close, List.filter_filter]
  rw [hself, close_of_free h]

/-- Closing another number comes to the same before and after. -/
theorem close_assign_of_ne (h : fd' ≠ fd) :
    (d.assign fd file).close fd' = (d.close fd').assign fd file := by
  simp only [assign, close, List.filter_filter]
  rw [List.filter_cons_of_pos (by simpa using Ne.symm h), List.filter_filter]
  simp only [Bool.and_comm]

theorem room_assign_of_free (h : d.isOpen fd = false) : (d.assign fd file).room = d.room - 1 := by
  rw [assign_of_free h]
  simp only [room, List.length_cons]
  omega

/-- What is allocated is a free number, if there is room. -/
theorem allocate?_eq_some_iff {start : Nat} {d' : Descriptors} :
    d.allocate? file start = some (fd, d') ↔
      d.room ≠ 0 ∧ fd = d.leastFree start ∧ d' = d.assign fd file := by
  by_cases h : d.room = 0
  · simp [allocate?, h]
  · have hassign := @assign_of_free d (d.leastFree start) file (d.leastFree_free start)
    simp only [allocate?, h, if_false, Option.some.injEq, Prod.mk.injEq, ne_eq, not_false_eq_true,
      true_and]
    constructor
    · rintro ⟨rfl, rfl⟩
      exact ⟨rfl, hassign.symm⟩
    · rintro ⟨rfl, rfl⟩
      exact ⟨rfl, hassign.symm⟩

/-! ### What a table lists -/

theorem holds_iff : d.holds file = true ↔ ∃ fd, (fd, file) ∈ d.entries := by
  simp [holds]

theorem mem_assign {entry : Nat × OpenFile} :
    entry ∈ (d.assign fd file).entries ↔ entry = (fd, file) ∨ entry ∈ d.entries ∧ entry.1 ≠ fd := by
  simp [assign]

theorem mem_close {entry : Nat × OpenFile} :
    entry ∈ (d.close fd).entries ↔ entry ∈ d.entries ∧ entry.1 ≠ fd := by
  simp [close]

/-- A file that a number stands for is listed. -/
theorem holds_of_file? (h : d.file? fd = some file) : d.holds file = true := by
  obtain ⟨before, after, hentries, -⟩ := List.lookup_eq_some_iff.1 h
  refine holds_iff.2 ⟨fd, ?_⟩
  rw [hentries]
  exact List.mem_append_right _ (List.mem_cons_self ..)

/-- What is listed after an assignment is what was listed before, or new. -/
theorem holds_assign {file' : OpenFile} (h : (d.assign fd file).holds file' = true) :
    file' = file ∨ d.holds file' = true := by
  obtain ⟨number, hmem⟩ := holds_iff.1 h
  rcases mem_assign.1 hmem with h | ⟨h, -⟩
  · exact .inl (congrArg Prod.snd h)
  · exact .inr (holds_iff.2 ⟨number, h⟩)

theorem holds_close {file' : OpenFile} (h : (d.close fd).holds file' = true) :
    d.holds file' = true := by
  obtain ⟨number, hmem⟩ := holds_iff.1 h
  exact holds_iff.2 ⟨number, (mem_close.1 hmem).1⟩

/-- Running another program opens nothing. -/
theorem holds_kept (h : d.kept.holds file = true) : d.holds file = true := by
  obtain ⟨number, hmem⟩ := holds_iff.1 h
  exact holds_iff.2 ⟨number, (List.mem_filter.1 hmem).1⟩

/-! ### The table of a stage -/

section Stages

variable {base : Descriptors} {input reader writer : Nat} {pipe : Nat}

/-- The table in which a command is launched that writes a pipe. -/
structure Connected (base : Descriptors) (input : Nat) (file : OpenFile) (reader writer pipe : Nat)
    (d : Descriptors) : Prop where
  input_free : base.isOpen input = false
  reader_free : (base.assign input file).isOpen reader = false
  writer_free :
    ((base.assign input file).assign reader (.pipeReader pipe)).isOpen writer = false
  eq : d = ((base.assign input file).assign reader (.pipeReader pipe)).assign writer
    (.pipeWriter pipe)

namespace Connected

variable {d : Descriptors}

theorem reader_base (h : Connected base input file reader writer pipe d) :
    reader ≠ input ∧ base.isOpen reader = false := by
  simpa [isOpen_assign] using h.reader_free

theorem writer_base (h : Connected base input file reader writer pipe d) :
    writer ≠ reader ∧ writer ≠ input ∧ base.isOpen writer = false := by
  simpa [isOpen_assign] using h.writer_free

/-- The table once the command is there. -/
theorem close_input (h : Connected base input file reader writer pipe d) :
    d.close input = (base.assign reader (.pipeReader pipe)).assign writer (.pipeWriter pipe) := by
  rw [h.eq, close_assign_of_ne (Ne.symm h.writer_base.2.1),
    close_assign_of_ne (Ne.symm h.reader_base.1),
    close_assign h.input_free]

theorem isOpen_input (h : Connected base input file reader writer pipe d) :
    d.isOpen input = true := by
  simp [h.eq, isOpen_assign]

/-- The writing end is still open when the command is there. -/
theorem isOpen_writer (h : Connected base input file reader writer pipe d) :
    (d.close input).isOpen writer = true := by
  rw [h.close_input, isOpen_assign_self]

/-- The table in which the next command is launched. -/
theorem close_writer (h : Connected base input file reader writer pipe d) :
    (d.close input).close writer = base.assign reader (.pipeReader pipe) := by
  rw [h.close_input, close_assign]
  rw [isOpen_assign, h.writer_base.2.2]
  simp [h.writer_base.1]

/-- The table after everything is closed. -/
theorem close_all (h : Connected base input file reader writer pipe d) :
    [input, reader, writer].foldl close d = base := by
  rw [List.foldl_cons, List.foldl_cons, List.foldl_cons, List.foldl_nil, h.close_input,
    close_assign_of_ne (Ne.symm h.writer_base.1),
    close_assign h.reader_base.2, close_assign h.writer_base.2.2]

end Connected

end Stages

end Descriptors

end JobShell
