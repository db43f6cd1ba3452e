/-
**Tables that come to the same.**

Programs know the standard descriptors by their numbers and the others only by what they stand for.
Two tables come to the same for them if the same files stand behind the standard numbers and the
same files are open in all.  Such tables stay alike when both get one more file: if the least free
number of one of them is a standard one, it is that of the other as well.

Main definitions:

* `JobShell.Descriptors.Alike` — two tables with the same files;
* `JobShell.Descriptors.Level` — two numbers that programs do not tell apart;
* `JobShell.Assignment.Alike` — two assignments that come to the same.

Main results:

* `JobShell.Descriptors.le_leastFree`, `JobShell.Descriptors.isOpen_of_lt_leastFree` — the least
  free number is the least;
* `JobShell.Descriptors.Alike.leastFree`, `JobShell.Descriptors.Alike.assign` — **tables stay alike
  when a file is opened**;
* `JobShell.Descriptors.exists_reserve` — a descriptor that no program gets to see.
-/

import JobShell.Host
import JobShell.Proofs.Descriptors

set_option autoImplicit false

namespace JobShell

namespace Descriptors

variable {d e : Descriptors} {fd gd : Nat} {file : OpenFile}

/-! ### The least free number -/

/-- It is searched for from the start on. -/
theorem leastFree_eq (d : Descriptors) (start : Nat) :
    d.leastFree start = start +
      ((List.range (d.entries.length + 1)).find? ((fun fd => !d.isOpen fd) ∘ (start + ·))).getD
        d.entries.length := by
  rw [leastFree, List.find?_map]
  cases (List.range (d.entries.length + 1)).find? ((fun fd => !d.isOpen fd) ∘ (start + ·)) with
  | none => rfl
  | some least => rfl

theorem le_leastFree (d : Descriptors) (start : Nat) : start ≤ d.leastFree start := by
  rw [leastFree_eq]
  exact Nat.le_add_right _ _

/-- **All smaller numbers are in use.** -/
theorem isOpen_of_lt_leastFree {start number : Nat} (hstart : start ≤ number)
    (hless : number < d.leastFree start) : d.isOpen number = true := by
  rw [leastFree_eq] at hless
  cases hfind : (List.range (d.entries.length + 1)).find?
      ((fun fd => !d.isOpen fd) ∘ (start + ·)) with
  | none =>
      rw [hfind, Option.getD_none] at hless
      have hin := List.find?_eq_none.1 hfind (number - start) (List.mem_range.2 (by omega))
      simpa [Nat.add_sub_cancel' hstart] using hin
  | some least =>
      rw [hfind, Option.getD_some] at hless
      have hin := (List.find?_range_eq_some.1 hfind).2.2 (number - start) (by omega)
      simpa [Nat.add_sub_cancel' hstart] using hin

/-! ### Alike tables -/

/-- Two tables with the same files behind the standard numbers, and the same files in all. -/
structure Alike (d e : Descriptors) : Prop where
  standard : ∀ fd < 3, e.file? fd = d.file? fd
  holds : ∀ file, e.holds file = d.holds file

/-- Two numbers that are the same, or both above the standard ones. -/
def Level (fd gd : Nat) : Prop := gd = fd ∨ 3 ≤ fd ∧ 3 ≤ gd

theorem Alike.isOpen (h : d.Alike e) (hfd : fd < 3) : e.isOpen fd = d.isOpen fd := by
  rw [Descriptors.isOpen, Descriptors.isOpen, h.standard fd hfd]

/-- **The least free numbers of alike tables are not told apart.** -/
theorem Alike.leastFree (h : d.Alike e) : Level (d.leastFree 0) (e.leastFree 0) := by
  have hd := d.leastFree_free 0
  have he := e.leastFree_free 0
  -- a standard number that is free in one table is free in the other
  have hle : d.leastFree 0 < 3 → e.leastFree 0 ≤ d.leastFree 0 := by
    intro hless
    by_contra hnot
    have hopen := isOpen_of_lt_leastFree (Nat.zero_le _) (Nat.not_le.1 hnot)
    rw [h.isOpen hless, hd] at hopen
    cases hopen
  have hge : e.leastFree 0 < 3 → d.leastFree 0 ≤ e.leastFree 0 := by
    intro hless
    by_contra hnot
    have hopen := isOpen_of_lt_leastFree (Nat.zero_le _) (Nat.not_le.1 hnot)
    rw [← h.isOpen hless, he] at hopen
    cases hopen
  unfold Level
  omega

theorem holds_assign_of_free {file' : OpenFile} (hfree : d.isOpen fd = false) :
    (d.assign fd file).holds file' = (decide (file = file') || d.holds file') := by
  rw [assign_of_free hfree]
  simp [Descriptors.holds]

/-- **Alike tables stay alike when a file is opened.** -/
theorem Alike.assign (h : d.Alike e) (hlevel : Level fd gd) (hfd : d.isOpen fd = false)
    (hgd : e.isOpen gd = false) : (d.assign fd file).Alike (e.assign gd file) := by
  constructor
  · intro number hnumber
    rw [file?_assign, file?_assign, h.standard number hnumber]
    rcases hlevel with rfl | ⟨hfd, hgd⟩
    · rfl
    · rw [if_neg (by omega), if_neg (by omega)]
  · intro file'
    rw [holds_assign_of_free hfd, holds_assign_of_free hgd, h.holds]

/-- **One more descriptor for a file that is open already** makes no difference to programs, if its
number is none of the standard ones. -/
theorem exists_reserve {start : Nat} (hfile : d.file? fd = some file) (hroom : d.room ≠ 0)
    (hstart : 3 ≤ start) :
    ∃ e, d.reserve? file start = some e ∧ d.Alike e ∧ e.room = d.room - 1 := by
  have hfree := d.leastFree_free start
  have hle := d.le_leastFree start
  refine ⟨{ d.assign (d.leastFree start) file with
    fleeting := d.leastFree start :: d.fleeting }, ?_, ⟨?_, ?_⟩, ?_⟩
  · rw [reserve?, allocate?_eq_some_iff.2 ⟨hroom, rfl, rfl⟩]
    rfl
  · intro number hnumber
    change (d.assign _ file).file? number = _
    rw [file?_assign, if_neg (by omega)]
  · intro file'
    change (d.assign _ file).holds file' = _
    rw [holds_assign_of_free hfree]
    by_cases hsame : file = file'
    · rw [← hsame, holds_of_file? hfile]
      simp
    · simp [hsame]
  · exact room_assign_of_free hfree

/-! ### The tables of a stage -/

namespace Connected

variable {base base' : Descriptors} {input input' reader reader' writer writer' pipe : Nat}

/-- A pipe gets the two least free numbers. -/
theorem of_leastFree (hinput : base.isOpen input = false)
    (hreader : reader = (base.assign input file).leastFree 0)
    (hwriter : writer = ((base.assign input file).assign reader (.pipeReader pipe)).leastFree 0) :
    Connected base input file reader writer pipe
      (((base.assign input file).assign reader (.pipeReader pipe)).assign writer
        (.pipeWriter pipe)) where
  input_free := hinput
  reader_free := hreader ▸ leastFree_free _ 0
  writer_free := hwriter ▸ leastFree_free _ 0
  eq := rfl

theorem file?_input (h : Connected base input file reader writer pipe d) :
    d.file? input = some file := by
  simp [h.eq, file?_assign, Ne.symm h.reader_base.1, Ne.symm h.writer_base.2.1]

theorem file?_reader (h : Connected base input file reader writer pipe d) :
    d.file? reader = some (.pipeReader pipe) := by
  simp [h.eq, file?_assign, Ne.symm h.writer_base.1]

theorem file?_writer (h : Connected base input file reader writer pipe d) :
    d.file? writer = some (.pipeWriter pipe) := by
  simp [h.eq, file?_assign]

end Connected

end Descriptors

/-! ### Assignments -/

namespace Assignment

/-- What a child reads from. -/
def source (a : Assignment) : Option OpenFile := a.descriptors.file? a.input

/-- The two ends of the pipe that a child is to write to. -/
def outlet (a : Assignment) : Option (Option OpenFile × Option OpenFile) :=
  a.pipe.map fun fds => (a.descriptors.file? fds.1, a.descriptors.file? fds.2)

/-- Two assignments of the same command with the same files, whatever their numbers above the
standard ones. -/
structure Alike (a b : Assignment) : Prop where
  command : b.command = a.command
  jobClass : b.jobClass = a.jobClass
  place : b.place = a.place
  source : b.source = a.source
  outlet : b.outlet = a.outlet
  descriptors : a.descriptors.Alike b.descriptors

end Assignment

end JobShell
