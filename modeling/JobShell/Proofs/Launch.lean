/-
**With which descriptors a child runs its program.**

Between its fork and its program a child moves the ends of its pipes and opens the files of its
redirections.  A program is a tree of calls, so what can be said of the descriptors at every `exec`
is defined by recursion over the tree, for every reply that the machine may give.  When a child has
come to its program, its descriptors 0 and 1 are what the last redirection of that direction has
opened, or else the ends of its pipes, and all other descriptors are those that the shell had
before it started the pipeline.

Main definitions:

* `JobShell.Prog.Heeds` — a program that runs another one only with descriptors that are ready;
* `JobShell.Descriptors.Laid` — a table that differs from another one in the descriptors 0 and 1;
* `JobShell.Arrival.Wired` — what a child has when it comes to its program;
* `JobShell.Assignment.Seated` — an assignment for a place in a pipeline.

Main results:

* `JobShell.Launching.redirectAll_leads` — redirections;
* `JobShell.Assignment.arrange_leads` — everything up to running the program;
* `JobShell.Assignment.run_heeds` — the child as a whole.
-/

import JobShell.Launch
import JobShell.Proofs.Machine.Standing

set_option autoImplicit false

namespace JobShell

/-! ### Programs -/

/-- Whether a call is one that a child may make before its program runs: it does not fork, and
runs a program only with descriptors that are ready. -/
def Call.Allowed (ready : Descriptors → List PathOpening → Prop) (d : Descriptors)
    (opened : List PathOpening) : Call → Prop
  | .exec _ _ _ => ready d opened
  | .fork => False
  | _ => True

namespace Prog

variable {ready : Descriptors → List PathOpening → Prop} {α β : Type} {d : Descriptors}
  {opened : List PathOpening}

/-- A program that makes only calls that are allowed, and is done only with `after`. -/
def Heeds (ready : Descriptors → List PathOpening → Prop) {α : Type}
    (after : α → Descriptors → List PathOpening → Prop) :
    Prog α → Descriptors → List PathOpening → Prop
  | .done a, d, opened => after a d opened
  | .call c next, d, opened =>
      c.Allowed ready d opened ∧
        ∀ pipes pipes' reply d' opened', c.Affects pipes pipes' d reply d' opened' →
          Heeds ready after (next reply) d' (opened ++ opened')

theorem Heeds.bind {p : Prog β} {f : β → Prog α} (mid : β → Descriptors → List PathOpening → Prop)
    {after : α → Descriptors → List PathOpening → Prop} (h : p.Heeds ready mid d opened)
    (hf : ∀ b d opened, mid b d opened → (f b).Heeds ready after d opened) :
    (p >>= f).Heeds ready after d opened := by
  induction p generalizing d opened with
  | done b => exact hf b d opened h
  | call c next ih =>
      exact ⟨h.1, fun pipes pipes' reply d' opened' ha => ih reply (h.2 pipes pipes' reply d' opened' ha)⟩

theorem Heeds.mono {p : Prog α} {ready' : Descriptors → List PathOpening → Prop}
    {after after' : α → Descriptors → List PathOpening → Prop} (h : p.Heeds ready after d opened)
    (hready : ∀ d opened, ready d opened → ready' d opened)
    (hafter : ∀ a d opened, after a d opened → after' a d opened) :
    p.Heeds ready' after' d opened := by
  induction p generalizing d opened with
  | done a => exact hafter a d opened h
  | call c next ih =>
      refine ⟨?_, fun pipes pipes' reply d' opened' ha => ih reply (h.2 pipes pipes' reply d' opened' ha)⟩
      cases c with
      | exec path words environment => exact hready d opened h.1
      | fork => exact h.1
      | _ => trivial

theorem Heeds.ite {b : Prop} [Decidable b] {p q : Prog α}
    {after : α → Descriptors → List PathOpening → Prop} (hp : p.Heeds ready after d opened)
    (hq : q.Heeds ready after d opened) : (if b then p else q).Heeds ready after d opened := by
  split
  · exact hp
  · exact hq

/-- A single call. -/
theorem Heeds.ask {c : Call} {after : c.Reply → Descriptors → List PathOpening → Prop}
    (hc : c.Allowed ready d opened)
    (h : ∀ pipes pipes' reply d' opened', c.Affects pipes pipes' d reply d' opened' →
      after reply d' (opened ++ opened')) :
    (Prog.ask c).Heeds ready after d opened :=
  ⟨hc, h⟩

theorem Heeds.repeatFor {s : Type} {body : s → Prog (s ⊕ α)} {otherwise : s → α}
    (h : ∀ state d opened, (body state).Heeds ready (fun _ _ _ => True) d opened) (n : Nat)
    (state : s) (d : Descriptors) (opened : List PathOpening) :
    (Prog.repeatFor body otherwise n state).Heeds ready (fun _ _ _ => True) d opened := by
  induction n generalizing state d opened with
  | zero => trivial
  | succ n ih =>
      refine Heeds.bind _ (h state d opened) ?_
      rintro (state | value) d opened -
      · exact ih state d opened
      · trivial

theorem writeAll_heeds (fd : Nat) (bytes : Bytes) (d : Descriptors) (opened : List PathOpening) :
    (Prog.writeAll fd bytes).Heeds ready (fun _ _ _ => True) d opened := by
  refine Heeds.repeatFor ?_ _ bytes d opened
  intro rest d opened
  split
  · trivial
  · refine Heeds.bind (fun _ _ _ => True) (Heeds.ask trivial fun _ _ _ _ _ _ => trivial) ?_
    rintro (errno | n) d opened -
    · trivial
    · trivial

/-- Running the file of a path: the descriptors are ready, and stay so if that fails. -/
theorem execFile_heeds (path : Bytes) (words : List Bytes) (environment : Environment)
    (h : ready d opened) :
    (Prog.execFile path words environment).Heeds ready (fun _ => ready) d opened := by
  have hask : ∀ path words d opened, ready d opened →
      (Prog.ask (.exec path words environment)).Heeds ready (fun _ => ready) d opened := by
    intro path words d opened h
    refine Heeds.ask h ?_
    rintro pipes pipes' reply _ _ ⟨rfl, rfl⟩
    simpa using h
  refine Heeds.bind _ (hask path words d opened h) fun errno d opened h => ?_
  exact Heeds.ite (hask _ _ d opened h) h

theorem searchIn_heeds (name : Bytes) (words : List Bytes) (environment : Environment)
    (denied : Bool) (directories : List Bytes) (h : ready d opened) :
    (Prog.searchIn name words environment denied directories).Heeds ready (fun _ => ready) d
      opened := by
  induction directories generalizing denied d opened with
  | nil => exact h
  | cons directory rest ih =>
      refine Heeds.bind _ (execFile_heeds _ words environment h) fun errno d opened h => ?_
      split
      · exact ih _ h
      · exact h

/-- **A program that is searched for** is tried with descriptors that are ready. -/
theorem execSearching_heeds (name : Bytes) (words : List Bytes) (environment : Environment)
    (h : ready d opened) :
    (Prog.execSearching name words environment).Heeds ready (fun _ => ready) d opened := by
  unfold execSearching execFrom
  split
  · exact h
  · split
    · exact execFile_heeds name words environment h
    · split
      · exact h
      · exact searchIn_heeds name words environment false _ h

end Prog

/-! ### Steps that end with the first error -/

namespace Launching

variable {ready : Descriptors → List PathOpening → Prop} {α β : Type} {d : Descriptors}
  {opened : List PathOpening}

/-- Steps that, if none of them fails, are done with `after`. -/
def Leads (ready : Descriptors → List PathOpening → Prop)
    (after : α → Descriptors → List PathOpening → Prop) (x : Launching α) (d : Descriptors)
    (opened : List PathOpening) : Prop :=
  Prog.Heeds ready (fun r d opened => ∀ a, r = .ok a → after a d opened) x.run d opened

theorem Leads.ofPure {a : α} {after : α → Descriptors → List PathOpening → Prop}
    (h : after a d opened) : Leads ready after (pure a) d opened := by
  rintro _ ⟨⟩
  exact h

theorem Leads.bind {x : Launching β} {f : β → Launching α}
    (mid : β → Descriptors → List PathOpening → Prop)
    {after : α → Descriptors → List PathOpening → Prop} (h : Leads ready mid x d opened)
    (hf : ∀ b d opened, mid b d opened → Leads ready after (f b) d opened) :
    Leads ready after (x >>= f) d opened := by
  refine Prog.Heeds.bind _ h ?_
  rintro (e | b) d opened hmid
  · rintro _ ⟨⟩
  · exact hf b d opened (hmid b rfl)

theorem Leads.post {x : Launching α} {after after' : α → Descriptors → List PathOpening → Prop}
    (h : Leads ready after x d opened)
    (hafter : ∀ a d opened, after a d opened → after' a d opened) :
    Leads ready after' x d opened :=
  Prog.Heeds.mono h (fun _ _ => id) fun _ d opened h a ha => hafter a d opened (h a ha)

/-- A call that fails ends the steps. -/
theorem demand_leads {reply : Prog (Except Errno α)} {cause : Errno → LaunchError}
    {after : α → Descriptors → List PathOpening → Prop}
    (h : reply.Heeds ready (fun r d opened => ∀ a, r = .ok a → after a d opened) d opened) :
    Leads ready after (demand reply cause) d opened := by
  refine Prog.Heeds.bind _ h ?_
  rintro (errno | a) d opened hafter
  · rintro _ ⟨⟩
  · rintro _ ⟨⟩
    exact hafter a rfl

theorem close_leads (fd : Nat) :
    Leads ready (fun _ d' opened' => d' = d.close fd ∧ opened' = opened) (Launching.close fd) d
      opened := by
  refine demand_leads (Prog.Heeds.ask trivial ?_)
  rintro pipes pipes' reply d' opened' haffects a rfl
  obtain ⟨rfl, rfl⟩ := haffects
  exact ⟨rfl, by simp⟩

/-- Moving a descriptor to another number. -/
theorem move_leads {old new : Nat} (hne : old ≠ new) :
    Leads ready (fun _ d' opened' =>
        ∃ file, d.file? old = some file ∧ d' = (d.assign new file).close old ∧ opened' = opened)
      (move old new) d opened := by
  unfold move
  rw [if_neg hne]
  refine Leads.bind (fun _ d' opened' =>
    ∃ file, d.file? old = some file ∧ d' = d.assign new file ∧ opened' = opened) ?_ ?_
  · refine demand_leads (Prog.Heeds.ask trivial ?_)
    rintro pipes pipes' reply d' opened' haffects a rfl
    obtain ⟨file, hfile, rfl, rfl⟩ := haffects
    exact ⟨file, hfile, by rw [if_neg hne], by simp⟩
  · rintro _ _ _ ⟨file, hfile, rfl, rfl⟩
    refine Leads.post (close_leads old) ?_
    rintro _ _ _ ⟨rfl, rfl⟩
    exact ⟨file, hfile, rfl, rfl⟩

theorem dispose_leads (signal : Nat) (disposition : Disposition) :
    Leads ready (fun _ d' opened' => d' = d ∧ opened' = opened) (dispose signal disposition) d
      opened := by
  refine demand_leads (Prog.Heeds.ask trivial ?_)
  rintro pipes pipes' reply d' opened' ⟨rfl, rfl⟩ a -
  exact ⟨rfl, by simp⟩

/-- The signals are none of the descriptors' business. -/
theorem restoreSignals_leads :
    Leads ready (fun _ d' opened' => d' = d ∧ opened' = opened) restoreSignals d opened := by
  refine Leads.bind _ (dispose_leads _ _) ?_
  rintro _ _ _ ⟨rfl, rfl⟩
  refine Leads.bind _ (dispose_leads _ _) ?_
  rintro _ _ _ ⟨rfl, rfl⟩
  refine Leads.bind _ (dispose_leads _ _) ?_
  rintro _ _ _ ⟨rfl, rfl⟩
  refine demand_leads (Prog.Heeds.ask trivial ?_)
  rintro pipes pipes' reply d' opened' ⟨rfl, rfl⟩ a -
  exact ⟨rfl, by simp⟩

end Launching

/-! ### Redirections -/

/-- The file that was opened last among those opened in some way. -/
def latest (kind : OpenMode → Bool) (opened : List PathOpening) (otherwise : OpenFile) : OpenFile :=
  (((opened.filter fun o => kind o.how).getLast?).map (·.file)).getD otherwise

theorem latest_append (kind : OpenMode → Bool) (opened : List PathOpening) (o : PathOpening)
    (otherwise : OpenFile) :
    latest kind (opened ++ [o]) otherwise =
      if kind o.how then o.file else latest kind opened otherwise := by
  unfold latest
  by_cases h : kind o.how = true
  · simp [h]
  · simp [h]

/-- What is opened is `otherwise`, or has been opened by its path. -/
theorem latest_mem (kind : OpenMode → Bool) (opened : List PathOpening) (otherwise : OpenFile) :
    latest kind opened otherwise = otherwise ∨
      ∃ o ∈ opened, o.file = latest kind opened otherwise := by
  unfold latest
  cases hlast : (opened.filter fun o => kind o.how).getLast? with
  | none => exact .inl rfl
  | some o =>
      have hmem := List.mem_of_getLast? hlast
      exact .inr ⟨o, (List.mem_filter.1 hmem).1, rfl⟩

namespace Descriptors

variable {base d : Descriptors} {source sink file : OpenFile}

/-- A table that differs from `base` in what stands behind 0 and 1. -/
structure Laid (base : Descriptors) (source sink : OpenFile) (d : Descriptors) : Prop where
  file : ∀ fd, d.file? fd =
    if fd = 0 then some source else if fd = 1 then some sink else base.file? fd
  entries : ∀ entry ∈ d.entries,
    entry = (0, source) ∨ entry = (1, sink) ∨ entry ∈ base.entries

namespace Laid

/-- The table of the shell, with another file behind 0. -/
theorem of_base (hsink : base.file? 1 = some sink) : Laid base source sink (base.assign 0 source) := by
  constructor
  · intro fd
    rw [file?_assign]
    by_cases h1 : fd = 1
    · simp [h1, hsink]
    · simp [h1]
  · intro entry hentry
    rcases mem_assign.1 hentry with h | ⟨h, -⟩
    · exact .inl h
    · exact .inr (.inr h)

theorem of_base_pipe : Laid base source sink ((base.assign 0 source).assign 1 sink) := by
  constructor
  · intro fd
    rw [file?_assign, file?_assign]
    by_cases h0 : fd = 0
    · simp [h0]
    · simp [h0]
  · intro entry hentry
    rcases mem_assign.1 hentry with h | ⟨h, -⟩
    · exact .inr (.inl h)
    · rcases mem_assign.1 h with h | ⟨h, -⟩
      · exact .inl h
      · exact .inr (.inr h)

theorem assign_zero (h : Laid base source sink d) : Laid base file sink (d.assign 0 file) := by
  constructor
  · intro fd
    rw [file?_assign, h.file]
    by_cases h0 : fd = 0 <;> simp [h0]
  · intro entry hentry
    rcases mem_assign.1 hentry with hentry | ⟨hentry, hne⟩
    · exact .inl hentry
    · rcases h.entries entry hentry with rfl | hentry | hentry
      · exact absurd rfl hne
      · exact .inr (.inl hentry)
      · exact .inr (.inr hentry)

theorem assign_one (h : Laid base source sink d) : Laid base source file (d.assign 1 file) := by
  constructor
  · intro fd
    rw [file?_assign, h.file]
    by_cases h0 : fd = 0
    · simp [h0]
    · by_cases h1 : fd = 1 <;> simp [h1, h0]
  · intro entry hentry
    rcases mem_assign.1 hentry with hentry | ⟨hentry, hne⟩
    · exact .inr (.inl hentry)
    · rcases h.entries entry hentry with hentry | rfl | hentry
      · exact .inl hentry
      · exact absurd rfl hne
      · exact .inr (.inr hentry)

/-- What the table lists. -/
theorem holds (h : Laid base source sink d) (hfile : d.holds file = true) :
    file = source ∨ file = sink ∨ base.holds file = true := by
  obtain ⟨fd, hmem⟩ := holds_iff.1 hfile
  rcases h.entries _ hmem with h | h | h
  · exact .inl (congrArg Prod.snd h)
  · exact .inr (.inl (congrArg Prod.snd h))
  · exact .inr (.inr (holds_iff.2 ⟨fd, h⟩))

/-- The standard streams stay open. -/
theorem isOpen_standard (h : Laid base source sink d) (direction : Direction) :
    d.isOpen (Launching.standard direction) = true := by
  cases direction <;> simp [Descriptors.isOpen, h.file, Launching.standard]

end Laid

/-- Moving a descriptor that was free before it was given its file. -/
theorem close_assign_assign {fd new : Nat} (hfree : d.isOpen fd = false) (hne : fd ≠ new) :
    ((d.assign fd file).assign new file).close fd = d.assign new file := by
  rw [close_assign_of_ne hne, close_assign hfree]

end Descriptors

namespace Launching

open Descriptors (Laid)

variable {ready : Descriptors → List PathOpening → Prop} {base d : Descriptors}
  {source sink : OpenFile} {opened : List PathOpening}

/-- The tables that come with what has been opened. -/
def Redirected (base : Descriptors) (source sink : OpenFile) (d : Descriptors)
    (opened : List PathOpening) : Prop :=
  Laid base (latest (·.read) opened source) (latest (·.write) opened sink) d

/-- One redirection. -/
theorem redirect_leads (r : Redirection) (h : Redirected base source sink d opened) :
    Leads ready (fun _ d' opened' => Redirected base source sink d' opened' ∧
        ∃ file, opened' = opened ++ [⟨r.target, openMode r.direction, file⟩])
      (redirect r) d opened := by
  refine Leads.bind (fun fd d' opened' => d.isOpen fd = false ∧ ∃ file,
    d' = d.assign fd file ∧ opened' = opened ++ [⟨r.target, openMode r.direction, file⟩]) ?_ ?_
  · refine demand_leads (Prog.Heeds.ask trivial ?_)
    rintro pipes pipes' reply d' opened' haffects fd rfl
    obtain ⟨file, hfree, rfl, rfl⟩ := haffects
    exact ⟨hfree, file, rfl, rfl⟩
  · rintro fd _ _ ⟨hfree, file, rfl, rfl⟩
    have hne : fd ≠ standard r.direction := by
      rintro rfl
      rw [Laid.isOpen_standard h] at hfree
      cases hfree
    refine Leads.post (move_leads hne) ?_
    rintro _ _ _ ⟨file', hfile', rfl, rfl⟩
    obtain rfl : file = file' := by simpa [Descriptors.file?_assign] using hfile'
    refine ⟨?_, file, rfl⟩
    rw [Descriptors.close_assign_assign hfree hne, Redirected, latest_append, latest_append]
    cases hdirection : r.direction with
    | input => exact Laid.assign_zero h
    | output | append => exact Laid.assign_one h

/-- **Redirections.**  The last one of each direction counts. -/
theorem redirectAll_leads (rs : List Redirection) (h : Redirected base source sink d opened) :
    Leads ready (fun _ d' opened' => Redirected base source sink d' opened' ∧
        opened'.map (fun o => (o.path, o.how)) = opened.map (fun o => (o.path, o.how)) ++
          rs.map fun r => (r.target, openMode r.direction))
      (redirectAll rs) d opened := by
  induction rs generalizing d opened with
  | nil => exact Leads.ofPure ⟨h, by simp⟩
  | cons r rs ih =>
      refine Leads.bind _ (redirect_leads r h) ?_
      rintro _ d' _ ⟨h', file, rfl⟩
      refine Leads.post (ih h') ?_
      rintro _ _ _ ⟨h'', hopened⟩
      exact ⟨h'', by simpa using hopened⟩

end Launching

/-! ### The child -/

/-- What a child has when it comes to its program: the files of its redirections have been opened
in order, and behind 0 and 1 stand the last of them, or else the ends of its pipes. -/
structure Arrival.Wired (base : Descriptors) (redirections : List Redirection)
    (source sink : OpenFile) (a : Arrival) : Prop where
  opened : a.opened.map (fun o => (o.path, o.how)) =
    redirections.map fun r => (r.target, Launching.openMode r.direction)
  laid : base.Laid (latest (·.read) a.opened source) (latest (·.write) a.opened sink) a.descriptors

namespace Assignment

open Descriptors (Connected Laid)
open Launching (Leads Redirected)

/-- An assignment for a place in a pipeline of a shell with the table `base`: the child is to read
from `source` and to write to `sink`. -/
inductive Seated (base : Descriptors) (source sink : OpenFile) (a : Assignment) : Prop where
  | last : a.pipe = none → base.isOpen a.input = false →
      a.descriptors = base.assign a.input source → base.file? 1 = some sink →
        Seated base source sink a
  | writer {reader writer pipe : Nat} : a.pipe = some (reader, writer) →
      Connected base a.input source reader writer pipe a.descriptors → sink = .pipeWriter pipe →
        Seated base source sink a

variable {ready : Descriptors → List PathOpening → Prop} {base : Descriptors}
  {source sink : OpenFile} {a : Assignment}

/-- The table of the last child of a pipeline once its input is in place. -/
theorem Seated.laid_last (hfree : base.isOpen a.input = false) (hinput : a.input ≠ 0)
    (hd : a.descriptors = base.assign a.input source) (hsink : base.file? 1 = some sink) :
    base.Laid source sink ((a.descriptors.assign 0 source).close a.input) := by
  rw [hd, Descriptors.close_assign_assign hfree hinput]
  exact Laid.of_base hsink

section Writer

variable {reader writer pipe : Nat}

/-- The table of a child that writes a pipe once its input is in place. -/
theorem Seated.moved_input (hinput : a.input ≠ 0)
    (h : Connected base a.input source reader writer pipe a.descriptors) :
    (a.descriptors.assign 0 source).close a.input =
      ((base.assign reader (.pipeReader pipe)).assign writer (.pipeWriter pipe)).assign 0
        source := by
  rw [Descriptors.close_assign_of_ne hinput, h.close_input]

/-- The table of a child that writes a pipe once all is in place. -/
theorem Seated.laid_writer (h : Connected base a.input source reader writer pipe a.descriptors)
    (hreader : reader ≠ 0 ∧ reader ≠ 1) (hwriter : writer ≠ 0 ∧ writer ≠ 1) :
    base.Laid source (.pipeWriter pipe)
      ((((((base.assign reader (.pipeReader pipe)).assign writer (.pipeWriter pipe)).assign 0
        source).assign 1 (.pipeWriter pipe)).close writer).close reader) := by
  obtain ⟨-, hreader_free⟩ := h.reader_base
  obtain ⟨hne, -, hwriter_free⟩ := h.writer_base
  have hwriter_closed : (base.assign reader (.pipeReader pipe)).isOpen writer = false := by
    simp [Descriptors.isOpen_assign, hne, hwriter_free]
  rw [Descriptors.close_assign_of_ne hwriter.2, Descriptors.close_assign_of_ne hwriter.1,
    Descriptors.close_assign hwriter_closed, Descriptors.close_assign_of_ne hreader.2,
    Descriptors.close_assign_of_ne hreader.1, Descriptors.close_assign hreader_free]
  exact Laid.of_base_pipe

/-- The input of a child that writes a pipe. -/
theorem Seated.file?_input (h : Connected base a.input source reader writer pipe a.descriptors) :
    a.descriptors.file? a.input = some source := by
  simp [h.eq, Descriptors.file?_assign, Ne.symm h.reader_base.1, Ne.symm h.writer_base.2.1]

end Writer

/-- A number that is free is none of the standard streams. -/
theorem standard_of_free (h0 : base.isOpen 0 = true) (h1 : base.isOpen 1 = true) {fd : Nat}
    (hfree : base.isOpen fd = false) : fd ≠ 0 ∧ fd ≠ 1 := by
  constructor <;> rintro rfl
  · simp [h0] at hfree
  · simp [h1] at hfree

/-- The ends of the pipes are put in place, and nothing is left of them under other numbers. -/
theorem connect_leads (h : a.Seated base source sink) (h0 : base.isOpen 0 = true)
    (h1 : base.isOpen 1 = true) :
    Leads ready (fun _ d opened => base.Laid source sink d ∧ opened = []) a.connect a.descriptors
      [] := by
  unfold connect
  cases h with
  | last hpipe hfree hd hsink =>
      have hinput := (standard_of_free h0 h1 hfree).1
      refine Leads.bind _ (Launching.move_leads hinput) ?_
      rintro _ _ _ ⟨file, hfile, rfl, rfl⟩
      obtain rfl : source = file := by simpa [hd, Descriptors.file?_assign] using hfile
      rw [hpipe]
      exact Leads.ofPure ⟨Seated.laid_last hfree hinput hd hsink, rfl⟩
  | @writer reader writer pipe hpipe hconnected hsink =>
      have hinput := (standard_of_free h0 h1 hconnected.input_free).1
      have hreader := standard_of_free h0 h1 hconnected.reader_base.2
      have hwriter := standard_of_free h0 h1 hconnected.writer_base.2.2
      refine Leads.bind _ (Launching.move_leads hinput) ?_
      rintro _ _ _ ⟨file, hfile, rfl, rfl⟩
      obtain rfl : source = file := by simpa [Seated.file?_input hconnected] using hfile
      rw [hpipe, Seated.moved_input hinput hconnected]
      refine Leads.bind _ (Launching.move_leads hwriter.2) ?_
      rintro _ _ _ ⟨file, hfile, rfl, rfl⟩
      obtain rfl : .pipeWriter pipe = file := by
        simpa [Descriptors.file?_assign, hwriter.1] using hfile
      refine Leads.post (Launching.close_leads reader) ?_
      rintro _ _ _ ⟨rfl, rfl⟩
      rw [hsink]
      exact ⟨Seated.laid_writer hconnected hreader hwriter, rfl⟩

/-- **Everything up to running the program.** -/
theorem arrange_leads (h : a.Seated base source sink) (h0 : base.isOpen 0 = true)
    (h1 : base.isOpen 1 = true) :
    Leads ready (fun _ d opened =>
        Arrival.Wired base a.command.redirections source sink ⟨d, opened⟩)
      a.arrange a.descriptors [] := by
  unfold arrange
  extract_lets rest
  have hrest : Leads ready (fun _ d opened =>
      Arrival.Wired base a.command.redirections source sink ⟨d, opened⟩)
      (rest ⟨⟩) a.descriptors [] := by
    refine Leads.bind _ Launching.restoreSignals_leads ?_
    rintro _ _ _ ⟨rfl, rfl⟩
    refine Leads.bind _ (connect_leads h h0 h1) ?_
    rintro _ d _ ⟨hlaid, rfl⟩
    refine Leads.bind (fun command d' opened =>
      command = a.command ∧ d' = d ∧ opened = []) ?_ ?_
    · unfold Command.prepare
      rintro command hcommand
      split at hcommand
      · cases hcommand
      · cases hcommand
        exact ⟨rfl, rfl, rfl⟩
    · rintro _ d' _ ⟨rfl, rfl, rfl⟩
      have hredirected : Redirected base source sink d' [] := hlaid
      refine Leads.bind _ (Launching.redirectAll_leads a.command.redirections hredirected) ?_
      rintro _ d'' opened ⟨hlaid', hopened⟩
      exact Leads.ofPure ⟨by simpa using hopened, hlaid'⟩
  split
  · refine Leads.bind (fun _ d opened => d = a.descriptors ∧ opened = []) ?_ ?_
    · refine Launching.demand_leads (Prog.Heeds.ask trivial ?_)
      rintro pipes pipes' reply d opened ⟨rfl, rfl⟩ b -
      exact ⟨rfl, rfl⟩
    · rintro _ _ _ ⟨rfl, rfl⟩
      exact hrest
  · exact hrest

/-- **The child as a whole.**  It runs its program, under whichever of its paths, only with the
descriptors that it should have, and before that it does not fork. -/
theorem run_heeds (h : a.Seated base source sink) (h0 : base.isOpen 0 = true)
    (h1 : base.isOpen 1 = true) (environment : Environment) :
    Prog.Heeds
      (fun d opened => Arrival.Wired base a.command.redirections source sink ⟨d, opened⟩)
      (fun _ _ _ => True) (a.run environment) a.descriptors [] := by
  have hlaunch : Prog.Heeds
      (fun d opened => Arrival.Wired base a.command.redirections source sink ⟨d, opened⟩)
      (fun _ _ _ => True) (a.launch environment) a.descriptors [] := by
    refine Prog.Heeds.bind _ (arrange_leads h h0 h1) ?_
    rintro (e | command) d opened hready
    · trivial
    · refine Prog.Heeds.bind _ (Prog.execSearching_heeds _ _ environment (hready command rfl)) ?_
      exact fun _ _ _ _ => trivial
  refine Prog.Heeds.bind _ hlaunch fun e d opened _ => ?_
  exact Prog.Heeds.bind _ (Prog.writeAll_heeds 2 _ d opened) fun _ _ _ _ => trivial

end Assignment

end JobShell
