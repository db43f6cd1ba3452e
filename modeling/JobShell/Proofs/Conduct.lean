/-
**What a child does until it runs its program, or gives up.**

A child of the shell closes and moves descriptors, opens the files of its redirections and tries to
run its program.  Whatever replies it gets, it does nothing else: it says nothing, forks nobody and
does not end.  If a word holds a NUL byte, if it is refused a file, or if it is refused its program as
often as it looks for it, it comes to the reason of that; the calls for its descriptors and signals do
not fail.

The table with which it comes to its program depends on its place in the pipeline and on the files
that it has opened, and on nothing else.

Main definitions:

* `JobShell.Prog.Abides` — a program whose calls are all permitted, for every reply;
* `JobShell.Prog.Refused` — what is left of a search for a program after some refusals;
* `JobShell.Assignment.connected` — the table of a child once its pipes are in place;
* `JobShell.Assignment.Ready` — what a child has when it tries to run its program, and which file it
  tries with which words;
* `JobShell.Assignment.Hindered` — why a command cannot be launched;
* `JobShell.Assignment.Permits` — the calls of a child on the way to its program.

Main results:

* `JobShell.Prog.OnlyRuns.abides` — the search for a program;
* `JobShell.Launching.redirectAll_yields` — redirections;
* `JobShell.Assignment.Able.settle_abides` — everything up to the program, or to the reason why there is
  none.
-/

import JobShell.Proofs.Launch
import JobShell.Proofs.Machine.Deeds

set_option autoImplicit false

namespace JobShell

/-- How far a child has come: what it has now, and what could be noticed of it. -/
structure Trail extends Arrival where
  deeds : List Machine.Deed

/-- A call has been made, with some reply. -/
def Trail.after (t : Trail) (c : Call) (reply : c.Reply) (d : Descriptors)
    (opened : List PathOpening) : Trail :=
  ⟨⟨d, t.opened ++ opened⟩, t.deeds ++ c.deeds t.descriptors reply⟩

/-- A call of which nothing can be noticed, and which opens no file. -/
theorem Trail.after_eq {t : Trail} {c : Call} {reply : c.Reply} (d : Descriptors)
    (hdeeds : c.deeds t.descriptors reply = []) :
    t.after c reply d [] = { t with descriptors := d } := by
  rw [after, hdeeds, List.append_nil, List.append_nil]

/-! ### Programs -/

namespace Prog

variable {rule : Call → Trail → Prop} {α β : Type} {t : Trail}

/-- A program that makes only calls that are permitted, whatever replies it gets, and is done only
with `after`. -/
def Abides (rule : Call → Trail → Prop) {α : Type} (after : α → Trail → Prop) :
    Prog α → Trail → Prop
  | .done a, t => after a t
  | .call c next, t =>
      rule c t ∧
        ∀ pipes pipes' reply d opened, c.Affects pipes pipes' t.descriptors reply d opened →
          c.Grants True t.descriptors reply →
            Abides rule after (next reply) (t.after c reply d opened)

theorem Abides.bind {x : Prog β} {f : β → Prog α} (mid : β → Trail → Prop)
    {after : α → Trail → Prop} (h : x.Abides rule mid t)
    (hf : ∀ b t, mid b t → (f b).Abides rule after t) : (x >>= f).Abides rule after t := by
  induction x generalizing t with
  | done b => exact hf b t h
  | call c next ih =>
      exact ⟨h.1, fun pipes pipes' reply d opened ha hg =>
        ih reply (h.2 pipes pipes' reply d opened ha hg)⟩

theorem Abides.post {x : Prog α} {after after' : α → Trail → Prop} (h : x.Abides rule after t)
    (hafter : ∀ a t, after a t → after' a t) : x.Abides rule after' t := by
  induction x generalizing t with
  | done a => exact hafter a t h
  | call c next ih =>
      exact ⟨h.1, fun pipes pipes' reply d opened ha hg =>
        ih reply (h.2 pipes pipes' reply d opened ha hg)⟩

/-- A single call. -/
theorem Abides.ask {c : Call} {after : c.Reply → Trail → Prop} (hc : rule c t)
    (h : ∀ pipes pipes' reply d opened, c.Affects pipes pipes' t.descriptors reply d opened →
      c.Grants True t.descriptors reply → after reply (t.after c reply d opened)) :
    (Prog.ask c).Abides rule after t :=
  ⟨hc, h⟩

/-! ### The search for a program -/

/-- What is left of a program when its first calls were for programs, and all have been refused. -/
inductive Refused {α : Type} : Prog α → List Machine.Deed → Prog α → Prop where
  | nil (x : Prog α) : Refused x [] x
  | snoc {x : Prog α} {refusals : List Machine.Deed} {path : Bytes} {words : List Bytes}
      {environment : Environment} {next : Errno → Prog α} (errno : Errno) :
      Refused x refusals (.call (.exec path words environment) next) →
        Refused x (refusals ++ [.barred path words environment errno]) (next errno)

theorem Refused.isRefusal {x y : Prog α} {refusals : List Machine.Deed} (h : x.Refused refusals y) :
    ∀ deed ∈ refusals, deed.IsRefusal := by
  induction h with
  | nil => simp
  | snoc errno _ ih =>
      intro deed hdeed
      rcases List.mem_append.1 hdeed with hdeed | hdeed
      · exact ih deed hdeed
      · obtain rfl := List.mem_singleton.1 hdeed
        trivial

/-- A program that does nothing but try to run some files, each with some words and variables. -/
def OnlyRuns (tries : Bytes → List Bytes → Environment → Prop) : Prog α → Prop
  | .done _ => True
  | .call (.exec path words environment) next =>
      tries path words environment ∧ ∀ errno, OnlyRuns tries (next errno)
  | .call _ _ => False

variable {tries : Bytes → List Bytes → Environment → Prop}

theorem OnlyRuns.bind {x : Prog β} {f : β → Prog α} (h : x.OnlyRuns tries)
    (hf : ∀ b, (f b).OnlyRuns tries) : (x >>= f).OnlyRuns tries := by
  induction x with
  | done b => exact hf b
  | call c next ih =>
      cases c with
      | exec path words environment => exact ⟨h.1, fun errno => ih errno (h.2 errno)⟩
      | _ => exact h.elim

theorem OnlyRuns.ite {b : Prop} [Decidable b] {x y : Prog α} (hx : b → x.OnlyRuns tries)
    (hy : ¬ b → y.OnlyRuns tries) : (if b then x else y).OnlyRuns tries := by
  split
  · exact hx ‹_›
  · exact hy ‹_›

/-- **A search for a program** leaves what the child has as it was, and only its refusals can be
noticed. -/
theorem OnlyRuns.abides {x y : Prog α} {refusals : List Machine.Deed} (hy : y.OnlyRuns tries)
    (hxy : x.Refused refusals y)
    (hrule : ∀ refusals path words environment next, tries path words environment →
      x.Refused refusals (.call (.exec path words environment) next) →
        rule (.exec path words environment) { t with deeds := refusals }) :
    y.Abides rule (fun a t' => ∃ refusals, x.Refused refusals (.done a) ∧
      t' = { t with deeds := refusals }) { t with deeds := refusals } := by
  induction y generalizing refusals with
  | done a => exact ⟨refusals, hxy, rfl⟩
  | call c next ih =>
      cases c with
      | exec path words environment =>
          refine ⟨hrule _ _ _ _ _ hy.1 hxy, ?_⟩
          rintro pipes pipes' errno _ _ ⟨rfl, rfl⟩ -
          have hrest := ih errno (hy.2 errno) (.snoc errno hxy)
          rw [Trail.after, List.append_nil]
          exact hrest
      | _ => exact hy.elim

/-- The paths under which a program is looked for. -/
def paths (directories : List Bytes) (name : Bytes) : List Bytes :=
  if slash ∈ name then [name]
  else directories.map fun directory => if directory = [] then name else directory ++ slash :: name

/-- The files that are tried for a program, with the words that they are given: its own, or those of
a script. -/
def attempts (name : Bytes) (words : List Bytes) (environment : Environment) :
    List (Bytes × List Bytes) :=
  (paths (searchPath environment) name).flatMap fun path =>
    [(path, words), (scriptShell, scriptShell :: path :: words.drop 1)]

theorem execFile_onlyRuns {path : Bytes} {words : List Bytes} {environment : Environment}
    (hpath : tries path words environment)
    (hscript : tries scriptShell (scriptShell :: path :: words.drop 1) environment) :
    (execFile path words environment).OnlyRuns tries := by
  have hask : ∀ path words, tries path words environment →
      (Prog.ask (.exec path words environment)).OnlyRuns tries :=
    fun path words htries => ⟨htries, fun _ => trivial⟩
  refine OnlyRuns.bind (hask path words hpath) fun errno => ?_
  exact OnlyRuns.ite (fun _ => hask _ _ hscript) fun _ => trivial

theorem searchIn_onlyRuns {name : Bytes} {words : List Bytes} {environment : Environment}
    {directories : List Bytes} (denied : Bool)
    (htries : ∀ directory ∈ directories, ∀ path,
      path = (if directory = [] then name else directory ++ slash :: name) →
        tries path words environment ∧
          tries scriptShell (scriptShell :: path :: words.drop 1) environment) :
    (searchIn name words environment denied directories).OnlyRuns tries := by
  induction directories generalizing denied with
  | nil => trivial
  | cons directory rest ih =>
      obtain ⟨hpath, hscript⟩ := htries directory (List.mem_cons_self ..) _ rfl
      refine OnlyRuns.bind (execFile_onlyRuns hpath hscript) fun errno => ?_
      exact OnlyRuns.ite
        (fun _ => ih _ fun directory hmem => htries directory (List.mem_cons_of_mem _ hmem))
        fun _ => trivial

/-- **A program is searched for** by the attempts for it, and by nothing else. -/
theorem execSearching_onlyRuns (name : Bytes) (words : List Bytes) (environment : Environment) :
    (execSearching name words environment).OnlyRuns fun path words' environment' =>
      (path, words') ∈ attempts name words environment ∧ environment' = environment := by
  have hpaths : ∀ path ∈ paths (searchPath environment) name,
      ((path, words) ∈ attempts name words environment ∧ environment = environment) ∧
        (scriptShell, scriptShell :: path :: words.drop 1) ∈ attempts name words environment ∧
          environment = environment := by
    intro path hpath
    exact ⟨⟨List.mem_flatMap.2 ⟨path, hpath, by simp⟩, rfl⟩,
      List.mem_flatMap.2 ⟨path, hpath, by simp⟩, rfl⟩
  unfold execSearching execFrom
  refine OnlyRuns.ite (fun _ => trivial) fun _ => ?_
  unfold paths at hpaths
  refine OnlyRuns.ite (fun hslash => ?_) fun hslash => ?_
  · rw [if_pos hslash] at hpaths
    obtain ⟨hpath, hscript⟩ := hpaths name (List.mem_singleton_self _)
    exact execFile_onlyRuns hpath hscript
  · rw [if_neg hslash] at hpaths
    refine OnlyRuns.ite (fun _ => trivial) fun _ => searchIn_onlyRuns false ?_
    rintro directory hmem _ rfl
    exact hpaths _ (List.mem_map_of_mem hmem)

end Prog

/-! ### Steps that end with the first error -/

namespace Launching

variable {rule : Call → Trail → Prop} {α β : Type} {t : Trail} {after : α → Trail → Prop}
  {failed : LaunchError → Trail → Prop}

/-- What steps come to: `after`, or a reason to give up. -/
def Ends (after : α → Trail → Prop) (failed : LaunchError → Trail → Prop) :
    Except LaunchError α → Trail → Prop
  | .ok a => after a
  | .error e => failed e

/-- Steps that make only calls that are permitted, and end with `after`, or with a reason for which
they have failed. -/
def Yields (rule : Call → Trail → Prop) (after : α → Trail → Prop)
    (failed : LaunchError → Trail → Prop) (x : Launching α) (t : Trail) : Prop :=
  Prog.Abides rule (Ends after failed) x.run t

theorem Yields.ofPure {a : α} (h : after a t) : Yields rule after failed (pure a) t := h

theorem Yields.bind {x : Launching β} {f : β → Launching α} (mid : β → Trail → Prop)
    (h : Yields rule mid failed x t) (hf : ∀ b t, mid b t → Yields rule after failed (f b) t) :
    Yields rule after failed (x >>= f) t := by
  refine Prog.Abides.bind _ h ?_
  rintro (e | b) t hmid
  · exact hmid
  · exact hf b t hmid

theorem Yields.post {x : Launching α} {after' : α → Trail → Prop}
    (h : Yields rule after failed x t) (hafter : ∀ a t, after a t → after' a t) :
    Yields rule after' failed x t := by
  refine Prog.Abides.post h ?_
  rintro (e | a) t hend
  · exact hend
  · exact hafter a t hend

/-- A call whose failure ends the steps. -/
theorem demand_yields {reply : Prog (Except Errno α)} {cause : Errno → LaunchError}
    (h : reply.Abides rule (fun r t =>
      match r with
      | .ok a => after a t
      | .error errno => failed (cause errno) t) t) :
    Yields rule after failed (demand reply cause) t := by
  refine Prog.Abides.bind _ h ?_
  rintro (errno | a) t hreply
  · exact hreply
  · exact hreply

end Launching

/-! ### The way to the program -/

namespace Descriptors

/-- The table after a descriptor has been given another number. -/
def moved (d : Descriptors) (old new : Nat) : Descriptors :=
  if old = new then d
  else (d.file? old).elim d fun file => (d.assign new file).close old

variable {d : Descriptors} {fd old new : Nat} {file : OpenFile}

theorem moved_eq (hne : old ≠ new) (hfile : d.file? old = some file) :
    d.moved old new = (d.assign new file).close old := by
  rw [moved, if_neg hne, hfile]
  rfl

/-- A number that was free stands in for another one until its file has been moved. -/
theorem moved_assign (hfree : d.isOpen fd = false) :
    (d.assign fd file).moved fd new = d.assign new file := by
  by_cases hne : fd = new
  · rw [moved, if_pos hne, hne]
  · have hfile : (d.assign fd file).file? fd = some file := by simp [file?_assign]
    rw [moved_eq hne hfile, close_assign_assign hfree hne]

end Descriptors

/-- The standard stream for a file that has been opened by its path. -/
def PathOpening.place (o : PathOpening) : Nat := if o.how.read then 0 else 1

/-- The table after the files of redirections have been put in place. -/
def Descriptors.redirected (d : Descriptors) (opened : List PathOpening) : Descriptors :=
  opened.foldl (fun d o => d.assign o.place o.file) d

/-- What stands behind a number that no redirection replaces. -/
theorem Descriptors.file?_redirected {fd : Nat} (h0 : fd ≠ 0) (h1 : fd ≠ 1)
    (opened : List PathOpening) (d : Descriptors) : (d.redirected opened).file? fd = d.file? fd := by
  induction opened generalizing d with
  | nil => rfl
  | cons o opened ih =>
      have hplace : fd ≠ o.place := by
        unfold PathOpening.place
        split <;> assumption
      change ((d.assign o.place o.file).redirected opened).file? fd = _
      rw [ih, Descriptors.file?_assign, if_neg hplace]

/-- The table of a child once its pipes are in place. -/
def Assignment.connected (a : Assignment) : Descriptors :=
  let d := a.descriptors.moved a.input 0
  match a.pipe with
  | some (reader, writer) => (d.moved writer 1).close reader
  | none => d

/-- What a child has when the files of some redirections have been opened: the table of its place,
and those files instead of the standard streams. -/
structure Arrival.After (a : Assignment) (redirections : List Redirection) (r : Arrival) :
    Prop where
  opened : r.opened.map (fun o => (o.path, o.how)) =
    redirections.map fun r => (r.target, Launching.openMode r.direction)
  descriptors : r.descriptors = a.connected.redirected r.opened

/-- What a child has when it tries to run its program. -/
abbrev Arrival.Suits (a : Assignment) (r : Arrival) : Prop := r.After a a.command.redirections

/-- **Why a command cannot be launched**, by a child that has opened some files, with the refusals
that it has met: a NUL byte, a redirection that it was refused after those before it, or a program
that it was refused as often as it looked for it. -/
inductive Assignment.Hindered (a : Assignment) (environment : Environment) (r : Arrival) :
    List Machine.Deed → LaunchError → Prop where
  | nul {position : Nat} : a.command.nulPosition? = some position → r.After a [] →
      a.Hindered environment r [] (.nul position)
  | opening {before after : List Redirection} {redirection : Redirection} (errno : Errno) :
      a.command.nulPosition? = none →
      a.command.redirections = before ++ redirection :: after → r.After a before →
        a.Hindered environment r
          [.denied redirection.target (Launching.openMode redirection.direction) errno]
          (.opening redirection.target errno)
  | executing {refusals : List Machine.Deed} {errno : Errno} :
      a.command.nulPosition? = none → r.Suits a →
      (Prog.execSearching a.command.name a.command.words environment).Refused refusals
        (.done errno) →
        a.Hindered environment r refusals (.executing a.command.name errno)

theorem Assignment.Hindered.isRefusal {a : Assignment} {environment : Environment} {r : Arrival}
    {refusals : List Machine.Deed} {e : LaunchError} (h : a.Hindered environment r refusals e) :
    ∀ deed ∈ refusals, deed.IsRefusal := by
  cases h with
  | nul => simp
  | opening => simp [Machine.Deed.IsRefusal]
  | executing _ _ hrefused => exact hrefused.isRefusal

/-- A child that tries to run its program, after some refusals: there is no NUL byte, the files of all
redirections have been opened, and the search for the program is at this attempt. -/
structure Assignment.Ready (a : Assignment) (environment : Environment) (path : Bytes)
    (words : List Bytes) (r : Arrival) (refusals : List Machine.Deed) : Prop where
  nul : a.command.nulPosition? = none
  attempt : (path, words) ∈ Prog.attempts a.command.name a.command.words environment
  suits : r.Suits a
  search : ∃ next, (Prog.execSearching a.command.name a.command.words environment).Refused refusals
    (.call (.exec path words environment) next)

theorem Assignment.Ready.isRefusal {a : Assignment} {environment : Environment} {path : Bytes}
    {words : List Bytes} {r : Arrival} {refusals : List Machine.Deed}
    (h : a.Ready environment path words r refusals) : ∀ deed ∈ refusals, deed.IsRefusal := by
  obtain ⟨next, hrefused⟩ := h.search
  exact hrefused.isRefusal

/-- The calls of a child on the way to its program. -/
def Assignment.Permits (a : Assignment) (environment : Environment) : Call → Trail → Prop
  | .exec path words environment', t =>
    environment' = environment ∧ a.Ready environment path words t.toArrival t.deeds
  | .openPath path how mode, _ => ∃ r ∈ a.command.redirections,
    path = r.target ∧ how = Launching.openMode r.direction ∧ mode = Launching.fileMode
  | .close _, _ | .dup2 _ _, _ | .dispose _ _, _ | .unblockChild, _ => True
  | _, _ => False

/-- What a child comes to that cannot run its program: the reason, with the diagnostics of the shell
still at hand. -/
def Assignment.GivesUp (a : Assignment) (environment : Environment) (e : LaunchError) (t : Trail) :
    Prop :=
  a.Hindered environment t.toArrival t.deeds e ∧ t.descriptors.file? 2 = some .diagnostics

namespace Launching

variable {a : Assignment} {environment : Environment} {t : Trail}
  {failed : LaunchError → Trail → Prop}

theorem close_yields {fd : Nat} (hopen : t.descriptors.isOpen fd = true) :
    Yields (a.Permits environment)
      (fun _ t' => t' = { t with descriptors := t.descriptors.close fd }) failed
      (Launching.close fd) t := by
  refine demand_yields (Prog.Abides.ask trivial ?_)
  rintro pipes pipes' reply d opened haffects hgrants
  obtain rfl : reply = .ok () := hgrants hopen
  obtain ⟨rfl, rfl⟩ := haffects
  exact Trail.after_eq _ rfl

theorem move_yields {old new : Nat} (hopen : t.descriptors.isOpen old = true) :
    Yields (a.Permits environment)
      (fun _ t' => t' = { t with descriptors := t.descriptors.moved old new }) failed
      (move old new) t := by
  unfold move
  by_cases hne : old = new
  · rw [if_pos hne]
    exact Yields.ofPure (by rw [Descriptors.moved, if_pos hne])
  · rw [if_neg hne]
    obtain ⟨file, hfile⟩ := Option.isSome_iff_exists.1 hopen
    refine Yields.bind (fun _ t' => t' = { t with descriptors := t.descriptors.assign new file })
      ?_ ?_
    · refine demand_yields (Prog.Abides.ask trivial ?_)
      rintro pipes pipes' reply d opened haffects hgrants
      obtain rfl : reply = .ok () := hgrants hopen
      obtain ⟨file', hfile', rfl, rfl⟩ := haffects
      obtain rfl : file = file' := Option.some.inj (hfile.symm.trans hfile')
      rw [if_neg hne]
      exact Trail.after_eq _ rfl
    · rintro _ _ rfl
      have hopen' : (t.descriptors.assign new file).isOpen old = true := by
        rw [Descriptors.isOpen_assign, hopen, Bool.or_true]
      rw [Descriptors.moved_eq hne hfile]
      exact close_yields hopen'

theorem dispose_yields (signal : Nat) (disposition : Disposition) :
    Yields (a.Permits environment) (fun _ t' => t' = t) failed (dispose signal disposition) t := by
  refine demand_yields (Prog.Abides.ask trivial ?_)
  rintro pipes pipes' reply _ _ ⟨rfl, rfl⟩ hgrants
  obtain rfl : reply = .ok () := hgrants
  exact Trail.after_eq _ rfl

theorem restoreSignals_yields :
    Yields (a.Permits environment) (fun _ t' => t' = t) failed restoreSignals t := by
  refine Yields.bind _ (dispose_yields _ _) ?_
  rintro _ _ rfl
  refine Yields.bind _ (dispose_yields _ _) ?_
  rintro _ _ rfl
  refine Yields.bind _ (dispose_yields _ _) ?_
  rintro _ _ rfl
  refine demand_yields (Prog.Abides.ask trivial ?_)
  rintro pipes pipes' reply _ _ ⟨rfl, rfl⟩ hgrants
  obtain rfl : reply = .ok () := hgrants
  exact Trail.after_eq _ rfl

/-! ### Redirections -/

theorem place_openMode (path : Bytes) (direction : Direction) (file : OpenFile) :
    (PathOpening.mk path (openMode direction) file).place = standard direction := by
  cases direction <;> rfl

/-- A child that has worked off some redirections, and has met no refusal. -/
def Past (a : Assignment) (before : List Redirection) (t : Trail) : Prop :=
  Arrival.After a before t.toArrival ∧ t.deeds = []

/-- **One redirection**, after some others. -/
theorem redirect_yields {before : List Redirection} {r : Redirection}
    (hr : r ∈ a.command.redirections) (h : Past a before t)
    (hfailed : ∀ errno, failed (.opening r.target errno)
      { t with deeds := [.denied r.target (openMode r.direction) errno] }) :
    Yields (a.Permits environment) (fun _ t' => Past a (before ++ [r]) t') failed (redirect r) t := by
  refine Yields.bind (fun fd t' => t.descriptors.isOpen fd = false ∧ ∃ file, t' =
    ⟨⟨t.descriptors.assign fd file, t.opened ++ [⟨r.target, openMode r.direction, file⟩]⟩, []⟩) ?_ ?_
  · refine demand_yields (Prog.Abides.ask ⟨r, hr, rfl, rfl, rfl⟩ ?_)
    rintro pipes pipes' (errno | fd) d opened haffects -
    · obtain ⟨rfl, rfl⟩ := haffects
      have hafter : t.after (.openPath r.target (openMode r.direction) fileMode) (.error errno)
          t.descriptors [] = { t with deeds := [.denied r.target (openMode r.direction) errno] } := by
        unfold Trail.after
        rw [h.2, List.append_nil]
        rfl
      exact hafter ▸ hfailed errno
    · obtain ⟨file, hfree, rfl, rfl⟩ := haffects
      refine ⟨hfree, file, ?_⟩
      unfold Trail.after
      rw [h.2]
      rfl
  · rintro fd _ ⟨hfree, file, rfl⟩
    -- the descriptor is new, so that moving it away leaves nothing behind
    refine Yields.post (move_yields Descriptors.isOpen_assign_self) ?_
    rintro _ _ rfl
    refine ⟨⟨by simp [h.1.opened], ?_⟩, rfl⟩
    change (t.descriptors.assign fd file).moved fd (standard r.direction) = _
    rw [Descriptors.moved_assign hfree, Descriptors.redirected, List.foldl_append, List.foldl_cons,
      List.foldl_nil, place_openMode]
    exact congrArg (fun d : Descriptors => d.assign (standard r.direction) file) h.1.descriptors

/-- **Redirections**, after some others: they are worked off up to the first that is refused. -/
theorem redirectAll_yields {before : List Redirection} (rs : List Redirection)
    (hrs : a.command.redirections = before ++ rs) (h : Past a before t)
    (hfailed : ∀ before r after errno t, a.command.redirections = before ++ r :: after →
      Past a before t → failed (.opening r.target errno)
        { t with deeds := [.denied r.target (openMode r.direction) errno] }) :
    Yields (a.Permits environment) (fun _ t' => Past a a.command.redirections t') failed
      (redirectAll rs) t := by
  induction rs generalizing before t with
  | nil =>
      rw [List.append_nil] at hrs
      exact Yields.ofPure (by rw [hrs]; exact h)
  | cons r rs ih =>
      have hr : r ∈ a.command.redirections := by simp [hrs]
      refine Yields.bind _ (redirect_yields hr h fun errno => hfailed _ _ _ errno _ hrs h) ?_
      intro _ t' h'
      exact ih (by rw [hrs, List.append_assoc]; rfl) h'

end Launching

namespace Assignment

open Launching (Yields Past)

variable {a : Assignment} {environment : Environment} {t : Trail}

/-- The child at its start. -/
def trail (a : Assignment) : Trail := ⟨⟨a.descriptors, []⟩, []⟩

/-- The ends of the pipes are there to be moved, and the diagnostics of the shell are there still
afterwards. -/
structure Able (a : Assignment) : Prop where
  input : a.descriptors.isOpen a.input = true
  writer : ∀ reader writer, a.pipe = some (reader, writer) →
    (a.descriptors.moved a.input 0).isOpen writer = true
  reader : ∀ reader writer, a.pipe = some (reader, writer) →
    ((a.descriptors.moved a.input 0).moved writer 1).isOpen reader = true
  diagnostics : a.connected.file? 2 = some .diagnostics

/-- **The ends of the pipes are put in place.** -/
theorem connect_yields {failed : LaunchError → Trail → Prop} (ha : a.Able) :
    Yields (a.Permits environment) (fun _ t => t = ⟨⟨a.connected, []⟩, []⟩) failed a.connect
      a.trail := by
  unfold connect
  refine Yields.bind _ (Launching.move_yields ha.input) ?_
  rintro _ _ rfl
  cases hpipe : a.pipe with
  | none =>
      refine Yields.ofPure ?_
      rw [connected, hpipe]
      rfl
  | some ends =>
      obtain ⟨reader, writer⟩ := ends
      refine Yields.bind _ (Launching.move_yields (ha.writer reader writer hpipe)) ?_
      rintro _ _ rfl
      refine Yields.post (Launching.close_yields (ha.reader reader writer hpipe)) ?_
      rintro _ _ rfl
      rw [connected, hpipe]
      rfl

/-- The diagnostics of the shell are at hand on the whole way. -/
theorem Able.diagnostics_after (ha : a.Able) {rs : List Redirection} {r : Arrival}
    (h : r.After a rs) : r.descriptors.file? 2 = some .diagnostics := by
  rw [h.descriptors, Descriptors.file?_redirected (by decide) (by decide), ha.diagnostics]

theorem Able.givesUp_opening (ha : a.Able) {before after : List Redirection} {r : Redirection}
    (errno : Errno) (hnul : a.command.nulPosition? = none)
    (hrs : a.command.redirections = before ++ r :: after) (h : Past a before t) :
    a.GivesUp environment (.opening r.target errno)
      { t with deeds := [.denied r.target (Launching.openMode r.direction) errno] } :=
  ⟨.opening errno hnul hrs h.1, ha.diagnostics_after h.1⟩

/-- The steps of a child after it has got a session of its own, if it is to have one. -/
def prepared (a : Assignment) : Launching Command := do
  Launching.restoreSignals
  a.connect
  let command ← ExceptT.mk (return a.command.prepare)
  Launching.redirectAll command.redirections
  return command

/-- All steps of the child but the first, if that is to get a session of its own. -/
def settle (a : Assignment) (environment : Environment) : Prog LaunchError := do
  match ← a.prepared.run with
  | .error e => return e
  | .ok command =>
    return .executing command.name
      (← Prog.execSearching command.name command.words environment)

theorem launch_foreground (hclass : a.jobClass ≠ .background) (environment : Environment) :
    a.launch environment = a.settle environment := by
  unfold launch settle arrange
  rw [if_neg hclass]
  rfl

theorem launch_background (hclass : a.jobClass = .background) (environment : Environment) :
    ∃ next : Except Errno Unit → Prog LaunchError,
      a.launch environment = .call .setsid next ∧ next (.ok ()) = a.settle environment := by
  unfold launch settle arrange
  rw [if_pos hclass]
  exact ⟨_, rfl, rfl⟩

theorem prepared_yields (ha : a.Able) :
    Yields (a.Permits environment) (fun command t => command = a.command ∧
        a.command.nulPosition? = none ∧ Past a a.command.redirections t)
      (a.GivesUp environment) a.prepared a.trail := by
  unfold prepared
  refine Yields.bind _ Launching.restoreSignals_yields ?_
  rintro _ _ rfl
  refine Yields.bind _ (connect_yields ha) ?_
  rintro _ _ rfl
  have hconnected : Past a [] ⟨⟨a.connected, []⟩, []⟩ := ⟨⟨rfl, rfl⟩, rfl⟩
  refine Yields.bind (fun command t => command = a.command ∧
    a.command.nulPosition? = none ∧ t = ⟨⟨a.connected, []⟩, []⟩) ?_ ?_
  · unfold Command.prepare
    cases hnul : a.command.nulPosition? with
    | some position => exact ⟨.nul hnul hconnected.1, ha.diagnostics_after hconnected.1⟩
    | none => exact ⟨rfl, rfl, rfl⟩
  · rintro _ _ ⟨rfl, hnul, rfl⟩
    refine Yields.bind _ (Launching.redirectAll_yields a.command.redirections rfl hconnected
      fun before r after errno t hrs h => ha.givesUp_opening errno hnul hrs h) ?_
    exact fun _ t hpast => Yields.ofPure ⟨rfl, hnul, hpast⟩

/-- **Everything up to the program, or to the reason why there is none.** -/
theorem Able.settle_abides (ha : a.Able) (environment : Environment) :
    (a.settle environment).Abides (a.Permits environment) (a.GivesUp environment) a.trail := by
  refine Prog.Abides.bind _ (prepared_yields ha) ?_
  rintro (e | command) t hend
  · exact hend
  · obtain ⟨rfl, hnul, hsuits, hnone⟩ := hend
    have hstart : t = { t with deeds := [] } := by
      rw [← hnone]
    rw [hstart]
    refine Prog.Abides.bind _ (Prog.OnlyRuns.abides
      (Prog.execSearching_onlyRuns a.command.name a.command.words environment) (.nil _) ?_) ?_
    · rintro refusals path words _ next ⟨hattempt, rfl⟩ hrefused
      exact ⟨rfl, hnul, hattempt, hsuits, next, hrefused⟩
    · rintro errno _ ⟨refusals, hrefused, rfl⟩
      exact ⟨.executing hnul hsuits hrefused, ha.diagnostics_after hsuits⟩

end Assignment

end JobShell
