/-
**Which children are due to be reported.**

A child of the background is due to be reported as soon as it has been reaped, whichever operation
has reaped it, and a child of the foreground never is.  What the journal leaves to be handed out are
the children that are due, each once, with its own process id and the status of its own end.  Process
ids come back, so this is a matter of lives and not of process ids.

Main definitions:

* `JobShell.Life.Due` — a child that is to be reported;
* `JobShell.Ending.notice`, `JobShell.Life.notice?` — the line that reports the end of a child;
* `JobShell.Fair` — what is to be handed out are the children that are due;
* `JobShell.Supervisor.Books` — the invariant of a session.

Main results:

* `JobShell.Supervisor.Moves.books` — moves keep the books;
* `JobShell.Supervisor.collectCompleted_books`, `JobShell.Supervisor.collectCompleted_settles` — a
  report keeps them too, and leaves nothing dead and nothing completed;
* `JobShell.Supervisor.Books.settled` — when no child lives any more and everything has been handed
  out, it was handed out once for every child of the background.
-/

import JobShell.Proofs.Job.Delivery
import JobShell.Proofs.Job.Lives
import JobShell.Proofs.Job.Notice

set_option autoImplicit false

namespace JobShell

/-! ### Lines of a report -/

/-- The line that reports that a process has ended. -/
def Ending.notice (pid : Int) (ending : Ending) : String :=
  let what :=
    match ending with
    | .exited code => "exited with status " ++ Int.repr code
    | .killed signal => "killed by signal " ++ Nat.repr signal
  "Background process " ++ Int.repr pid ++ " terminated. (" ++ what ++ ")"

/-- The line of a job that is handed out is that of the end from which its status was decoded. -/
theorem Delivery.completionMessage_handed {pid : Int} {ending : Ending} {status : WaitStatus}
    (h : ending.decode pid = .ok status) :
    (Delivery.handed ⟨pid, status⟩).completionMessage = ending.notice pid := by
  cases ending with
  | exited code =>
      obtain rfl : WaitStatus.exited pid code = status := by simpa [Ending.decode] using h
      rfl
  | killed signal =>
      by_cases hname : (Signal.name? signal).isSome
      · obtain rfl : WaitStatus.signaled pid signal false = status := by
          simpa [Ending.decode, hname] using h
        rfl
      · simp [Ending.decode, hname] at h

namespace Life

/-- The child is to be reported: it was in the background, and it has been reaped. -/
def Due (l : Life) : Prop := l.jobClass = .background ∧ l.reaped = true

instance : DecidablePred Due := fun l => by
  unfold Due
  infer_instance

/-- What is to be handed out for the child. -/
def delivery? (l : Life) : Option Delivery :=
  l.ending.bind fun ending => (ending.decode l.pid).toOption.map fun status => ⟨l.pid, status⟩

/-- The process id of a child that has ended, and the line that reports it. -/
def notice? (l : Life) : Option (Int × String) :=
  l.ending.map fun ending => (l.pid, ending.notice l.pid)

theorem delivery?_eq_some {l : Life} {ending : Ending} {status : WaitStatus}
    (hending : l.ending = some ending) (hdecode : ending.decode l.pid = .ok status) :
    l.delivery? = some ⟨l.pid, status⟩ := by
  simp [delivery?, hending, hdecode, Except.toOption]

/-- What is handed out for a child is reported by the child's own line. -/
theorem notice?_of_delivery? {l : Life} {d : Delivery} (h : l.delivery? = some d) :
    l.notice? = some (d.handed.pid, d.handed.completionMessage) := by
  obtain ⟨ending, hending, h⟩ := Option.bind_eq_some_iff.1 h
  obtain ⟨status, hstatus, rfl⟩ := Option.map_eq_some_iff.1 h
  cases hdecode : ending.decode l.pid with
  | error errno => simp [hdecode, Except.toOption] at hstatus
  | ok decoded =>
      obtain rfl : decoded = status := by simpa [hdecode, Except.toOption] using hstatus
      rw [notice?, hending, Option.map_some, Delivery.completionMessage_handed hdecode]
      rfl

end Life

/-! ### What is to be handed out is what is due -/

/-- What a journal leaves to be handed out are the children that are due, each once. -/
def Fair (journal : List Event) : Prop :=
  ((deliveries journal).map some).Perm (((lives journal).filter Life.Due).map Life.delivery?)

theorem fair_nil : Fair [] := .refl []

section Fair

variable {journal : List Event}

/-- Neither side changes by an event that is about no child's life. -/
theorem Fair.note (h : Fair journal) {e : Event} (henter : ∀ lives, e.enter lives = lives)
    (hdelivery : e.delivery? = none) : Fair (journal ++ [e]) := by
  rw [Fair, deliveries_append, lives_append, henter, hdelivery, Option.toList_none,
    List.append_nil]
  exact h

/-- A child that has just been forked is not due. -/
theorem Fair.forked (h : Fair journal) (pid : Int) (jobClass : JobClass) :
    Fair (journal ++ [.forked pid jobClass]) := by
  have hnew : ¬ Life.Due { pid := pid, jobClass := jobClass } := by simp [Life.Due]
  have hnothing : Event.delivery? (.forked pid jobClass) = none := rfl
  rw [Fair, deliveries_append, lives_append, Event.enter, hnothing, Option.toList_none,
    List.append_nil, List.filter_append, List.filter_cons_of_neg (by simpa using hnew),
    List.filter_nil, List.append_nil]
  exact h

/-- A death changes no child that is due, since such a child has ended already. -/
theorem Fair.died (h : Fair journal)
    (hended : ∀ l ∈ lives journal, l.reaped = true → l.ending.isSome = true) (pid : Int)
    (ending : Ending) : Fair (journal ++ [.died pid ending]) := by
  have hsame : ∀ l ∈ (lives journal).filter Life.Due, Life.die pid ending l = l := by
    intro l hl
    obtain ⟨hl, hdue⟩ := List.mem_filter.1 hl
    have hsome := hended l hl (of_decide_eq_true hdue).2
    rw [Life.die, if_neg]
    rintro ⟨-, hnone⟩
    simp [hnone] at hsome
  have hdues : ((lives journal).map (Life.die pid ending)).filter Life.Due =
      (lives journal).filter Life.Due := by
    have hdue : (fun l : Life => decide l.Due) ∘ Life.die pid ending =
        fun l => decide l.Due := by
      funext l
      rw [Function.comp_apply, decide_eq_decide]
      simp [Life.Due]
    rw [List.filter_map, hdue, List.map_congr_left hsame, List.map_id']
  have hnothing : Event.delivery? (.died pid ending) = none := rfl
  rw [Fair, deliveries_append, lives_append, Event.enter, hdues, hnothing, Option.toList_none,
    List.append_nil]
  exact h

/-- A child becomes due when it is reaped, if it is one of the background. -/
theorem Fair.reaped (h : Fair journal) {before after : List Life} {l : Life} {ending : Ending}
    {status : WaitStatus} (hlives : lives journal = before ++ l :: after) (hl : l.reaped = false)
    (hothers : ∀ l' ∈ before ++ after, l'.pid = l.pid → l'.reaped = true)
    (hending : l.ending = some ending) (hdecode : ending.decode l.pid = .ok status) :
    Fair (journal ++ [.reaped status (some l.jobClass)]) := by
  have hpid := Ending.decode_ok hdecode
  -- the other children with its process id have been reaped before
  have hsame : ∀ l' ∈ before ++ after, Life.reap (some l.pid) l' = l' := by
    intro l' hl'
    unfold Life.reap
    split
    · next heq => rw [← hothers l' hl' (Option.some.inj heq).symm]
    · rfl
  have hdone : Life.reap (some l.pid) l = { l with reaped := true } := by
    rw [Life.reap, if_pos rfl]
  rw [List.forall_mem_append] at hsame
  have hlives' : (lives journal).map (Life.reap (some l.pid)) =
      before ++ { l with reaped := true } :: after := by
    rw [hlives, List.map_append, List.map_cons, hdone, List.map_congr_left hsame.1,
      List.map_congr_left hsame.2, List.map_id', List.map_id']
  have hdelivery : Life.delivery? { l with reaped := true } = some ⟨l.pid, status⟩ :=
    Life.delivery?_eq_some hending hdecode
  have hnot : ¬ l.Due := by simp [Life.Due, hl]
  rw [Fair, hlives, List.filter_append, List.filter_cons_of_neg (by simpa using hnot),
    List.map_append] at h
  rw [Fair, deliveries_append, lives_append, Event.enter, hpid, hlives', List.filter_append,
    List.map_append, List.map_append]
  by_cases hclass : l.jobClass = .background
  · have hdue : Life.Due { l with reaped := true } := ⟨hclass, rfl⟩
    have hreported : Event.delivery? (.reaped status (some l.jobClass)) =
        some ⟨l.pid, status⟩ := by
      simp [Event.delivery?, hpid, hclass]
    rw [List.filter_cons_of_pos (by simpa using hdue), List.map_cons, hdelivery, hreported]
    exact ((h.append_right _).trans (List.perm_append_singleton _ _)).trans List.perm_middle.symm
  · have hundue : ¬ Life.Due { l with reaped := true } := fun hdue => hclass hdue.1
    have hforeground : l.jobClass = .foreground := by
      cases hc : l.jobClass with
      | foreground => rfl
      | background => exact absurd hc hclass
    have hunreported : Event.delivery? (.reaped status (some l.jobClass)) = none := by
      simp [Event.delivery?, hforeground]
    rw [List.filter_cons_of_neg (by simpa using hundue), hunreported, Option.toList_none,
      List.map_nil, List.append_nil]
    exact h

end Fair

namespace Supervisor

variable {σ : Type}

/-! ### The books of a session -/

/-- The books of a session that has begun at `s₀`, when `handed` has been handed out. -/
structure Books (s₀ : Supervisor σ) (handed : List Job) (s : Supervisor σ) : Prop where
  owes : s.Owes handed
  accounted : s.Accounted
  chronicle : Chronicle s₀ s.journal s
  fair : Fair s.journal

section Keeping

variable {s₀ s s' : Supervisor σ} {handed : List Job} {events : List Event}

/-- At the beginning nothing has happened, and nothing is owed. -/
theorem Books.initial (hchildren : s.children = []) (hjobs : s.jobs = {})
    (hjournal : s.journal = []) : Books s [] s := by
  have htruthful : s.Truthful := ⟨by simp [hchildren], by simp [hchildren], hjournal ▸ attested_nil⟩
  have hforeground : s.jobs.hasForeground = false := by simp [hjobs, JobTable.hasForeground]
  exact {
    owes := ⟨htruthful, [], [], by rw [hjournal]; rfl, rfl, by rw [hjobs]; rfl⟩
    accounted := ⟨htruthful, by simp [hjobs], by simp [hjobs], by simp [hjournal]⟩
    chronicle := by
      rw [hjournal]
      exact .refl hforeground
    fair := hjournal ▸ fair_nil }

/-- A chronicle that goes on from the whole journal is one of the whole journal. -/
theorem Chronicle.whole (h : Chronicle s₀ s.journal s)
    (h' : ∃ more, Chronicle s₀ (s.journal ++ more) s') : Chronicle s₀ s'.journal s' := by
  obtain ⟨more, h'⟩ := h'
  have hnothing : s₀.journal = [] := List.self_eq_append_left.1 h.journal
  have hjournal : s'.journal = s.journal ++ more := by simpa [hnothing] using h'.journal
  rwa [hjournal]

/-- A death keeps the chronicle, and changes nothing of what is due. -/
theorem Chronicle.bury_fair (h : Chronicle s₀ s.journal s) (hfair : Fair s.journal)
    (death : Int × Ending) :
    Chronicle s₀ (s.bury death).journal (s.bury death) ∧ Fair (s.bury death).journal := by
  refine ⟨h.whole (h.bury death), ?_⟩
  unfold Supervisor.bury
  split
  · exact hfair.died h.ended _ _
  · exact hfair

/-- Where there was no child before, every child is one of those that the journal leaves. -/
theorem Chronicle.children_eq (h : Chronicle s₀ events s) (h₀ : s₀.children = []) :
    s.children = unreaped events := by
  obtain ⟨olds, holds, hchildren⟩ := h.children
  have hnone : olds = [] := by simpa [h₀] using holds
  rw [hchildren, hnone, List.nil_append]

/-- The life of the child that is reaped next.  No other child that has not been reaped has its
process id, and it is listed under its own class. -/
theorem Chronicle.exists_life (h : Chronicle s₀ events s) (h₀ : s₀.children = [])
    (haccounted : s.Accounted) {pid : Int} {ending : Ending} {rest : List Child}
    (hdead : unlinkDead s.children = some ((pid, ending), rest)) :
    ∃ before l after, lives events = before ++ l :: after ∧ l.reaped = false ∧ l.pid = pid ∧
      l.ending = some ending ∧ (∀ l' ∈ before ++ after, l'.pid = l.pid → l'.reaped = true) ∧
        s.jobs.classOf? pid = some l.jobClass := by
  have hchildren := h.children_eq h₀
  have hmem : ⟨pid, some ending⟩ ∈ unreaped events := hchildren ▸ mem_of_unlinkDead hdead
  obtain ⟨l, hl, hreaped, hchild⟩ := mem_unreaped.1 hmem
  obtain ⟨rfl, hending⟩ : l.pid = pid ∧ l.ending = some ending := by
    simpa [Life.child] using hchild
  obtain ⟨before, after, hlives⟩ := List.append_of_mem hl
  refine ⟨before, l, after, hlives, hreaped, rfl, hending, ?_, ?_⟩
  · -- otherwise the kernel would have its process id twice
    have hdistinct := haccounted.truthful.distinct
    rw [hchildren, unreaped, hlives, List.filter_append,
      List.filter_cons_of_pos (by simpa using hreaped), List.map_map, List.map_append,
      List.map_cons, List.nodup_middle, List.nodup_cons, ← List.map_append] at hdistinct
    intro l' hl' hpid
    by_contra hunreaped
    refine hdistinct.1 (List.mem_map.2 ⟨l', ?_, hpid⟩)
    rw [← List.filter_append, List.mem_filter]
    exact ⟨hl', by simpa using hunreaped⟩
  · obtain ⟨job, hjob, hpid, hclass⟩ := h.listed l hl hreaped
    rw [← hpid, ← hclass]
    exact JobTable.classOf?_of_mem haccounted.once hjob

variable [Host σ] {launching : Assignment → Prop}

/-- What is to be handed out stays what is due. -/
theorem Moves.fair (hmove : Moves launching s s') (h₀ : s₀.children = []) (h : Books s₀ handed s) :
    Fair s'.journal := by
  cases hmove with
  | drift held =>
      have hdrifted : Chronicle s₀ (s.drifted held).journal (s.drifted held) ∧
          Fair (s.drifted held).journal := by
        refine foldl_bury (I := fun t => Chronicle s₀ t.journal t ∧ Fair t.journal) ?_ _ _
          ⟨h.chronicle.setHost _, h.fair⟩
        exact fun t death ht => ht.1.bury_fair ht.2 death
      exact hdrifted.2
  | pipe | write | kill | signal => exact h.fair
  | builtin | wait => exact h.fair.note (fun _ => rfl) rfl
  | launch => exact h.fair.forked _ _
  | @wake held death host =>
      exact (Chronicle.bury_fair (s := { s with host := host }) (h.chronicle.setHost host) h.fair
        death).2
  | reap hdead hdecode =>
      obtain ⟨before, l, after, hlives, hreaped, rfl, hending, hothers, hclass⟩ :=
        h.chronicle.exists_life h₀ h.accounted hdead
      have hfair := h.fair.reaped hlives hreaped hothers hending hdecode
      rwa [← hclass] at hfair

/-- **Every move keeps the books.** -/
theorem Moves.books (hmove : Moves launching s s') (h₀ : s₀.children = [])
    (h : Books s₀ handed s) : Books s₀ handed s' where
  owes := hmove.owes h.owes
  accounted := hmove.accounted h.accounted
  chronicle := h.chronicle.whole (hmove.chronicle h.accounted h.chronicle)
  fair := hmove.fair h₀ h

/-- So do any number of moves. -/
theorem Reaches.books (hreaches : Reaches launching s s') (h₀ : s₀.children = [])
    (h : Books s₀ handed s) : Books s₀ handed s' :=
  hreaches.keeps (fun _ _ hmove h => hmove.books h₀ h) h

/-- **A report keeps the books**, in which it is handed out, and leaves nothing completed. -/
theorem collectCompleted_books (held : Descriptors) (h₀ : s₀.children = [])
    (h : Books s₀ handed s) :
    Ensures (· = s) (collectCompleted held)
      (OkOr (fun jobs t => Books s₀ (handed ++ jobs) t ∧ t.jobs.completed = [])
        fun _ _ => True) := by
  have hcomes := ensures_of_reaches (@collectCompleted_comes σ _ (fun _ => False) s held)
  have howes : Ensures (· = s) (collectCompleted held) (OwesAfter handed) :=
    (collectCompleted_owes held).pre fun t ht => ht ▸ h.owes
  refine (hcomes.and howes).post ?_
  rintro (stop | jobs) t ⟨hcomes, howes⟩
  · trivial
  obtain ⟨u, hreaches, -, ht⟩ := hcomes
  have hu : Books s₀ handed u := Reaches.books hreaches h₀ h
  have hcompleted : t.jobs.completed = [] := by rw [ht]; rfl
  have hjournal : t.journal = u.journal := by rw [ht]
  have hchildren : t.children = u.children := by rw [ht]
  have hrunning : t.jobs.running = u.jobs.running := by rw [ht]; rfl
  refine ⟨{
    owes := howes
    accounted := ⟨howes.truthful, hrunning ▸ hu.accounted.once,
      by rw [hrunning, hchildren]; exact hu.accounted.children,
      by rw [hjournal]; exact hu.accounted.decoded⟩
    chronicle := by
      rw [hjournal]
      exact hu.chronicle.of_eq hjournal hchildren hrunning
    fair := hjournal ▸ hu.fair }, hcompleted⟩

end Keeping

/-! ### A report after all children have ended -/

section Settling

variable [Host σ] {s s' : Supervisor σ}

/-- Where nothing is launched nobody comes to life. -/
theorem Moves.lifeless (hmove : Moves (fun _ => False) s s') (h : livingPids s.children = []) :
    livingPids s'.children = [] := by
  cases hmove with
  | drift held =>
      rw [drifted, foldl_bury_living]
      simp [h]
  | pipe | write | kill | signal | builtin | wait => exact h
  | launch hlaunching => exact hlaunching.elim
  | wake =>
      rw [bury_living]
      simp [h]
  | reap hdead =>
      exact (livingPids_of_unlinkDead hdead).trans h

/-- Reaping takes every child when none of them lives. -/
theorem reapTerminated_settles (held : Descriptors) :
    Ensures (fun s : Supervisor σ => livingPids s.children = []) (reapTerminated held)
      (OkOr (fun _ t => t.children = []) fun _ _ => True) := by
  refine takeNotice_bind fun s hs => Ensures.get_bind ?_
  rintro t rfl
  have hcomes := ensures_of_reaches (@reapAll_comes σ _ (fun _ => False)
    { s with signal := s.signal.clear } held s.children.length)
  refine (hcomes.and ((reapAll_ends held s.children.length).pre ?_)).post ?_
  · rintro _ rfl
    exact Nat.le_refl _
  rintro (stop | _) u ⟨hreaches, hdead⟩
  · trivial
  · have hliving : livingPids u.children = [] :=
      Reaches.keeps (I := fun t => livingPids t.children = []) hreaches
        (fun _ _ => Moves.lifeless) hs
    by_contra hchildren
    exact livingPids_ne_nil hchildren hdead hliving

/-- **A report leaves no child when none of them lives.** -/
theorem collectCompleted_settles (held : Descriptors) :
    Ensures (fun s : Supervisor σ => livingPids s.children = []) (collectCompleted held)
      (OkOr (fun _ t => t.children = []) fun _ _ => True) := by
  refine Ensures.bind (OkOr (fun _ t => livingPids t.children = []) fun _ _ => True) ?_ ?_
    fun _ _ h => h
  · refine Ensures.of_eq fun s hs => ?_
    refine (ensures_of_reaches (@block_comes σ _ (fun _ => False) s held)).post ?_
    rintro (stop | previous) t ht
    · trivial
    · exact Reaches.keeps (I := fun t => livingPids t.children = []) ht (fun _ _ => Moves.lifeless) hs
  · refine fun previous => Ensures.restoringMask ?_
    refine Ensures.bind _ (reapTerminated_settles held) ?_ fun _ _ h => h
    refine fun _ => Ensures.get_bind fun t ht => Ensures.set_bind fun _ _ => Ensures.ofPure ?_
    rintro _ rfl
    exact ht

end Settling

/-- **The books of a session that is over.**  When there is no child any more, and nothing is left to
be handed out, every child that was ever forked is over, and what was handed out are the children of
the background, each once and by its own line. -/
theorem Books.settled {s₀ s : Supervisor σ} {handed : List Job} (h : Books s₀ handed s)
    (h₀ : s₀.children = []) (hchildren : s.children = []) (hcompleted : s.jobs.completed = []) :
    (∀ l ∈ lives s.journal, l.Over) ∧
      (handed.map fun job => some (job.pid, job.completionMessage)).Perm
        (((lives s.journal).filter (·.jobClass = .background)).map Life.notice?) := by
  have hover : ∀ l ∈ lives s.journal, l.Over := by
    intro l hl
    cases hreaped : l.reaped with
    | true => exact ⟨hreaped, h.chronicle.ended l hl hreaped⟩
    | false =>
        have hmem : l.child ∈ unreaped s.journal := mem_unreaped.2 ⟨l, hl, hreaped, rfl⟩
        rw [← h.chronicle.children_eq h₀, hchildren] at hmem
        cases hmem
  refine ⟨hover, ?_⟩
  obtain ⟨out, waiting, hdeliveries, rfl, hwaiting⟩ := h.owes.balance
  have hnone : waiting = [] := by simpa [hcompleted] using hwaiting.symm
  have hdues : (lives s.journal).filter Life.Due =
      (lives s.journal).filter (·.jobClass = .background) := by
    refine List.filter_congr fun l hl => decide_eq_decide.2 ?_
    exact ⟨fun hdue => hdue.1, fun hclass => ⟨hclass, (hover l hl).1⟩⟩
  have hfair := h.fair
  rw [Fair, hdeliveries, hnone, List.append_nil, hdues] at hfair
  -- the line of a child is that of what is handed out for it
  have hnotices : ((lives s.journal).filter (·.jobClass = .background)).map Life.notice? =
      (((lives s.journal).filter (·.jobClass = .background)).map Life.delivery?).map
        (Option.map fun d => (d.handed.pid, d.handed.completionMessage)) := by
    rw [List.map_map]
    refine List.map_congr_left fun l hl => ?_
    obtain ⟨d, -, hd⟩ := List.mem_map.1 (hfair.mem_iff.2 (List.mem_map_of_mem hl))
    rw [Function.comp_apply, ← hd, Option.map_some]
    exact Life.notice?_of_delivery? hd.symm
  rw [hnotices]
  have hmapped := hfair.map (Option.map fun d => (d.handed.pid, d.handed.completionMessage))
  simpa [List.map_map, Function.comp_def] using hmapped

end Supervisor

end JobShell
