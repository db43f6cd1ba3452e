/-
**A file that fills up.**

Children of the shell come one after another, and the output of each of them goes into the same file.
What is in the file in the end is what their redirections and their outputs make of it, in order: a
redirection that overwrites starts from nothing, one that appends from what is there.  That is so
whatever the children do otherwise, as long as the file is written in no other way.  At each moment
there is only one child whose output can go there, since the others have ended, and through its open
file everything is written at the end.

Main definitions:

* `JobShell.Moment.output`, `JobShell.outputOf` — what is written through the outlet of a child;
* `JobShell.Moment.Opens`, `JobShell.Moment.Respects` — a child opens the file, and the file is
  written in no other way;
* `JobShell.Reserved`, `JobShell.Filling` — children whose output goes into one file, one after another;
* `JobShell.accumulated` — what the outputs of commands make of the bytes in a file;
* `JobShell.Tally` — what a file has come to meanwhile.

Main results:

* `JobShell.Filling.tally_snoc` — **each moment leaves the file with what has been written so far**;
* `JobShell.Filling.contents` — **what is in the file in the end**;
* `JobShell.Filling.settled` — nothing is written for a child any more when the next one is started;
* `JobShell.Filling.unexecuted` — nothing is written for a child that does not come to its program.
-/

import JobShell.Proofs.Machine.Descent

set_option autoImplicit false

namespace JobShell

open Machine (Passage IsOver)

/-! ### Outputs -/

namespace Moment

/-- The open file of the tree that is written to at a moment, and what is written. -/
def writing? (x : Moment) : Option (Nat × Bytes) :=
  match x.doing with
  | .turn p => p.writing?
  | _ => none

/-- What is written at a moment through the outlet of a child. -/
def output (x : Moment) (pid : Int) : Bytes :=
  match x.writing? with
  | some (number, bytes) => if x.before.outlet? pid = some number then bytes else []
  | none => []

/-- The child of the shell from which the process descends that has its turn. -/
def root? (x : Moment) : Option Int :=
  match x.doing with
  | .turn p => some p.root
  | _ => none

/-- Something is written through the outlet of a child. -/
def Writes (x : Moment) (pid : Int) : Prop :=
  ∃ number bytes, x.writing? = some (number, bytes) ∧ x.before.outlet? pid = some number

end Moment

/-- What is written through the outlet of a child, moment by moment. -/
def outputOf (pid : Int) (xs : List Moment) : Bytes := xs.flatMap (·.output pid)

section

variable {x : Moment} {xs ys : List Moment} {pid : Int} {number : Nat} {bytes : Bytes}

theorem Moment.writes_iff :
    x.Writes pid ↔ x.writing?.isSome ∧ x.writing?.map Prod.fst = x.before.outlet? pid := by
  unfold Writes
  rcases x.writing? with _ | ⟨number, bytes⟩
  · simp
  · simp [eq_comm]

instance (x : Moment) (pid : Int) : Decidable (x.Writes pid) :=
  decidable_of_iff _ Moment.writes_iff.symm

theorem Moment.output_eq_nil (h : ¬ x.Writes pid) : x.output pid = [] := by
  unfold output
  split
  · rename_i number bytes hwriting
    exact if_neg fun houtlet => h ⟨number, bytes, hwriting, houtlet⟩
  · rfl

theorem Moment.output_eq (hwriting : x.writing? = some (number, bytes))
    (houtlet : x.before.outlet? pid = some number) : x.output pid = bytes := by
  unfold output
  rw [hwriting]
  exact if_pos houtlet

theorem Moment.not_writes_of_outlet? (h : x.before.outlet? pid = none) : ¬ x.Writes pid := by
  rintro ⟨number, bytes, -, houtlet⟩
  rw [h] at houtlet
  cases houtlet

/-- What is written to an open file of which everything is written at the end. -/
theorem Machine.AtEnd.written {n : Nat} {data : Bytes} (h : x.before.AtEnd number n data)
    (hx : x.Occurs) (hwriting : x.writing? = some (number, bytes)) :
    x.after.AtEnd number n (data ++ bytes) := by
  cases hx with
  | turn held hp => exact h.step hwriting held
  | start m a => cases hwriting
  | other hact => cases hwriting

theorem outputOf_append : outputOf pid (xs ++ ys) = outputOf pid xs ++ outputOf pid ys :=
  List.flatMap_append

theorem outputOf_singleton : outputOf pid [x] = x.output pid := by
  simp [outputOf]

theorem outputOf_eq_nil (h : ∀ x ∈ xs, ¬ x.Writes pid) : outputOf pid xs = [] :=
  List.flatMap_eq_nil_iff.2 fun x hx => Moment.output_eq_nil (h x hx)

end

/-! ### One file -/

/-- The file into which the output of a process goes. -/
def Machine.outletNode? (m : Machine) (pid : Int) : Option Nat :=
  ((m.outlet? pid).bind (m.openings[·]?)).map (·.node)

namespace Moment

/-- A child opens a file, and its output goes there from now on. -/
def Opens (x : Moment) (pid : Int) (n : Nat) : Prop :=
  x.before.outlet? pid = none ∧ x.after.outletNode? pid = some n ∧ (x.after.contents? n).isSome

/-- Whoever has an outlet already, or has none afterwards, does not open it. -/
theorem not_opens {x : Moment} {pid : Int} {n : Nat}
    (h : x.after.outlet? pid = x.before.outlet? pid) : ¬ x.Opens pid n := by
  rintro ⟨hbefore, hnode, -⟩
  rw [Machine.outletNode?, h, hbefore] at hnode
  cases hnode

instance (x : Moment) (pid : Int) (n : Nat) : Decidable (x.Opens pid n) :=
  inferInstanceAs (Decidable (_ ∧ _ ∧ _))

/-- No child opens the file, and nothing is written through an outlet. -/
def Idle (x : Moment) (n : Nat) (children : List Int) : Prop :=
  ∀ pid ∈ children, ¬ x.Writes pid ∧ ¬ x.Opens pid n

/-- **A file is written in no other way** than through the outlets of children that have not ended. -/
structure Respects (x : Moment) (n : Nat) (children : List Int) : Prop where
  /-- Nothing is written through the outlet of a child after its end. -/
  timely : ∀ pid ∈ children, x.Writes pid → ¬ x.before.IsOver pid
  /-- Nobody writes there but the child and who descends from it. -/
  own : ∀ pid ∈ children, x.Writes pid → x.root? = some pid
  /-- When it is not the children's moment the file is left alone. -/
  contents : x.Idle n children → x.after.contents? n = x.before.contents? n
  /-- And so are their outlets: nobody moves the positions. -/
  openings : x.Idle n children → ∀ pid ∈ children, ¬ x.before.IsOver pid →
    ∀ number ∈ x.before.outlet? pid, x.after.openings[number]? = x.before.openings[number]?

instance (x : Moment) (n : Nat) (children : List Int) : Decidable (x.Idle n children) :=
  inferInstanceAs (Decidable (∀ pid ∈ children, _))

instance (x : Moment) (n : Nat) (children : List Int) : Decidable (x.Respects n children) :=
  decidable_of_iff
    ((∀ pid ∈ children, x.Writes pid → ¬ x.before.IsOver pid ∧ x.root? = some pid) ∧
      (x.Idle n children → x.after.contents? n = x.before.contents? n ∧
        ∀ pid ∈ children, ¬ x.before.IsOver pid →
          ∀ number ∈ x.before.outlet? pid, x.after.openings[number]? = x.before.openings[number]?))
    ⟨fun h => ⟨fun pid hpid hwrites => (h.1 pid hpid hwrites).1,
        fun pid hpid hwrites => (h.1 pid hpid hwrites).2, fun hidle => (h.2 hidle).1,
        fun hidle => (h.2 hidle).2⟩,
      fun h => ⟨fun pid hpid hwrites => ⟨h.timely pid hpid hwrites, h.own pid hpid hwrites⟩,
        fun hidle => ⟨h.contents hidle, h.openings hidle⟩⟩⟩

theorem Opens.of_redirects {x : Moment} {pid : Int} {n : Nat} {r : Redirection}
    (h : x.Opens pid n) (hredirects : x.before.Redirects x.after pid r) :
    x.after.openings = x.before.openings ++ [Scene.fresh r.direction n] ∧
      x.after.contents? n = some (r.direction.left (x.before.contents? n)) := by
  obtain ⟨-, hnode, hcontents⟩ := h
  obtain ⟨n', hopenings, hleft⟩ := hredirects.opened
  have hn : n' = n := by
    rw [Machine.outletNode?, hredirects.after] at hnode
    simpa [hopenings, Scene.fresh] using hnode
  subst hn
  obtain ⟨data, hdata⟩ := Option.isSome_iff_exists.1 hcontents
  exact ⟨hopenings, by rw [hdata, hleft data hdata]⟩

end Moment

/-- **What a command leaves of the bytes in the file** into which its output is redirected, before it
has written anything. -/
def Command.left (c : Command) (old : Option Bytes) : Bytes :=
  match c.outlets with
  | r :: _ => r.direction.left old
  | [] => old.getD []

/-- **What the outputs of commands make of the bytes in a file**, one after another. -/
def accumulated (initial : Option Bytes) (parts : List (Command × Bytes)) : Option Bytes :=
  parts.foldl (fun old part => some (part.1.left old ++ part.2)) initial

theorem accumulated_append (initial : Option Bytes) (parts more : List (Command × Bytes)) :
    accumulated initial (parts ++ more) = accumulated (accumulated initial parts) more :=
  List.foldl_append

theorem accumulated_concat (initial : Option Bytes) (parts : List (Command × Bytes)) (c : Command)
    (bytes : Bytes) : accumulated initial (parts ++ [(c, bytes)]) =
      some (c.left (accumulated initial parts) ++ bytes) := by
  rw [accumulated_append]
  rfl

/-! ### Children whose output goes into the file -/

/-- **A file is reserved for the output of children**: each of them gets as far as opening it, and it
is written in no other way. -/
structure Reserved (n : Nat) (xs : List Moment) : Prop where
  opens : ∀ c ∈ started xs, ∃ x ∈ xs, x.Opens c.1 n
  respects : ∀ x ∈ xs, x.Respects n ((started xs).map Prod.fst)

instance (n : Nat) (xs : List Moment) : Decidable (Reserved n xs) :=
  decidable_of_iff ((∀ c ∈ started xs, ∃ x ∈ xs, x.Opens c.1 n) ∧
      ∀ x ∈ xs, x.Respects n ((started xs).map Prod.fst))
    ⟨fun h => ⟨h.1, h.2⟩, fun h => ⟨h.opens, h.respects⟩⟩

/-- **Children whose output goes into one file**, one after another, while nobody else writes it. -/
structure Filling (n : Nat) (m : Machine) (xs : List Moment) (m' : Machine) : Prop
    extends Reserved n xs where
  passage : Passage m xs m'
  grouped : m.Grouped
  able : ∀ c ∈ started xs, c.2.Able
  /-- Each of them has its output redirected once. -/
  once : ∀ c ∈ started xs, ∃ r, c.2.command.outlets = [r]
  oneByOne : OneByOne xs

/-- The commands that have opened the file so far, with what they have written. -/
def Machine.parts (m : Machine) (xs : List Moment) (children : List (Int × Assignment)) :
    List (Command × Bytes) :=
  (children.filter fun c => (m.outlet? c.1).isSome).map fun c => (c.2.command, outputOf c.1 xs)

/-- **What a file has come to meanwhile**: it holds what has been written so far, who has not opened it
has written nothing, and who has not ended writes at the end. -/
structure Tally (n : Nat) (initial : Option Bytes) (xs : List Moment) (m : Machine) : Prop where
  contents : m.contents? n = accumulated initial (m.parts xs (started xs))
  silent : ∀ c ∈ started xs, m.outlet? c.1 = none → outputOf c.1 xs = []
  atEnd : ∀ c ∈ started xs, ¬ m.IsOver c.1 →
    ∀ number, m.outlet? c.1 = some number → ∃ data, m.AtEnd number n data

section Parts

variable {m : Machine} {x : Moment} {xs ys : List Moment} {c : Int × Assignment}
  {cs ds : List (Int × Assignment)}

theorem Machine.parts_append : m.parts xs (cs ++ ds) = m.parts xs cs ++ m.parts xs ds := by
  simp [parts]

theorem Machine.parts_of_none (h : ∀ c ∈ cs, m.outlet? c.1 = none) : m.parts xs cs = [] := by
  rw [parts, List.map_eq_nil_iff, List.filter_eq_nil_iff]
  intro c hc
  simp [h c hc]

theorem Machine.parts_singleton {number : Nat} (h : m.outlet? c.1 = some number) :
    m.parts xs [c] = [(c.2.command, outputOf c.1 xs)] := by
  simp [parts, h]

/-- A moment that does nothing for the children. -/
theorem Moment.parts_eq (hsame : ∀ c ∈ cs, x.after.outlet? c.1 = x.before.outlet? c.1)
    (hquiet : ∀ c ∈ cs, ¬ x.Writes c.1) : x.after.parts (ys ++ [x]) cs = x.before.parts ys cs := by
  unfold Machine.parts
  rw [List.filter_congr fun c hc => by rw [hsame c hc]]
  refine List.map_congr_left fun c hc => ?_
  rw [outputOf_append, outputOf_singleton, output_eq_nil (hquiet c (List.mem_of_mem_filter hc)),
    List.append_nil]

end Parts

namespace Filling

variable {n : Nat} {m m' m₁ : Machine} {xs ys zs : List Moment} {x : Moment}
  {c : Int × Assignment}

theorem outlets_ne_nil (h : Filling n m xs m') (hc : c ∈ started xs) :
    c.2.command.outlets ≠ [] := by
  obtain ⟨r, hr⟩ := h.once c hc
  rw [hr]
  exact List.cons_ne_nil r []

/-- The machine at one of the moments. -/
theorem at_moment (h : Filling n m (ys ++ x :: zs) m') :
    Passage m ys x.before ∧ x.Occurs ∧ x.before.Grouped ∧ Passage x.before (x :: zs) m' := by
  obtain ⟨hys, hx, hzs⟩ := h.passage.at
  exact ⟨hys, hx, hys.grouped h.grouped, (Passage.single hx).trans hzs⟩

/-- The start of a child, and what has happened before and after it. -/
theorem start_of_mem (h : Filling n m (ys ++ zs) m') (hys : Passage m ys m₁)
    (hc : c ∈ started ys) : ∃ before m₀ after, Passage m before m₀ ∧ c.1 = m₀.nextPid ∧
      (m₀.start c.1 c.2).Rears c.1 c.2 ∧ (m₀.start c.1 c.2).Grouped ∧
        Passage (m₀.start c.1 c.2) after m₁ := by
  obtain ⟨before, m₀, after, hbefore, hpid, hafter⟩ := hys.start_of_mem hc
  have hm := hbefore.grouped h.grouped
  rw [← hpid] at hafter
  exact ⟨before, m₀, after, hbefore, hpid,
    hpid ▸ (Machine.rears_start (h.able c (mem_started_left hc zs)) hm).1,
    hpid ▸ (Machine.Act.start c.2).grouped hm, hafter⟩

/-- Who has been started is here. -/
theorem rears (h : Filling n m (ys ++ zs) m') (hys : Passage m ys m₁) :
    ∀ c ∈ started ys, m₁.Rears c.1 c.2 := by
  intro c hc
  have hmem := mem_started_left hc zs
  obtain ⟨_, _, _, -, -, hrears, hm, hafter⟩ := h.start_of_mem hys hc
  exact (hrears.passage (h.able c hmem) (h.outlets_ne_nil hmem) hm hafter).1

/-- Who is started later has no outlet, and gets none. -/
theorem unborn (h : Filling n m (ys ++ x :: zs) m') (hc : c ∈ started (x :: zs)) :
    x.before.outlet? c.1 = none ∧ x.after.outlet? c.1 = none := by
  obtain ⟨-, -, hm, hpassage⟩ := h.at_moment
  exact hpassage.outlet?_unborn hm hc (h.able c (mem_started_right ys hc))

/-- Nothing has been written for who is started later. -/
theorem outputOf_unborn (h : Filling n m (ys ++ zs) m') (hc : c ∈ started zs) :
    outputOf c.1 ys = [] := by
  refine outputOf_eq_nil fun y hy => ?_
  obtain ⟨before, after, rfl⟩ := List.append_of_mem hy
  rw [List.append_assoc] at h
  exact Moment.not_writes_of_outlet? (h.unborn (mem_started_right (y :: after) hc)).1

/-- Who has an outlet after one of the moments keeps it. -/
theorem kept (h : Filling n m (ys ++ x :: zs) m') (hc : c ∈ started ys) {between : List Moment}
    (hbetween : Passage x.after between m₁) {number : Nat}
    (hnumber : x.after.outlet? c.1 = some number) : m₁.outlet? c.1 = some number := by
  have hmem := mem_started_left hc (x :: zs)
  have hable := h.able c hmem
  have houtlets := h.outlets_ne_nil hmem
  obtain ⟨hys, hoccurs, hm, -⟩ := h.at_moment
  obtain ⟨deeds, hact⟩ := hoccurs.act
  obtain ⟨hrears, -⟩ := (h.rears hys c hc).act hable houtlets hm hact
  exact (hrears.passage hable houtlets (hact.grouped hm) hbetween).2 number hnumber

/-- Who has opened the file has an outlet. -/
theorem outlet?_of_opens (h : Filling n m (ys ++ zs) m') (hys : Passage m ys m₁)
    (hc : c ∈ started (ys ++ zs)) (hx : x ∈ ys) (hopens : x.Opens c.1 n) :
    ∃ number, m₁.outlet? c.1 = some number := by
  obtain ⟨before, after, rfl⟩ := List.append_of_mem hx
  rw [List.append_assoc, List.cons_append] at h hc
  -- only a child that has been started opens anything
  have hbefore : c ∈ started before := by
    rw [started_append, List.mem_append] at hc
    refine hc.resolve_right fun hlater => ?_
    have hnode := hopens.2.1
    rw [Machine.outletNode?, (h.unborn hlater).2] at hnode
    cases hnode
  obtain ⟨number, hnumber⟩ : ∃ number, x.after.outlet? c.1 = some number := by
    have hnode := hopens.2.1
    rw [Machine.outletNode?, Option.map_eq_some_iff] at hnode
    obtain ⟨o, ho, -⟩ := hnode
    obtain ⟨number, hnumber, -⟩ := Option.bind_eq_some_iff.1 ho
    exact ⟨number, hnumber⟩
  obtain ⟨-, -, hafter⟩ := hys.at
  exact ⟨number, h.kept hbefore hafter hnumber⟩

/-- **A child that opens a file to write it opens the file.** -/
theorem opens_of_redirects (h : Filling n m (ys ++ x :: zs) m') (hc : c ∈ started ys)
    {r : Redirection} (hredirects : x.before.Redirects x.after c.1 r) : x.Opens c.1 n := by
  have hmem := mem_started_left hc (x :: zs)
  obtain ⟨hys, -, -, -⟩ := h.at_moment
  obtain ⟨y, hy, hopens⟩ := h.opens c hmem
  -- it has had no outlet before this moment, and has one ever since
  rcases List.mem_append.1 hy with hearlier | hlater
  · obtain ⟨number, hnumber⟩ := h.outlet?_of_opens hys hmem hearlier hopens
    rw [hredirects.before] at hnumber
    cases hnumber
  rcases List.mem_cons.1 hlater with rfl | hlater
  · exact hopens
  · obtain ⟨before, after, rfl⟩ := List.append_of_mem hlater
    obtain ⟨-, -, hafter⟩ := h.passage.at
    have hnumber := h.kept hc hafter.at.1 hredirects.after
    rw [hopens.1] at hnumber
    cases hnumber

/-! ### Moment by moment -/

/-- Who has ended neither opens nor writes anything. -/
theorem still (h : Filling n m (ys ++ x :: zs) m') (hc : c ∈ started ys)
    (hover : x.before.IsOver c.1) :
    x.after.outlet? c.1 = x.before.outlet? c.1 ∧ ¬ x.Writes c.1 := by
  obtain ⟨-, hoccurs, hm, -⟩ := h.at_moment
  obtain ⟨deeds, hact⟩ := hoccurs.act
  refine ⟨hover.outlet?_act hm hact, fun hwrites => ?_⟩
  have hmem := mem_started_left hc (x :: zs)
  exact (h.respects x (by simp)).timely c.1 (List.mem_map_of_mem hmem) hwrites hover

/-- A child of this moment has nothing yet. -/
theorem newborn (h : Filling n m (ys ++ x :: zs) m') (hc : c ∈ x.start?.toList) :
    x.after.outlet? c.1 = none ∧ outputOf c.1 (ys ++ [x]) = [] := by
  have hlater : c ∈ started (x :: zs) := by
    rw [started_cons]
    exact List.mem_append_left _ hc
  obtain ⟨hbefore, hafter⟩ := h.unborn hlater
  refine ⟨hafter, ?_⟩
  rw [outputOf_append, h.outputOf_unborn hlater, outputOf_singleton,
    Moment.output_eq_nil (Moment.not_writes_of_outlet? hbefore)]
  rfl

/-- **A moment at which no child opens the file or writes.** -/
theorem tally_idle {initial : Option Bytes} (h : Filling n m (ys ++ x :: zs) m')
    (ht : Tally n initial ys x.before)
    (hsame : ∀ c ∈ started ys, x.after.outlet? c.1 = x.before.outlet? c.1)
    (hquiet : ∀ c ∈ started ys, ¬ x.Writes c.1) : Tally n initial (ys ++ [x]) x.after := by
  obtain ⟨-, hoccurs, hm, -⟩ := h.at_moment
  have hrespects := h.respects x (by simp)
  -- nor does a child that is started later, as it is not there yet
  have hidle : x.Idle n ((started (ys ++ x :: zs)).map Prod.fst) := by
    rw [started_append]
    simp only [Moment.Idle, List.forall_mem_map, List.mem_append]
    rintro c (hc | hc)
    · exact ⟨hquiet c hc, Moment.not_opens (hsame c hc)⟩
    · obtain ⟨hbefore, hafter⟩ := h.unborn hc
      exact ⟨Moment.not_writes_of_outlet? hbefore, Moment.not_opens (hafter.trans hbefore.symm)⟩
  have hcontents := hrespects.contents hidle
  refine ⟨?_, ?_, ?_⟩
  · rw [hcontents, ht.contents, started_append, started_singleton, Machine.parts_append,
      Machine.parts_of_none fun c hc => (h.newborn hc).1, List.append_nil,
      Moment.parts_eq hsame hquiet]
  · simp only [started_append, started_singleton, List.mem_append]
    rintro c (hc | hc) hnone
    · rw [outputOf_append, ht.silent c hc ((hsame c hc).symm.trans hnone), outputOf_singleton,
        Moment.output_eq_nil (hquiet c hc)]
      rfl
    · exact (h.newborn hc).2
  · simp only [started_append, started_singleton, List.mem_append]
    rintro c (hc | hc) halive number hnumber
    · have halive' : ¬ x.before.IsOver c.1 := fun hover =>
        halive (hover.passage hm (.single hoccurs))
      rw [hsame c hc] at hnumber
      obtain ⟨data, hatEnd⟩ := ht.atEnd c hc halive' number hnumber
      have hmem := List.mem_map_of_mem (f := Prod.fst) (mem_started_left hc (x :: zs))
      exact ⟨data, hatEnd.of_eq hcontents (hrespects.openings hidle c.1 hmem halive' number hnumber)⟩
    · rw [(h.newborn hc).1] at hnumber
      cases hnumber

section Last

variable {earlier : List (Int × Assignment)} {initial : Option Bytes}
  (h : Filling n m (ys ++ x :: zs) m') (ht : Tally n initial ys x.before)
  (hstarted : started ys = earlier ++ [c]) (hearlier : ∀ d ∈ earlier, x.before.IsOver d.1)
  (hnone : x.start? = none)

include h hstarted hearlier

/-- What the children before the last one have written stays as it is. -/
theorem parts_earlier : x.after.parts (ys ++ [x]) earlier = x.before.parts ys earlier := by
  have hmem : ∀ d ∈ earlier, d ∈ started ys := fun d hd => hstarted ▸ List.mem_append_left _ hd
  exact Moment.parts_eq (fun d hd => (h.still (hmem d hd) (hearlier d hd)).1)
    fun d hd => (h.still (hmem d hd) (hearlier d hd)).2

include hnone ht

/-- Only for the last child there is something to show. -/
theorem tally_last {number : Nat} {data : Bytes} (houtlet : x.after.outlet? c.1 = some number)
    (hatEnd : x.after.AtEnd number n data)
    (hdata : some data = accumulated initial
      (x.before.parts ys earlier ++ [(c.2.command, outputOf c.1 (ys ++ [x]))])) :
    Tally n initial (ys ++ [x]) x.after := by
  obtain ⟨-, hoccurs, hm, -⟩ := h.at_moment
  have hchildren : started (ys ++ [x]) = earlier ++ [c] := by
    rw [started_append, started_singleton, hnone, Option.toList_none, List.append_nil, hstarted]
  have hmem : ∀ d ∈ earlier, d ∈ started ys := fun d hd => hstarted ▸ List.mem_append_left _ hd
  refine ⟨?_, ?_, ?_⟩
  · rw [hatEnd.contents, hdata, hchildren, Machine.parts_append, Machine.parts_singleton houtlet,
      h.parts_earlier hstarted hearlier]
  · rw [hchildren]
    simp only [List.mem_append, List.mem_singleton]
    rintro d (hd | rfl) hno
    · obtain ⟨hsame, hquiet⟩ := h.still (hmem d hd) (hearlier d hd)
      rw [outputOf_append, ht.silent d (hmem d hd) (hsame.symm.trans hno), outputOf_singleton,
        Moment.output_eq_nil hquiet]
      rfl
    · rw [houtlet] at hno
      cases hno
  · rw [hchildren]
    simp only [List.mem_append, List.mem_singleton]
    rintro d (hd | rfl) halive number' hnumber'
    · exact absurd ((hearlier d hd).passage hm (.single hoccurs)) halive
    · obtain rfl : number = number' := Option.some.inj (houtlet.symm.trans hnumber')
      exact ⟨data, hatEnd⟩

/-- **The last child opens the file.** -/
theorem tally_opens {r : Redirection} (hr : r ∈ c.2.command.outlets)
    (hredirects : x.before.Redirects x.after c.1 r) : Tally n initial (ys ++ [x]) x.after := by
  have hc : c ∈ started ys := by
    rw [hstarted]
    exact List.mem_append_right _ (List.mem_singleton_self c)
  have hmem := mem_started_left hc (x :: zs)
  obtain ⟨hopenings, hcontents⟩ := (h.opens_of_redirects hc hredirects).of_redirects hredirects
  have hleft : c.2.command.left = r.direction.left := by
    obtain ⟨r', hr'⟩ := h.once c hmem
    rw [hr', List.mem_singleton] at hr
    funext old
    rw [Command.left, hr', hr]
  have hsilent : outputOf c.1 (ys ++ [x]) = [] := by
    rw [outputOf_append, ht.silent c hc hredirects.before, outputOf_singleton,
      Moment.output_eq_nil (Moment.not_writes_of_outlet? hredirects.before)]
    rfl
  have hbefore : x.before.parts ys (started ys) = x.before.parts ys earlier := by
    have hlast : x.before.parts ys [c] = [] :=
      Machine.parts_of_none (by simpa using hredirects.before)
    rw [hstarted, Machine.parts_append, hlast, List.append_nil]
  refine tally_last h ht hstarted hearlier hnone hredirects.after ⟨hcontents, ?_⟩ ?_
  · refine ⟨Scene.fresh r.direction n, by simp [hopenings], rfl, ?_⟩
    cases hdirection : r.direction with
    | input => exact absurd hdirection hredirects.direction
    | output => exact ⟨rfl, .inr rfl⟩
    | append => exact ⟨rfl, .inl rfl⟩
  · rw [accumulated_concat, hsilent, hleft, ht.contents, hbefore, List.append_nil]

/-- **Something is written for the last child.** -/
theorem tally_writes (hsame : x.after.outlet? c.1 = x.before.outlet? c.1)
    (halive : ¬ x.before.IsOver c.1) (hwrites : x.Writes c.1) :
    Tally n initial (ys ++ [x]) x.after := by
  have hc : c ∈ started ys := by
    rw [hstarted]
    exact List.mem_append_right _ (List.mem_singleton_self c)
  obtain ⟨number, bytes, hwriting, houtlet⟩ := hwrites
  obtain ⟨data, hatEnd⟩ := ht.atEnd c hc halive number houtlet
  have hdata := hatEnd.contents.symm.trans ht.contents
  rw [hstarted, Machine.parts_append, Machine.parts_singleton houtlet, accumulated_concat] at hdata
  refine tally_last h ht hstarted hearlier hnone (hsame.trans houtlet) (hatEnd.written
    h.at_moment.2.1 hwriting) ?_
  rw [accumulated_concat, outputOf_append, outputOf_singleton, Moment.output_eq hwriting houtlet,
    ← List.append_assoc, Option.some.inj hdata]

end Last

/-- **Each moment leaves the file with what has been written so far.** -/
theorem tally_snoc {initial : Option Bytes} (h : Filling n m (ys ++ x :: zs) m')
    (ht : Tally n initial ys x.before) : Tally n initial (ys ++ [x]) x.after := by
  obtain ⟨hys, hoccurs, hm, -⟩ := h.at_moment
  -- all but the last child have ended, so only the last one can do anything
  rcases List.eq_nil_or_concat (started ys) with hempty | ⟨earlier, c, hstarted⟩
  · exact h.tally_idle ht (by simp [hempty]) (by simp [hempty])
  rw [List.concat_eq_append] at hstarted
  have hearlier := h.oneByOne.isOver h.grouped hys hstarted
  have hc : c ∈ started ys := by
    rw [hstarted]
    exact List.mem_append_right _ (List.mem_singleton_self c)
  have hrest : ∀ d ∈ started ys, d ≠ c → x.before.IsOver d.1 := by
    rw [hstarted]
    intro d hd hne
    exact hearlier d ((List.mem_append.1 hd).resolve_right (by simpa using hne))
  by_cases hover : x.before.IsOver c.1
  · -- there is nobody left to do anything
    have hall : ∀ d ∈ started ys, x.before.IsOver d.1 := fun d hd =>
      if heq : d = c then heq ▸ hover else hrest d hd heq
    exact h.tally_idle ht (fun d hd => (h.still hd (hall d hd)).1)
      fun d hd => (h.still hd (hall d hd)).2
  -- as long as it has not ended, no other one is started
  have hnone : x.start? = none := by
    by_contra hsome
    exact hover (h.oneByOne ys x zs rfl (Option.isSome_iff_ne_none.2 hsome) c hc)
  have hmem := mem_started_left hc (x :: zs)
  obtain ⟨deeds, hact⟩ := hoccurs.act
  obtain ⟨-, hsame | ⟨r, hr, hredirects⟩⟩ :=
    (h.rears hys c hc).act (h.able c hmem) (h.outlets_ne_nil hmem) hm hact
  · by_cases hwrites : x.Writes c.1
    · exact h.tally_writes ht hstarted hearlier hnone hsame hover hwrites
    · refine h.tally_idle ht (fun d hd => ?_) fun d hd => ?_
      · exact if heq : d = c then heq ▸ hsame else (h.still hd (hrest d hd heq)).1
      · exact if heq : d = c then heq ▸ hwrites else (h.still hd (hrest d hd heq)).2
  · exact h.tally_opens ht hstarted hearlier hnone hr hredirects

/-- The induction is on the moments, from the first one. -/
theorem tally (h : Filling n m (ys ++ zs) m') (hys : Passage m ys m₁) :
    Tally n (m.contents? n) ys m₁ := by
  induction ys using List.reverseRecOn generalizing m₁ zs with
  | nil =>
      obtain rfl := hys.of_nil
      exact ⟨rfl, nofun, nofun⟩
  | append_singleton ys x ih =>
      obtain ⟨hbefore, -, rfl⟩ := hys.of_snoc
      rw [List.append_assoc, List.singleton_append] at h
      exact h.tally_snoc (ih h hbefore)

/-- **What is in the file in the end** is what the commands have made of it, one after another. -/
theorem contents (h : Filling n m xs m') : m'.contents? n =
    accumulated (m.contents? n) ((started xs).map fun c => (c.2.command, outputOf c.1 xs)) := by
  have h' : Filling n m (xs ++ []) m' := by rwa [List.append_nil]
  have hopen : ∀ c ∈ started xs, (m'.outlet? c.1).isSome := by
    intro c hc
    obtain ⟨x, hx, hopens⟩ := h.opens c hc
    obtain ⟨number, hnumber⟩ := h'.outlet?_of_opens h.passage (by rwa [List.append_nil]) hx hopens
    rw [hnumber]
    rfl
  rw [(h'.tally h.passage).contents, Machine.parts, List.filter_eq_self.2 hopen]

/-- **Nothing is written for a child any more** when the next one is started. -/
theorem settled (h : Filling n m (ys ++ x :: zs) m') (hstart : x.start?.isSome)
    (hc : c ∈ started ys) : outputOf c.1 (x :: zs) = [] := by
  obtain ⟨-, -, hm, hpassage⟩ := h.at_moment
  have hover := h.oneByOne ys x zs rfl hstart c hc
  refine outputOf_eq_nil fun y hy hwrites => ?_
  obtain ⟨before, after, heq⟩ := List.append_of_mem hy
  rw [heq] at hpassage
  exact (h.respects y (List.mem_append_right _ hy)).timely c.1
    (List.mem_map_of_mem (mem_started_left hc (x :: zs))) hwrites (hover.passage hm hpassage.at.1)

/-- A child that has not come to its program is alone. -/
theorem solitary (h : Filling n m (ys ++ zs) m') (hroots : m.Rooted) (hys : Passage m ys m₁) :
    ∀ c ∈ started ys, m₁.Solitary c.1 := by
  intro c hc
  have hmem := mem_started_left hc zs
  obtain ⟨before, m₀, after, hbefore, hpid, hrears, hm, hafter⟩ := h.start_of_mem hys hc
  have hstart := Machine.Solitary.start (a := c.2) (hroots.passage h.grouped hbefore)
  rw [← hpid] at hstart
  exact hstart.passage hrears (h.able c hmem) (h.outlets_ne_nil hmem) hm hafter

/-- **Nothing is written for a child that does not come to its program.** -/
theorem unexecuted (h : Filling n m xs m') (hroots : m.Rooted) (hc : c ∈ started xs)
    (hnone : ∀ p ∈ m'.processes, p.pid = c.1 → p.image = none) : outputOf c.1 xs = [] := by
  refine outputOf_eq_nil fun x hx hwrites => ?_
  obtain ⟨ys, zs, rfl⟩ := List.append_of_mem hx
  obtain ⟨hys, hoccurs, hm, hpassage⟩ := h.at_moment
  have hroot := (h.respects x hx).own c.1 (List.mem_map_of_mem hc) hwrites
  have hearlier : c ∈ started ys := by
    rw [started_append, List.mem_append] at hc
    exact hc.resolve_right fun hlater =>
      Moment.not_writes_of_outlet? (h.unborn hlater).1 hwrites
  have hrears := h.rears hys c hearlier
  obtain ⟨v, hv, hpid, -, -⟩ := hrears
  have himage : v.image = none := by
    by_contra hsome
    obtain ⟨w, hw, hwpid, himage⟩ :=
      hpassage.image_isSome hm hv (Option.isSome_iff_ne_none.2 hsome)
    obtain ⟨p, hp, rfl⟩ := List.mem_map.1 hw
    have himage' : p.image.isSome = true := himage
    rw [hnone p hp (hwpid.trans hpid)] at himage'
    cases himage'
  obtain ⟨number, bytes, hwriting, -⟩ := hwrites
  cases hoccurs with
  | @turn m p held hp =>
      -- who writes descends from the child, so it is the child itself
      obtain ⟨hmem, -⟩ := Machine.mem_standings_of_process? hp
      have hself : p.pid = c.1 :=
        h.solitary hroots hys c hearlier v hv hpid himage p.standing hmem (Option.some.inj hroot)
      obtain rfl := hm.numbered.eq_of_pid hv hmem (hpid.trans hself.symm)
      have hquiet := (h.rears hys c hearlier).writing?_eq_none hm (hself ▸ hp) himage
      cases hquiet.symm.trans hwriting
  | start m a => cases hwriting
  | other hact => cases hwriting

end Filling

end JobShell
