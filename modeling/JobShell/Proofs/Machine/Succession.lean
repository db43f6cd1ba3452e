/-
**Children one after another.**

While moments go by children come, open the file into which their output is redirected, and end.  None
of this is undone: who has an outlet keeps it, and who has ended stays so.  A child that is started
later is not there before, so it has no outlet then.  If each child is started when those before it
have ended, all children but the last one have ended at any time.

Main definitions:

* `JobShell.Machine.IsOver` — a process has ended;
* `JobShell.OneByOne` — no child is started before those before it have ended.

Main results:

* `JobShell.Machine.IsOver.passage`, `JobShell.Machine.IsOver.outlet?_act` — who has ended stays so,
  and opens nothing;
* `JobShell.Machine.Rears.passage` — who has an outlet keeps it;
* `JobShell.Machine.Passage.outlet?_unborn` — who is started later has none yet;
* `JobShell.OneByOne.isOver` — **all children but the last one have ended.**
-/

import JobShell.Proofs.Machine.Moments
import JobShell.Proofs.Machine.Outlets

set_option autoImplicit false

namespace JobShell

open Standing (Turn Spared)

/-- A child is started under the number that is next. -/
theorem Moment.Occurs.of_start? {x : Moment} {c : Int × Assignment} (hx : x.Occurs)
    (hc : x.start? = some c) :
    c.1 = x.before.nextPid ∧ x.after = x.before.start x.before.nextPid c.2 := by
  cases hx with
  | turn held hp => cases hc
  | start m a =>
      cases hc
      exact ⟨rfl, rfl⟩
  | other hact => cases hc

namespace Machine

variable {a : Assignment} {m m' : Machine} {pid : Int} {acts : List (Int × Deed)}
  {xs ys zs : List Moment} {x : Moment}

theorem Passage.grouped (h : Passage m xs m') (hm : m.Grouped) : m'.Grouped :=
  have ⟨_, hstory⟩ := h.story
  hstory.grouped hm

/-! ### Who has ended -/

/-- A process has ended. -/
def IsOver (m : Machine) (pid : Int) : Prop := ∃ ending, m.HasEnded pid ending

theorem isOver_iff : m.IsOver pid ↔ ∃ p ∈ m.processes, p.pid = pid ∧ p.alive = false := by
  constructor
  · rintro ⟨ending, v, hv, rfl, hphase⟩
    obtain ⟨p, hp, rfl⟩ := List.mem_map.1 hv
    replace hphase : p.phase = .ended ending := hphase
    exact ⟨p, hp, rfl, by rw [Process.alive, hphase]⟩
  · rintro ⟨p, hp, rfl, halive⟩
    unfold Process.alive at halive
    split at halive
    · cases halive
    · rename_i ending hphase
      exact ⟨ending, p.standing, List.mem_map_of_mem hp, rfl, hphase⟩

instance (m : Machine) (pid : Int) : Decidable (m.IsOver pid) := decidable_of_iff _ isOver_iff.symm

theorem IsOver.passage (h : m.IsOver pid) (hm : m.Grouped) (hpassage : Passage m xs m') :
    m'.IsOver pid := by
  obtain ⟨ending, hended⟩ := h
  obtain ⟨deeds, hstory⟩ := hpassage.story
  exact ⟨ending, hstory.hasEnded hm hended⟩

/-- Who has ended opens nothing. -/
theorem IsOver.outlet?_act (h : m.IsOver pid) (hm : m.Grouped) (hact : Act m acts m') :
    m'.outlet? pid = m.outlet? pid := by
  obtain ⟨ending, v, hv, rfl, hphase⟩ := h
  have hkept : v ∈ m'.standings := by
    rcases hact.cases_of hm hv with ⟨p, held, hp, rfl, rfl, -⟩ | ⟨-, ⟨w, hw, hspared⟩, -⟩
    · obtain ⟨w, hw, hturn⟩ := exists_turn hm.numbered hp held
      obtain rfl := Turn.of_ended hturn hphase
      exact hw
    · obtain rfl := Spared.of_ended hspared hphase
      exact hw
  rw [outlet?_of_mem (hact.grouped hm).numbered hkept, outlet?_of_mem hm.numbered hv]

/-! ### Who has an outlet -/

/-- **Who has an outlet keeps it.** -/
theorem Rears.passage (h : m.Rears pid a) (hable : a.Able) (ha : a.command.outlets ≠ [])
    (hm : m.Grouped) (hpassage : Passage m xs m') :
    m'.Rears pid a ∧ ∀ number, m.outlet? pid = some number → m'.outlet? pid = some number := by
  induction hpassage with
  | nil => exact ⟨h, fun _ => id⟩
  | @snoc xs x hxs hx ih =>
      obtain ⟨hrears, hkept⟩ := ih
      obtain ⟨deeds, hact⟩ := hx.act
      obtain ⟨hrears', houtlet⟩ := hrears.act hable ha (hxs.grouped hm) hact
      refine ⟨hrears', fun number hnumber => ?_⟩
      have hbefore := hkept number hnumber
      rcases houtlet with hsame | ⟨r, -, hredirects⟩
      · exact hsame.trans hbefore
      · -- it would have had none
        rw [hredirects.before] at hbefore
        cases hbefore

/-! ### Who is not there yet -/

/-- A number that has not been given is nobody's. -/
theorem outlet?_of_nextPid_le (hm : m.Numbered) (hpid : m.nextPid ≤ pid) :
    m.outlet? pid = none := by
  rw [outlet?_eq, List.find?_eq_none.2, Option.bind_none]
  intro v hv heq
  have hlt := hm.lt v hv
  have hv' : v.pid = pid := by simpa using heq
  omega

/-- Whoever is started gets a number that has not been given before. -/
theorem Passage.nextPid_le (h : Passage m xs m') (hm : m.Grouped) :
    ∀ c ∈ started xs, m.nextPid ≤ c.1 := by
  induction h with
  | nil => simp
  | @snoc xs x hxs hx ih =>
      obtain ⟨deeds, hstory⟩ := hxs.story
      simp only [started_append, started_singleton, List.mem_append, Option.mem_toList]
      rintro c (hc | hc)
      · exact ih c hc
      · rw [(hx.of_start? hc).1]
        exact hstory.nextPid_le hm

/-- The moment at which a child has been started. -/
theorem Passage.start_of_mem (h : Passage m xs m') {c : Int × Assignment} (hc : c ∈ started xs) :
    ∃ before m₀ after, Passage m before m₀ ∧ c.1 = m₀.nextPid ∧
      Passage (m₀.start m₀.nextPid c.2) after m' := by
  obtain ⟨x, hx, hstart⟩ := List.mem_filterMap.1 hc
  obtain ⟨before, after, rfl⟩ := List.append_of_mem hx
  obtain ⟨hbefore, hoccurs, hafter⟩ := h.at
  obtain ⟨hpid, hstarted⟩ := hoccurs.of_start? hstart
  exact ⟨before, x.before, after, hbefore, hpid, hstarted ▸ hafter⟩

/-- **Who is started later has no outlet yet**, nor one as soon as it is started. -/
theorem Passage.outlet?_unborn (h : Passage x.before (x :: xs) m') (hm : x.before.Grouped)
    {c : Int × Assignment} (hc : c ∈ started (x :: xs)) (hable : c.2.Able) :
    x.before.outlet? c.1 = none ∧ x.after.outlet? c.1 = none := by
  obtain ⟨-, hx, hxs⟩ := h.first
  obtain ⟨deeds, hact⟩ := hx.act
  have hm' := hact.grouped hm
  refine ⟨outlet?_of_nextPid_le hm.numbered (h.nextPid_le hm c hc), ?_⟩
  rw [started_cons, List.mem_append, Option.mem_toList] at hc
  rcases hc with hstart | hlater
  · obtain ⟨hpid, hafter⟩ := hx.of_start? hstart
    rw [hpid, hafter]
    exact (rears_start hable hm).2
  · exact outlet?_of_nextPid_le hm'.numbered (hxs.nextPid_le hm' c hlater)

end Machine

/-! ### One by one -/

/-- **No child is started before those before it have ended.** -/
def OneByOne (xs : List Moment) : Prop :=
  ∀ before x after, xs = before ++ x :: after → x.start?.isSome →
    ∀ c ∈ started before, x.before.IsOver c.1

namespace OneByOne

open Machine (Passage)

variable {m m' m'' : Machine} {xs ys zs : List Moment} {x : Moment}

/-- One child alone. -/
theorem of_one {c : Int × Assignment} (h : started xs = [c]) : OneByOne xs := by
  rintro before x after rfl hstart
  obtain ⟨d, hd⟩ := Option.isSome_iff_exists.1 hstart
  rw [started_append, started_cons, hd] at h
  have hlength := congrArg List.length h
  have hnone : started before = [] := by
    rw [← List.length_eq_zero_iff]
    simp only [List.length_append, Option.toList_some, List.length_cons, List.length_nil] at hlength
    omega
  rw [hnone]
  nofun

/-- Children that come when the others have ended. -/
theorem append (hxs : OneByOne xs) (hys : OneByOne ys) (hm : m.Grouped) (h : Passage m ys m')
    (hover : ∀ c ∈ started xs, m.IsOver c.1) : OneByOne (xs ++ ys) := by
  intro before x after heq hstart c hc
  -- the child is started in the second part, or in the first
  rcases List.append_eq_append_iff.1 heq with ⟨between, rfl, rfl⟩ | ⟨between, rfl, hcons⟩
  · rw [started_append, List.mem_append] at hc
    rcases hc with hc | hc
    · exact (hover c hc).passage hm h.at.1
    · exact hys between x after rfl hstart c hc
  · cases between with
    | nil =>
        obtain rfl : ys = x :: after := hcons.symm
        exact h.first.1 ▸ hover c (mem_started_left hc [])
    | cons y between =>
        obtain ⟨rfl, rfl⟩ := List.cons_eq_cons.1 hcons
        exact hxs before x between rfl hstart c hc

/-- **All children but the last one have ended.** -/
theorem isOver (h : OneByOne (ys ++ zs)) (hm : m.Grouped) (hys : Passage m ys m')
    {earlier : List (Int × Assignment)} {c : Int × Assignment}
    (hstarted : started ys = earlier ++ [c]) : ∀ d ∈ earlier, m'.IsOver d.1 := by
  obtain ⟨first, rest, rfl, hfirst, hrest⟩ := List.filterMap_eq_append_iff.1 hstarted
  obtain ⟨before, x, after, rfl, hbefore, hx, -⟩ := List.filterMap_eq_cons_iff.1 hrest
  have hnone : started before = [] := List.filterMap_eq_nil_iff.2 hbefore
  intro d hd
  rw [← List.append_assoc] at hys
  obtain ⟨hpassage, hx', hafter⟩ := hys.at
  have hstart : x.start?.isSome = true := Option.isSome_of_eq_some hx
  refine (h (first ++ before) x (after ++ zs) (by simp) hstart d ?_).passage
    (hpassage.grouped hm) ((Passage.single hx').trans hafter)
  have hfirst' : started first = earlier := hfirst
  rwa [started_append, hnone, List.append_nil, hfirst']

end OneByOne

end JobShell
