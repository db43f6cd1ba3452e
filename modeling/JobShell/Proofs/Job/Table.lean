/-
**The job table, one entry at a time.**

A status is booked under the process that it names.  What that does to the two lists depends on
the class under which the process is listed, if it is listed: the entry leaves the running list,
whose order is not kept, and unless it was a foreground one it goes to the end of the completed
list.

Main results:

* `JobShell.Ending.decode_ok`, `JobShell.Ending.decode_error_iff` — which ends can be decoded, and
  to what;
* `JobShell.swapRemove_perm` — taking out an element leaves the others;
* `JobShell.JobTable.record_completed`, `JobShell.JobTable.record_running_perm` — booking a status;
* `JobShell.JobTable.register_eq_some_iff` — listing a process.
-/

import JobShell.Job.Table
import Mathlib.Data.List.Nodup

set_option autoImplicit false

namespace JobShell

/-! ### Statuses -/

/-- The signals with a name are those up to 31. -/
theorem Signal.name?_isSome_iff {n : Nat} : (Signal.name? n).isSome ↔ 1 ≤ n ∧ n ≤ 31 := by
  cases n with
  | zero => simp [Signal.name?]
  | succ n =>
      have hlen : Signal.names.length = 31 := rfl
      simp only [Signal.name?, isSome_getElem?, hlen]
      omega

/-- A status names the process that it was decoded for. -/
theorem Ending.decode_ok {e : Ending} {pid : Int} {status : WaitStatus}
    (h : e.decode pid = .ok status) : status.pid? = some pid := by
  cases e with
  | exited code =>
      obtain rfl : WaitStatus.exited pid code = status := by simpa [Ending.decode] using h
      rfl
  | killed n =>
      by_cases hn : (Signal.name? n).isSome
      · obtain rfl : WaitStatus.signaled pid n false = status := by
          simpa [Ending.decode, hn] using h
        rfl
      · simp [Ending.decode, hn] at h

/-- **Decoding fails exactly for the signals without a name.** -/
theorem Ending.decode_error_iff {e : Ending} {pid : Int} {errno : Errno} :
    e.decode pid = .error errno ↔
      errno = Errno.invalid ∧ ∃ n, e = .killed n ∧ ¬ (1 ≤ n ∧ n ≤ 31) := by
  cases e with
  | exited code => simp [Ending.decode]
  | killed n =>
      have hname := @Signal.name?_isSome_iff n
      by_cases hn : (Signal.name? n).isSome
      · simp [Ending.decode, hn, hname.1 hn]
      · have hout : ¬ (1 ≤ n ∧ n ≤ 31) := fun h => hn (hname.2 h)
        simpa [Ending.decode, hn, eq_comm] using fun _ h => Nat.lt_of_not_le fun h' => hout ⟨h, h'⟩

/-! ### Taking out an element -/

/-- What is left besides the element that was taken out. -/
theorem swapRemove_perm {α : Type} {xs : List α} {i : Nat} {x : α} (h : xs[i]? = some x) :
    (x :: swapRemove i xs).Perm xs := by
  rcases List.eq_nil_or_concat xs with rfl | ⟨ys, last, rfl⟩
  · simp at h
  have hswap : swapRemove i (ys ++ [last]) = ((ys ++ [last]).set i last).dropLast := by
    simp [swapRemove]
  rw [List.concat_eq_append] at h ⊢
  rw [hswap]
  obtain ⟨hi, hx⟩ := List.getElem?_eq_some_iff.1 h
  rw [List.length_append, List.length_singleton] at hi
  by_cases hlast : i = ys.length
  · subst hlast
    obtain rfl : last = x := by simpa using hx
    simpa using (List.perm_append_singleton last ys).symm
  · have hi' : i < ys.length := by omega
    have hys : ys = ys.take i ++ x :: ys.drop (i + 1) := by
      rw [List.getElem_append_left hi'] at hx
      rw [← hx, List.getElem_cons_drop, List.take_append_drop]
    rw [List.set_append_left _ _ hi', List.dropLast_concat, List.set_eq_take_append_cons_drop,
      if_pos hi']
    calc (x :: (ys.take i ++ last :: ys.drop (i + 1))).Perm
          (x :: (last :: (ys.take i ++ ys.drop (i + 1)))) := List.perm_middle.cons x
      _ |>.Perm (last :: (x :: (ys.take i ++ ys.drop (i + 1)))) := List.Perm.swap ..
      _ |>.Perm (last :: (ys.take i ++ x :: ys.drop (i + 1))) := List.perm_middle.symm.cons last
      _ |>.Perm (ys ++ [last]) := by
        rw [← hys]
        exact (List.perm_append_singleton last ys).symm

namespace JobTable

variable {t t' : JobTable} {pid : Int} {c : JobClass} {status : WaitStatus}

/-! ### Looking up and releasing -/

theorem hasForeground_iff : t.hasForeground = true ↔ ∃ job ∈ t.running, job.jobClass = .foreground := by
  simp [hasForeground]

theorem classOf?_eq_none_iff : t.classOf? pid = none ↔ ∀ job ∈ t.running, job.pid ≠ pid := by
  simp [classOf?]

/-- If every process is listed once, it is listed under the class of its entry. -/
theorem classOf?_of_mem (honce : (t.running.map (·.pid)).Nodup) {job : Job}
    (hjob : job ∈ t.running) : t.classOf? job.pid = some job.jobClass := by
  cases hfind : t.running.find? (·.pid = job.pid) with
  | none => simpa using List.find?_eq_none.1 hfind job hjob
  | some found =>
      have hpid : found.pid = job.pid := by simpa using List.find?_some hfind
      have hfound : found = job :=
        List.inj_on_of_nodup_map honce (List.mem_of_find?_eq_some hfind) hjob hpid
      rw [classOf?, hfind, hfound, Option.map_some]

/-- If every process is listed once, the order of the list does not matter to where it is listed. -/
theorem classOf?_eq_some_iff (honce : (t.running.map (·.pid)).Nodup) {c : JobClass} :
    t.classOf? pid = some c ↔ ∃ job ∈ t.running, job.pid = pid ∧ job.jobClass = c := by
  constructor
  · intro h
    obtain ⟨job, hfind, rfl⟩ := Option.map_eq_some_iff.1 h
    exact ⟨job, List.mem_of_find?_eq_some hfind, by simpa using List.find?_some hfind, rfl⟩
  · rintro ⟨job, hjob, rfl, rfl⟩
    exact classOf?_of_mem honce hjob

theorem release_of_none (h : t.classOf? pid = none) :
    t.release pid = (⟨pid, .background, .created⟩, t) := by
  have hnone : t.running.findIdx? (·.pid = pid) = none := by
    rw [List.findIdx?_eq_none_iff]
    simpa using classOf?_eq_none_iff.1 h
  simp [release, hnone]

/-- The entry of a listed process is taken out. -/
theorem release_of_some (h : t.classOf? pid = some c) :
    ∃ job running, t.release pid = (job, { t with running := running }) ∧ job.pid = pid ∧
      job.jobClass = c ∧ (job :: running).Perm t.running := by
  obtain ⟨job, hfind, rfl⟩ := Option.map_eq_some_iff.1 h
  obtain ⟨hpid, i, hi, hjob, hbefore⟩ := List.find?_eq_some_iff_getElem.1 hfind
  have hidx : t.running.findIdx? (·.pid = pid) = some i := by
    rw [List.findIdx?_eq_some_iff_getElem]
    exact ⟨hi, by rw [hjob]; exact hpid, fun j hj => by simpa using hbefore j hj⟩
  have hget : t.running[i]? = some job := by rw [List.getElem?_eq_getElem hi, hjob]
  refine ⟨job, swapRemove i t.running, ?_, by simpa using hpid, rfl, swapRemove_perm hget⟩
  simp [release, hidx, hget]

/-! ### Booking a status -/

/-- **What is completed when a status is booked.**  A process that is listed in the foreground is
not; any other is, with its own process id and status, at the end of the list. -/
theorem record_completed (h : status.pid? = some pid) :
    (t.record status).2.completed =
      t.completed ++
        if t.classOf? pid = some .foreground then [] else [⟨pid, .background, .terminated status⟩] := by
  cases hclass : t.classOf? pid with
  | none => simp [record, h, release_of_none hclass]
  | some c =>
      obtain ⟨job, running, hrelease, rfl, rfl, -⟩ := release_of_some hclass
      obtain ⟨pid, c, state⟩ := job
      cases c <;> simp [record, h, hrelease]

theorem record_running_of_none (h : status.pid? = some pid) (hclass : t.classOf? pid = none) :
    (t.record status).2.running = t.running := by
  simp [record, h, release_of_none hclass]

/-- **What runs on when a status is booked.**  The entry of the process is gone, and no other. -/
theorem record_running (h : status.pid? = some pid) (hclass : t.classOf? pid = some c) :
    ∃ job, job.pid = pid ∧ job.jobClass = c ∧
      (job :: (t.record status).2.running).Perm t.running := by
  obtain ⟨job, running, hrelease, hpid, hjob, hperm⟩ := release_of_some hclass
  refine ⟨job, hpid, hjob, ?_⟩
  cases hc : job.jobClass <;> simpa [record, h, hrelease, hc] using hperm

/-- Booking a status lists nothing. -/
theorem mem_running_of_record (h : status.pid? = some pid) {job : Job}
    (hjob : job ∈ (t.record status).2.running) : job ∈ t.running := by
  cases hclass : t.classOf? pid with
  | none => rwa [record_running_of_none h hclass] at hjob
  | some c =>
      obtain ⟨job', -, -, hperm⟩ := record_running h hclass
      exact hperm.subset (List.mem_cons_of_mem _ hjob)

/-- If every process is listed once, booking a status takes out the entry of its process, and no
other. -/
theorem record_running_perm (h : status.pid? = some pid) (honce : (t.running.map (·.pid)).Nodup) :
    (t.record status).2.running.Perm (t.running.filter (·.pid ≠ pid)) := by
  cases hclass : t.classOf? pid with
  | none =>
      rw [record_running_of_none h hclass,
        List.filter_eq_self.2 (by simpa using classOf?_eq_none_iff.1 hclass)]
  | some c =>
      obtain ⟨gone, rfl, -, hperm⟩ := record_running h hclass
      have hnodup := ((hperm.map (·.pid)).nodup_iff).2 honce
      rw [List.map_cons, List.nodup_cons] at hnodup
      have hothers : ∀ job ∈ (t.record status).2.running, job.pid ≠ gone.pid :=
        fun job hjob heq => hnodup.1 (heq ▸ List.mem_map_of_mem hjob)
      have hfilter := hperm.filter fun job => job.pid ≠ gone.pid
      rwa [List.filter_cons_of_neg (by simp), List.filter_eq_self.2 (by simpa using hothers)]
        at hfilter

theorem mem_running_record_iff (h : status.pid? = some pid)
    (honce : (t.running.map (·.pid)).Nodup) {job : Job} :
    job ∈ (t.record status).2.running ↔ job ∈ t.running ∧ job.pid ≠ pid := by
  rw [(record_running_perm h honce).mem_iff, List.mem_filter, decide_eq_true_iff]

/-! ### Listing a process -/

theorem register_eq_some_iff :
    t.register pid c = some t' ↔
      t.classOf? pid = none ∧ t' = { t with running := t.running ++ [⟨pid, c, .running⟩] } := by
  rw [classOf?_eq_none_iff]
  by_cases h : t.running.any (·.pid = pid)
  · simp only [register, h, if_true, reduceCtorEq, false_iff, not_and]
    intro hnone
    obtain ⟨job, hjob, hpid⟩ := List.any_eq_true.1 h
    exact absurd (by simpa using hpid) (hnone job hjob)
  · have hnone : ∀ job ∈ t.running, job.pid ≠ pid := by simpa using h
    have hreg : t.register pid c =
        some { t with running := t.running ++ [⟨pid, c, .running⟩] } := by
      simpa [register] using hnone
    rw [hreg, Option.some_inj]
    exact ⟨fun h => ⟨hnone, h.symm⟩, fun h => h.2.symm⟩

end JobTable

end JobShell
