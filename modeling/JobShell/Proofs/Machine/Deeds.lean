/-
**What a process does when it has its turn.**

Of what a process does some can be noticed from outside: it writes to the diagnostics that the shell
was given, it runs a program, and it is refused a file or a program that it asks for.  This can be
told from the call that it makes and from the reply.  Some calls cannot fail: a descriptor that is
open can be closed and duplicated, signals can be arranged for, and who leads no group can start a
session.

Main definitions:

* `JobShell.Machine.Deed` — what can be noticed of a process;
* `JobShell.Machine.deeds` — what a process does when it has its turn;
* `JobShell.Call.Grants` — what is known of a reply beforehand.

Main results:

* `JobShell.Machine.perform_grants` — every reply is as it is known to be;
* `JobShell.Machine.perform_diagnostics` — the diagnostics of the shell take everything at once;
* `JobShell.Machine.keeps_of_deeds` — a call that can be noticed leaves all processes as they are.
-/

import JobShell.Machine.Schedule
import JobShell.Proofs.Machine.Standing

set_option autoImplicit false

namespace JobShell

/-- What can be noticed of a process. -/
inductive Machine.Deed where
  /-- It writes to the diagnostics of the shell. -/
  | tells (text : Bytes)
  /-- It runs the file of a path, with its words and variables, and with what it has then. -/
  | runs (path : Bytes) (words : List Bytes) (environment : Environment) (arrival : Arrival)
  /-- It asks to open the file of a path, and is refused. -/
  | denied (path : Bytes) (how : OpenMode) (errno : Errno)
  /-- It asks to run the file of a path, and is refused. -/
  | barred (path : Bytes) (words : List Bytes) (environment : Environment) (errno : Errno)
  deriving DecidableEq, Repr

/-- It is refused something. -/
def Machine.Deed.IsRefusal : Machine.Deed → Prop
  | .denied _ _ _ | .barred _ _ _ _ => True
  | .tells _ | .runs _ _ _ _ => False

namespace Call

/-- What can be noticed of a call that is made with some descriptors and gets a reply. -/
def deeds (d : Descriptors) : (c : Call) → c.Reply → List Machine.Deed
  | .write fd bytes, _ => if d.file? fd = some .diagnostics then [.tells bytes] else []
  | .openPath path how _, reply =>
    match (reply : Except Errno Nat) with
    | .error errno => [.denied path how errno]
    | .ok _ => []
  | .exec path words environment, errno => [.barred path words environment errno]
  | _, _ => []

/-- What is known of the reply to a call of a process with some descriptors, which may lead a
group. -/
def Grants (leads : Prop) (d : Descriptors) : (c : Call) → c.Reply → Prop
  | .close fd, reply => d.isOpen fd = true → (reply : Except Errno Unit) = .ok ()
  | .dup2 old _, reply => d.isOpen old = true → (reply : Except Errno Unit) = .ok ()
  | .dispose _ _, reply => (reply : Except Errno Unit) = .ok ()
  | .unblockChild, reply => (reply : Except Errno Unit) = .ok ()
  | .setsid, reply => ¬ leads → (reply : Except Errno Unit) = .ok ()
  | .write fd bytes, reply =>
    d.file? fd = some .diagnostics → (reply : Except Errno Nat) = .ok bytes.length
  | _, _ => True

/-- Who leads no group has at least as much granted. -/
theorem Grants.weaken {leads : Prop} {d : Descriptors} {c : Call} {reply : c.Reply}
    (h : c.Grants leads d reply) : c.Grants True d reply := by
  cases c with
  | setsid => exact fun hnot => absurd trivial hnot
  | _ => exact h

end Call

namespace Machine

/-- What can be noticed of a call with some outcome. -/
def Outcome.deeds (c : Call) (d : Descriptors) : Outcome c.Reply → List Deed
  | .reply value _ => c.deeds d value
  | .blocked _ => []

/-- What a process does when it has its turn. -/
def deeds (m : Machine) (held : Descriptors) (p : Process) : List Deed :=
  if p.stopped then []
  else
    match p.phase with
    | .running (.call (.exec path words environment) _) =>
      match (m.arrive p).exec p path words environment with
      | .ok _ => [.runs path words environment ⟨p.descriptors, p.opened⟩]
      | .error errno => [.barred path words environment errno]
    | .running (.call c _) => (m.perform held p c).deeds c p.descriptors
    | _ => []

/-- The groups of all processes. -/
def groups (m : Machine) : List Int := m.processes.map (·.group)

variable {m m' : Machine} {p : Process} {held : Descriptors} {c : Call} {reply : c.Reply}

/-- Writing to the diagnostics of the shell. -/
theorem perform_diagnostics {fd : Nat} (hfile : p.descriptors.file? fd = some .diagnostics)
    (bytes : Bytes) :
    m.perform held p (.write fd bytes) =
      .reply (.ok bytes.length) { m with diagnostics := m.diagnostics ++ bytes } := by
  unfold perform
  dsimp only
  unfold write
  rw [hfile]
  rfl

/-- **A call that can be noticed leaves all processes as they are.** -/
theorem keeps_of_deeds (h : m.perform held p c = .reply reply m')
    (hdeeds : c.deeds p.descriptors reply ≠ []) :
    Keeps m m' ∧ c.Affects m.pipes.length m'.pipes.length p.descriptors reply p.descriptors [] := by
  cases c with
  | write fd bytes =>
      have hfile : p.descriptors.file? fd = some .diagnostics := by
        by_contra hfile
        exact hdeeds (if_neg hfile)
      rw [perform_diagnostics hfile] at h
      cases h
      exact ⟨⟨rfl, Nat.le_refl _, rfl⟩, rfl, rfl⟩
  | openPath path how mode =>
      have hopens := @openPath_opens m p held path how mode
      rw [perform] at h
      rcases houtcome : m.openPath held p path how mode with ⟨errno | fd, m''⟩ | m''
      · rw [houtcome] at h hopens
        cases h
        exact ⟨hopens, rfl, rfl⟩
      · rw [houtcome] at h
        cases h
        exact absurd rfl hdeeds
      · rw [houtcome] at h
        cases h
  | exec path words environment =>
      cases h
      exact ⟨.refl m, rfl, rfl⟩
  | _ => exact absurd rfl hdeeds

/-- A process that leads no group may begin a session. -/
theorem setsid_of_notMem_groups (hleads : p.pid ∉ m.groups) :
    m.setsid p = (.ok (), m.update p.pid fun p => { p with group := p.pid, session := p.pid }) := by
  -- a session is refused only where the number of the process is that of a group
  have hnone : ¬ (m.processes.any (·.group = p.pid)) = true := by
    intro hany
    obtain ⟨q, hq, hgroup⟩ := List.any_eq_true.1 hany
    exact hleads (List.mem_map.2 ⟨q, hq, of_decide_eq_true hgroup⟩)
  rw [setsid, if_neg hnone]

/-- **Every reply is as it is known to be.** -/
theorem perform_grants (h : m.perform held p c = .reply reply m') :
    c.Grants (p.pid ∈ m.groups) p.descriptors reply := by
  cases c with
  | close fd =>
      intro hopen
      have hclose : m.close p fd = (.ok (), m.setDescriptors p.pid (p.descriptors.close fd)) :=
        if_pos hopen
      rw [perform, hclose] at h
      cases h
      rfl
  | dup2 old new =>
      intro hopen
      obtain ⟨file, hfile⟩ := Option.isSome_iff_exists.1 hopen
      have hok : (m.dup2 p old new).1 = .ok () := by
        unfold dup2
        rw [hfile]
        dsimp only
        split <;> rfl
      rw [← hok]
      cases h
      rfl
  | dispose signal disposition =>
      cases h
      rfl
  | unblockChild =>
      cases h
      rfl
  | setsid =>
      intro hleads
      have hok : (m.setsid p).1 = .ok () := by rw [setsid_of_notMem_groups hleads]
      rw [← hok]
      cases h
      rfl
  | write fd bytes =>
      -- the diagnostics take all that is written
      intro hfile
      rw [perform_diagnostics hfile] at h
      cases h
      rfl
  | _ => trivial

end Machine

end JobShell
