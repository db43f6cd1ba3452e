/-
**Two runs abreast.**

Two runs are compared that start from different states, or are runs of different computations.
They are abreast if both come to a result, or both stop for the same reason.  What is said of the
two ends may depend on the two results: descriptors that are opened in both runs may have different
numbers.

Main definitions:

* `JobShell.Abreast` — two outcomes of the same kind, and a condition on the two states.

Main results:

* `JobShell.Abreast.bind`, `JobShell.Abreast.get_bind`, `JobShell.Abreast.modify_bind`,
  `JobShell.Abreast.set_bind`, `JobShell.Abreast.throw_bind`, `JobShell.Abreast.ite` — sequence,
  reading and changing the state, stopping, and branching;
* `JobShell.Abreast.releasing`, `JobShell.Abreast.restoring` — the scopes of the shell.
-/

import JobShell.Proofs.Outcome

set_option autoImplicit false

namespace JobShell

/-- Two outcomes: two results and states with `Q`, or one stop twice and states with `E`. -/
inductive Abreast {s α : Type} (Q : α → s → α → s → Prop) (E : s → s → Prop) :
    Except Stop α × s → Except Stop α × s → Prop where
  | ok {a b : α} {t u : s} : Q a t b u → Abreast Q E (.ok a, t) (.ok b, u)
  | stop {stop : Stop} {t u : s} : E t u → Abreast Q E (.error stop, t) (.error stop, u)

namespace Abreast

variable {s α β : Type} {Q Q' : α → s → α → s → Prop} {R : β → s → β → s → Prop}
  {E E' : s → s → Prop} {t u : s}

/-- Less may be said of the two ends. -/
theorem mono {o p : Except Stop α × s} (h : Abreast Q E o p)
    (hQ : ∀ a t b u, Q a t b u → Q' a t b u) (hE : ∀ t u, E t u → E' t u) :
    Abreast Q' E' o p := by
  cases h with
  | ok h => exact .ok (hQ _ _ _ _ h)
  | stop h => exact .stop (hE _ _ h)

/-- One computation after another, in both runs. -/
theorem bind {x y : ExceptT Stop (StateM s) β} {f g : β → ExceptT Stop (StateM s) α}
    (hx : Abreast R E (x.run t) (y.run u))
    (hf : ∀ a t b u, R a t b u → Abreast Q E ((f a).run t) ((g b).run u)) :
    Abreast Q E ((x >>= f).run t) ((y >>= g).run u) := by
  rw [run_bind, run_bind]
  generalize x.run t = o at hx ⊢
  generalize y.run u = p at hx ⊢
  cases hx with
  | ok h => exact hf _ _ _ _ h
  | stop h => exact .stop h

/-- Reading the states and going on with them. -/
theorem get_bind {f g : s → ExceptT Stop (StateM s) α}
    (h : Abreast Q E ((f t).run t) ((g u).run u)) :
    Abreast Q E ((get >>= f).run t) ((get >>= g).run u) := by
  rw [run_get_bind, run_get_bind]
  exact h

/-- Changing the states and going on with them. -/
theorem modify_bind {c d : s → s} {f g : PUnit → ExceptT Stop (StateM s) α}
    (h : Abreast Q E ((f ⟨⟩).run (c t)) ((g ⟨⟩).run (d u))) :
    Abreast Q E ((modify c >>= f).run t) ((modify d >>= g).run u) := by
  rw [run_bind, run_bind]
  exact h

/-- Putting other states in place and going on with them. -/
theorem set_bind {t' u' : s} {f g : PUnit → ExceptT Stop (StateM s) α}
    (h : Abreast Q E ((f ⟨⟩).run t') ((g ⟨⟩).run u')) :
    Abreast Q E ((set t' >>= f).run t) ((set u' >>= g).run u) := by
  rw [run_bind, run_bind]
  exact h

/-- Nothing comes after a stop. -/
theorem throw_bind {stop : Stop} {f g : β → ExceptT Stop (StateM s) α} (h : E t u) :
    Abreast Q E ((throw stop >>= f).run t) ((throw stop >>= g).run u) := by
  rw [run_bind, run_bind]
  exact .stop h

/-- The same branch, in both runs. -/
theorem ite {c : Prop} [Decidable c] {x x' y y' : ExceptT Stop (StateM s) α}
    (hthen : c → Abreast Q E (x.run t) (x'.run u))
    (helse : ¬ c → Abreast Q E (y.run t) (y'.run u)) :
    Abreast Q E ((if c then x else y).run t) ((if c then x' else y').run u) := by
  by_cases h : c
  · rw [if_pos h, if_pos h]
    exact hthen h
  · rw [if_neg h, if_neg h]
    exact helse h

/-! ### Scopes -/

section Scopes

variable {σ : Type} {Q : α → Shell σ → α → Shell σ → Prop} {E E' : Shell σ → Shell σ → Prop}
  {t u : Shell σ} {x y : ShellM σ α}

/-- Descriptors are closed if the computations stop early. -/
theorem releasing {fds gds : List Nat} (h : Abreast Q E (x.run t) (y.run u))
    (hE : ∀ t u, E t u → E'
      { t with descriptors := fds.foldl Descriptors.close t.descriptors }
      { u with descriptors := gds.foldl Descriptors.close u.descriptors }) :
    Abreast Q E' ((Shell.releasing fds x).run t) ((Shell.releasing gds y).run u) := by
  unfold Shell.releasing
  rw [ExceptT.run_mk, ExceptT.run_mk]
  generalize x.run t = o at h ⊢
  generalize y.run u = p at h ⊢
  cases h with
  | ok h => exact .ok h
  | stop h => exact .stop (hE _ _ h)

/-- The masks are put back however the computations end. -/
theorem restoring {previous : Bool} (h : Abreast Q E (x.run t) (y.run u))
    (hQ : ∀ a t b u, Q a t b u → Q a { t with signal := t.signal.restore previous } b
      { u with signal := u.signal.restore previous })
    (hE : ∀ t u, E t u → E { t with signal := t.signal.restore previous }
      { u with signal := u.signal.restore previous }) :
    Abreast Q E ((Shell.restoring previous x).run t) ((Shell.restoring previous y).run u) := by
  unfold Shell.restoring
  rw [ExceptT.run_mk, ExceptT.run_mk]
  generalize x.run t = o at h ⊢
  generalize y.run u = p at h ⊢
  cases h with
  | ok h => exact .ok (hQ _ _ _ _ h)
  | stop h => exact .stop (hE _ _ h)

end Scopes

end Abreast

end JobShell
