/-
Runs that keep something until an emission ends it.

`Lasting` is what the emissions of a part of a run make true of the whole run.
`run_until` is the invariant rule with such a way out: what every step keeps
unless it ends, a whole run keeps unless it ends.  The invariant may speak of
the inputs consumed so far.
-/
import SamuraiKirby.Transition.Run

namespace Transition

universe u v w x

variable {σ : Type u} {α : Type v} {ω : Type w} {ε : Type x}

/-- What holds of some emissions holds of any that contain them. -/
structure Lasting (E : List ω → Prop) : Prop where
  before : ∀ ps os, E os → E (ps ++ os)
  after : ∀ os ps, E os → E (os ++ ps)

variable {step : σ → α → Except ε (σ × List ω)} {E : List ω → Prop} {P : List α → σ → Prop}

/-- What every step keeps until an end, every run keeps until an end. -/
theorem run_until (hE : Lasting E)
    (hstep : ∀ pre s a s' os, P pre s → step s a = .ok (s', os) → E os ∨ P (pre ++ [a]) s')
    {s t : σ} {pre as : List α} {os : List ω} (hs : P pre s)
    (hrun : run step s as = .ok (t, os)) : E os ∨ P (pre ++ as) t := by
  induction as generalizing s pre os with
  | nil =>
    simp only [run_nil, Except.ok.injEq, Prod.mk.injEq] at hrun
    obtain ⟨rfl, rfl⟩ := hrun
    rw [List.append_nil]
    exact Or.inr hs
  | cons a as ih =>
    obtain ⟨s', o₁, o₂, h₁, h₂, rfl⟩ := run_cons_eq_ok.1 hrun
    rcases hstep pre s a s' o₁ hs h₁ with hend | hs'
    · exact Or.inl (hE.after o₁ o₂ hend)
    · rcases ih hs' h₂ with hend | ht
      · exact Or.inl (hE.before o₁ o₂ hend)
      · rw [List.append_assoc, List.singleton_append] at ht
        exact Or.inr ht

/-- A run that keeps `P` until an end, and then one more step. -/
theorem run_until_then (hE : Lasting E)
    (hstep : ∀ pre s a s' os, P pre s → step s a = .ok (s', os) → E os ∨ P (pre ++ [a]) s')
    {Q : Prop} {s t : σ} {pre as : List α} {a : α} {os : List ω}
    (hlast : ∀ s' os, P (pre ++ as) s' → step s' a = .ok (t, os) → E os ∨ Q)
    (hs : P pre s) (hrun : run step s (as ++ [a]) = .ok (t, os)) : E os ∨ Q := by
  obtain ⟨s', o₁, o₂, h₁, h₂, rfl⟩ := run_append_eq_ok.1 hrun
  rw [run_singleton] at h₂
  rcases run_until hE hstep hs h₁ with hend | hs'
  · exact Or.inl (hE.after o₁ o₂ hend)
  · exact (hlast s' o₂ hs' h₂).imp_left (hE.before o₁ o₂)

end Transition
