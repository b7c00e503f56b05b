/-
Forward simulations.

A machine with more detail is read as one with less.  Every step of the first is a
run of the second, whose inputs and emissions are read off what the step emits.  A
step that the second machine does not see is its empty run.
-/
import SamuraiKirby.Transition.Run

namespace Transition

universe u v w x

variable {σ : Type u} {α : Type v} {ω : Type w} {ε : Type x}
  {σ' : Type u} {α' : Type v} {ω' : Type w} {ε' : Type x}

/-- The outcome `(t, os)` of a step is, for the machine `step'` in a related state, the outcome
of a run. -/
def Matches (step' : σ' → α' → Except ε' (σ' × List ω')) (R : σ → σ' → Prop)
    (input? : ω → Option α') (emission? : ω → Option ω') (s' : σ') (t : σ) (os : List ω) : Prop :=
  ∃ t', run step' s' (os.filterMap input?) = .ok (t', os.filterMap emission?) ∧ R t t'

variable {step : σ → α → Except ε (σ × List ω)} {step' : σ' → α' → Except ε' (σ' × List ω')}
  {R : σ → σ' → Prop} {input? : ω → Option α'} {emission? : ω → Option ω'}

/-- A step the other machine does not see. -/
theorem matches_unseen {s' : σ'} {t : σ} {os : List ω} (h : R t s')
    (hinput : ∀ o ∈ os, input? o = none) (hemission : ∀ o ∈ os, emission? o = none) :
    Matches step' R input? emission? s' t os := by
  refine ⟨s', ?_, h⟩
  rw [List.filterMap_eq_nil_iff.2 hinput, List.filterMap_eq_nil_iff.2 hemission, run_nil]

/-- One matching run after another. -/
theorem Matches.append {s' : σ'} {t u : σ} {os os₂ : List ω}
    (h : Matches step' R input? emission? s' t os)
    (h₂ : ∀ t', R t t' → Matches step' R input? emission? t' u os₂) :
    Matches step' R input? emission? s' u (os ++ os₂) := by
  obtain ⟨t', hrun, hR⟩ := h
  obtain ⟨u', hrun₂, hR₂⟩ := h₂ t' hR
  refine ⟨u', ?_, hR₂⟩
  rw [List.filterMap_append, List.filterMap_append]
  exact run_append_eq_ok.2 ⟨t', _, _, hrun, hrun₂, rfl⟩

/-- If all steps have a match, so do all runs. -/
theorem run_matches
    (hstep : ∀ s s' a t os, R s s' → step s a = .ok (t, os) →
      Matches step' R input? emission? s' t os) {s t : σ} {s' : σ'} {as : List α} {os : List ω}
    (hs : R s s') (hrun : run step s as = .ok (t, os)) :
    Matches step' R input? emission? s' t os := by
  induction as generalizing s s' os with
  | nil =>
    simp only [run_nil, Except.ok.injEq, Prod.mk.injEq] at hrun
    obtain ⟨rfl, rfl⟩ := hrun
    exact ⟨s', rfl, hs⟩
  | cons a as ih =>
    obtain ⟨s₁, o₁, o₂, h₁, h₂, rfl⟩ := run_cons_eq_ok.1 hrun
    exact (hstep s s' a s₁ o₁ hs h₁).append fun t' ht' => ih ht' h₂

end Transition
