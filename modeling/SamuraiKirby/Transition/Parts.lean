/-
Systems whose state is a family of parts.

Each part is a machine of its own.  A part is unborn, alive or gone, and a move of
the system makes a part, lets a part take a step or removes one.  What a move
emits is emitted by the part it moves.

`MovesPart.history` is the invariant of such systems: whatever the moves were and
however they were interleaved, each part has gone through a run of its own
machine, fed the inputs of its own moves, and has emitted what they emitted.
-/
import SamuraiKirby.Transition.Run
import Mathlib.Logic.Function.Basic

namespace Transition

universe u v w x y

variable {ι : Type y} {τ : Type u} {α : Type v} {ω : Type w} {ε : Type x}

/-- A part comes into being once and goes once. -/
inductive Life (τ : Type u) where
  | unborn
  | alive (t : τ)
  | gone

/-- One part was given an input and emitted something. -/
structure PartMove (ι : Type y) (α : Type v) (ω : Type w) where
  part : ι
  input : α
  emitted : List ω

variable [DecidableEq ι]

/-- What a part was given. -/
def inputsTo (i : ι) (moves : List (PartMove ι α ω)) : List α :=
  (moves.filter (·.part = i)).map (·.input)

/-- What a part emitted. -/
def emittedBy (i : ι) (moves : List (PartMove ι α ω)) : List ω :=
  (moves.filter (·.part = i)).flatMap (·.emitted)

section Machine

variable (step : τ → α → Except ε (τ × List ω)) (initial final : τ → Prop)

/-- A part takes a step, at the beginning or at the end of its life or in between.  Nothing
happens to the others. -/
inductive MovesPart (parts parts' : ι → Life τ) (i : ι) (a : α) (os : List ω) : Prop where
  | opens (t₀ t : τ) (hunborn : parts i = .unborn) (hinitial : initial t₀)
      (hstep : step t₀ a = .ok (t, os)) (hparts : parts' = Function.update parts i (.alive t))
  | steps (t t' : τ) (halive : parts i = .alive t) (hstep : step t a = .ok (t', os))
      (hparts : parts' = Function.update parts i (.alive t'))
  | closes (t t' : τ) (halive : parts i = .alive t) (hstep : step t a = .ok (t', os))
      (hfinal : final t') (hparts : parts' = Function.update parts i .gone)

/-- A part is what its own machine makes of the inputs, which emits what the part has emitted. -/
inductive History : Life τ → List α → List ω → Prop where
  | unborn : History .unborn [] []
  | alive (t₀ t : τ) (as : List α) (os : List ω) (hinitial : initial t₀)
      (hrun : run step t₀ as = .ok (t, os)) : History (.alive t) as os
  | gone (t₀ t : τ) (as : List α) (os : List ω) (hinitial : initial t₀)
      (hrun : run step t₀ as = .ok (t, os)) (hfinal : final t) : History .gone as os

end Machine

variable {step : τ → α → Except ε (τ × List ω)} {initial final : τ → Prop}
  {parts parts' : ι → Life τ} {moves : List (PartMove ι α ω)} {i j : ι} {a : α} {as : List α}
  {os : List ω}

theorem inputsTo_append_self (i : ι) (moves : List (PartMove ι α ω)) (a : α) (os : List ω) :
    inputsTo i (moves ++ [⟨i, a, os⟩]) = inputsTo i moves ++ [a] := by
  simp [inputsTo]

theorem inputsTo_append_of_ne (h : j ≠ i) (moves : List (PartMove ι α ω)) (a : α)
    (os : List ω) : inputsTo i (moves ++ [⟨j, a, os⟩]) = inputsTo i moves := by
  simp [inputsTo, h]

theorem emittedBy_append_self (i : ι) (moves : List (PartMove ι α ω)) (a : α) (os : List ω) :
    emittedBy i (moves ++ [⟨i, a, os⟩]) = emittedBy i moves ++ os := by
  simp [emittedBy]

theorem emittedBy_append_of_ne (h : j ≠ i) (moves : List (PartMove ι α ω)) (a : α)
    (os : List ω) : emittedBy i (moves ++ [⟨j, a, os⟩]) = emittedBy i moves := by
  simp [emittedBy, h]

theorem History.of_alive {t : τ} {ps : List ω}
    (h : History step initial final (.alive t) as ps) :
    ∃ t₀, initial t₀ ∧ run step t₀ as = .ok (t, ps) := by
  cases h with
  | alive t₀ t as ps hinitial hrun => exact ⟨t₀, hinitial, hrun⟩

/-- A move keeps the history of every part. -/
theorem MovesPart.history (h : MovesPart step initial final parts parts' i a os)
    (hhistory : ∀ j, History step initial final (parts j) (inputsTo j moves)
      (emittedBy j moves)) (j : ι) :
    History step initial final (parts' j) (inputsTo j (moves ++ [⟨i, a, os⟩]))
      (emittedBy j (moves ++ [⟨i, a, os⟩])) := by
  have hother : ∀ p, i ≠ j → parts' = Function.update parts i p →
      History step initial final (parts' j) (inputsTo j (moves ++ [⟨i, a, os⟩]))
        (emittedBy j (moves ++ [⟨i, a, os⟩])) := by
    intro p hne hparts
    rw [inputsTo_append_of_ne hne, emittedBy_append_of_ne hne, hparts,
      Function.update_of_ne (Ne.symm hne)]
    exact hhistory j
  by_cases hij : i = j
  · subst hij
    have hi := hhistory i
    rw [inputsTo_append_self, emittedBy_append_self]
    cases h with
    | opens t₀ t hunborn hinitial hstep hparts =>
      rw [hunborn] at hi
      rw [hparts, Function.update_self]
      generalize inputsTo i moves = as at hi ⊢
      generalize emittedBy i moves = ps at hi ⊢
      cases hi
      exact .alive t₀ t _ _ hinitial (run_snoc (run_nil t₀) hstep)
    | steps t t' halive hstep hparts =>
      rw [halive] at hi
      rw [hparts, Function.update_self]
      obtain ⟨t₀, hinitial, hrun⟩ := hi.of_alive
      exact .alive t₀ t' _ _ hinitial (run_snoc hrun hstep)
    | closes t t' halive hstep hfinal hparts =>
      rw [halive] at hi
      rw [hparts, Function.update_self]
      obtain ⟨t₀, hinitial, hrun⟩ := hi.of_alive
      exact .gone t₀ t' _ _ hinitial (run_snoc hrun hstep) hfinal
  · cases h with
    | opens t₀ t hunborn hinitial hstep hparts => exact hother _ hij hparts
    | steps t t' halive hstep hparts => exact hother _ hij hparts
    | closes t t' halive hstep hfinal hparts => exact hother _ hij hparts

end Transition
