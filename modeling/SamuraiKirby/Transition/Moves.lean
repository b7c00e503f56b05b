/-
The steps of a run, one at a time.

A monitor over emissions sees what a machine says.  Some properties also ask
what the machine was told and in which state it was told so.  `moves` lists the
steps of a run, each with the state it starts from, its input, its emissions and
the state it leaves.  The memory of a monitor over moves is a history variable
of the machine.

`moves_accepts` and `moves_accepts_iff_along` transport a fact about one step to
a run.  The relation they carry sees the inputs still to come, so a condition
along the rest of the run can be part of it.
-/
import SamuraiKirby.Transition.Monitor

namespace Transition

universe u v w x y

variable {σ : Type u} {α : Type v} {ω : Type w} {ε : Type x} {β : Type y}

structure Move (σ : Type u) (α : Type v) (ω : Type w) where
  before : σ
  input : α
  emitted : List ω
  after : σ

/-- The steps a run takes, up to its end or its failure. -/
def moves (step : σ → α → Except ε (σ × List ω)) : σ → List α → List (Move σ α ω)
  | _, [] => []
  | s, a :: as =>
    match step s a with
    | .error _ => []
    | .ok (s', os) => ⟨s, a, os, s'⟩ :: moves step s' as

variable {step : σ → α → Except ε (σ × List ω)} {C : σ → α → List α → Prop}
  {m : Monitor β (Move σ α ω)}

@[simp] theorem moves_nil (s : σ) : moves step s [] = [] := rfl

theorem moves_cons_of_error {s : σ} {a : α} {e : ε} (h : step s a = .error e) (as : List α) :
    moves step s (a :: as) = [] := by
  simp only [moves, h]

theorem moves_cons_of_ok {s s' : σ} {a : α} {os : List ω} (h : step s a = .ok (s', os))
    (as : List α) : moves step s (a :: as) = ⟨s, a, os, s'⟩ :: moves step s' as := by
  simp only [moves, h]

theorem moves_append_of_ok {s t : σ} {as : List α} {os : List ω}
    (h : run step s as = .ok (t, os)) (bs : List α) :
    moves step s (as ++ bs) = moves step s as ++ moves step t bs := by
  induction as generalizing s os with
  | nil =>
    simp only [run_nil, Except.ok.injEq, Prod.mk.injEq] at h
    rw [h.1]
    rfl
  | cons a as ih =>
    obtain ⟨s', os₁, os₂, h₁, h₂, -⟩ := run_cons_eq_ok.1 h
    rw [List.cons_append, moves_cons_of_ok h₁, moves_cons_of_ok h₁, ih h₂, List.cons_append]

/-- If each step is judged good and keeps the relation, every move of a run is judged good. -/
theorem moves_accepts {R : σ → β → List α → Prop}
    (hstep : ∀ s b a as s' os, R s b (a :: as) → step s a = .ok (s', os) →
      m.ok b ⟨s, a, os, s'⟩ ∧ R s' (m.next b ⟨s, a, os, s'⟩) as) {s : σ} {b : β} {as : List α}
    (hs : R s b as) : m.Accepts b (moves step s as) := by
  induction as generalizing s b with
  | nil => exact Monitor.accepts_nil b
  | cons a as ih =>
    cases h : step s a with
    | error e =>
      rw [moves_cons_of_error h]
      exact Monitor.accepts_nil b
    | ok r =>
      obtain ⟨s', os⟩ := r
      obtain ⟨hok, hnext⟩ := hstep s b a as s' os hs h
      rw [moves_cons_of_ok h, Monitor.accepts_cons]
      exact ⟨hok, ih hnext⟩

/-- The last move of an accepted run is judged good. -/
theorem moves_accepts_last {s t s' : σ} {b : β} {as : List α} {a : α} {os os' : List ω}
    (h : m.Accepts b (moves step s (as ++ [a]))) (hrun : run step s as = .ok (t, os))
    (hstep : step t a = .ok (s', os')) : m.ok (m.after b (moves step s as)) ⟨t, a, os', s'⟩ := by
  rw [moves_append_of_ok hrun, Monitor.accepts_append, moves_cons_of_ok hstep] at h
  exact h.2.1

/-- If each step is judged good exactly when it meets `C`, and keeps the relation when it does,
the moves of a run are all judged good exactly when its steps all meet `C`. -/
theorem moves_accepts_iff_along {R : σ → β → List α → Prop}
    (hok : ∀ s b a as, R s b (a :: as) → ∃ s' os, step s a = .ok (s', os))
    (hstep : ∀ s b a as s' os, R s b (a :: as) → step s a = .ok (s', os) →
      (m.ok b ⟨s, a, os, s'⟩ ↔ C s a as) ∧
        (C s a as → R s' (m.next b ⟨s, a, os, s'⟩) as)) {s : σ} {b : β} {as : List α}
    (hs : R s b as) : m.Accepts b (moves step s as) ↔ Along step C s as := by
  induction as generalizing s b with
  | nil => exact ⟨fun _ => trivial, fun _ => trivial⟩
  | cons a as ih =>
    obtain ⟨s', os, h⟩ := hok s b a as hs
    obtain ⟨hiff, hnext⟩ := hstep s b a as s' os hs h
    rw [moves_cons_of_ok h, Monitor.accepts_cons, along_cons, hiff]
    refine and_congr_right fun hC => (ih (hnext hC)).trans ⟨fun htail s'' os' h' => ?_,
      fun htail => htail s' os h⟩
    rw [h] at h'
    cases h'
    exact htail

end Transition
