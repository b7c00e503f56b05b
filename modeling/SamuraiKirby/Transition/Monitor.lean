/-
Safety monitors over the emissions of a machine.

A monitor reads emissions one at a time, keeps a memory of what it has read and
judges each emission against that memory.  A property of the form "whenever this
is emitted, what came before looks like that" is a monitor, and
`accepts_iff_split` gives it back in that form.

`run_accepts` transports one step's fact to a run through a relation between the
machine's state and the monitor's memory.
-/
import SamuraiKirby.Transition.Run

namespace Transition

universe u v w x y

variable {σ : Type u} {α : Type v} {ω : Type w} {ε : Type x} {β : Type y}

/-- `next` updates the memory with an emission and `ok` judges the emission
against the memory before it. -/
structure Monitor (β : Type y) (ω : Type w) where
  next : β → ω → β
  ok : β → ω → Prop

namespace Monitor

/-- The memory after reading a list of emissions. -/
def after (m : Monitor β ω) (b : β) (os : List ω) : β := os.foldl m.next b

/-- Every emission of the list is judged good when it is read. -/
def Accepts (m : Monitor β ω) : β → List ω → Prop
  | _, [] => True
  | b, o :: os => m.ok b o ∧ m.Accepts (m.next b o) os

variable {m : Monitor β ω}

@[simp] theorem after_nil (b : β) : m.after b [] = b := rfl

@[simp] theorem after_cons (b : β) (o : ω) (os : List ω) :
    m.after b (o :: os) = m.after (m.next b o) os := rfl

theorem after_append (b : β) (os os' : List ω) :
    m.after b (os ++ os') = m.after (m.after b os) os' := List.foldl_append

@[simp] theorem accepts_nil (b : β) : m.Accepts b [] := trivial

@[simp] theorem accepts_cons (b : β) (o : ω) (os : List ω) :
    m.Accepts b (o :: os) ↔ m.ok b o ∧ m.Accepts (m.next b o) os := Iff.rfl

theorem accepts_append (b : β) (os os' : List ω) :
    m.Accepts b (os ++ os') ↔ m.Accepts b os ∧ m.Accepts (m.after b os) os' := by
  induction os generalizing b with
  | nil => simp
  | cons o os ih => rw [List.cons_append, accepts_cons, accepts_cons, ih, after_cons, and_assoc]

/-- A monitor that judges less, with the same memory, accepts more. -/
theorem Accepts.imp {m' : Monitor β ω} (hnext : m'.next = m.next)
    (hok : ∀ b o, m.ok b o → m'.ok b o) {b : β} {os : List ω} (h : m.Accepts b os) :
    m'.Accepts b os := by
  induction os generalizing b with
  | nil => trivial
  | cons o os ih =>
    refine ⟨hok b o h.1, ?_⟩
    rw [hnext]
    exact ih h.2

/-- Acceptance says that each emission is good given exactly what precedes it. -/
theorem accepts_iff_split (b : β) (os : List ω) :
    m.Accepts b os ↔ ∀ pre o post, os = pre ++ o :: post → m.ok (m.after b pre) o := by
  induction os generalizing b with
  | nil => simp
  | cons o os ih =>
    rw [accepts_cons, ih]
    constructor
    · rintro ⟨ho, hrest⟩ pre o' post h
      cases pre with
      | nil =>
        obtain ⟨rfl, rfl⟩ := List.cons.inj h
        exact ho
      | cons p pre =>
        obtain ⟨rfl, htail⟩ := List.cons.inj h
        exact hrest pre o' post htail
    · intro h
      exact ⟨h [] o os rfl, fun pre o' post he => h (o :: pre) o' post (by rw [he]; rfl)⟩

end Monitor

open Monitor

variable {step : σ → α → Except ε (σ × List ω)} {C : σ → α → List α → Prop} {m : Monitor β ω}

/-- If each step emits what the monitor accepts and keeps the relation, so does each run. -/
theorem run_accepts {R : σ → β → Prop}
    (hstep : ∀ s b a s' os, R s b → step s a = .ok (s', os) →
      m.Accepts b os ∧ R s' (m.after b os)) {s t : σ} {b : β} {as : List α} {os : List ω}
    (hs : R s b) (hrun : run step s as = .ok (t, os)) :
    m.Accepts b os ∧ R t (m.after b os) := by
  induction as generalizing s b os with
  | nil =>
    simp only [run_nil, Except.ok.injEq, Prod.mk.injEq] at hrun
    obtain ⟨rfl, rfl⟩ := hrun
    exact ⟨accepts_nil b, hs⟩
  | cons a as ih =>
    obtain ⟨s', o₁, o₂, h₁, h₂, rfl⟩ := run_cons_eq_ok.1 hrun
    have hhead := hstep s b a s' o₁ hs h₁
    have htail := ih hhead.2 h₂
    rw [accepts_append, after_append]
    exact ⟨⟨hhead.1, htail.1⟩, htail.2⟩

/-- If each step emits what the monitor accepts exactly when it meets `C`, a run does so
exactly when all its steps meet `C`. -/
theorem run_accepts_iff_along {R : σ → β → Prop}
    (hstep : ∀ s b a as s' os, R s b → step s a = .ok (s', os) →
      (m.Accepts b os ↔ C s a as) ∧ R s' (m.after b os)) {s t : σ} {b : β} {as : List α}
    {os : List ω} (hs : R s b) (hrun : run step s as = .ok (t, os)) :
    m.Accepts b os ↔ Along step C s as := by
  induction as generalizing s b os with
  | nil =>
    simp only [run_nil, Except.ok.injEq, Prod.mk.injEq] at hrun
    obtain ⟨rfl, rfl⟩ := hrun
    exact ⟨fun _ => trivial, fun _ => trivial⟩
  | cons a as ih =>
    obtain ⟨s', o₁, o₂, h₁, h₂, rfl⟩ := run_cons_eq_ok.1 hrun
    have hhead := hstep s b a as s' o₁ hs h₁
    rw [accepts_append, along_cons, hhead.1, ih hhead.2 h₂]
    refine and_congr_right fun _ => ⟨fun h s'' os' h' => ?_, fun h => h s' o₁ h₁⟩
    rw [h₁] at h'
    cases h'
    exact h

end Transition
