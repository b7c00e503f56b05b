/-
Runs of a machine that can fail.

A machine is one step function.  A step takes a state and one input, and either
fails or gives the next state together with what it emitted.  `run` feeds it a
list of inputs, stops at the first failure and concatenates the emissions.

Loops are runs as well: the body of a loop over a list is a step whose input is
the list element, so the same induction rules serve a loop inside one step and
the sequence of steps around it.

`Along` is a condition checked just before every step of a run.  It sees the
state, the input about to be consumed and the inputs still to come, and it says
nothing after a failure.  `run_ok_iff_along` and `run_iff_along` turn a fact
about one step into a fact about whole runs in both directions.

`emissions` also has what a run emits before it fails.
-/
import Mathlib.Data.List.Basic

namespace Transition

universe u v w x

variable {σ : Type u} {α : Type v} {ω : Type w} {ε : Type x}

/-- One outcome and then another from the state it leaves, with both emissions. -/
def seq (r : Except ε (σ × List ω)) (f : σ → Except ε (σ × List ω)) : Except ε (σ × List ω) :=
  match r with
  | .error e => .error e
  | .ok (s, os) =>
    match f s with
    | .error e => .error e
    | .ok (s', os') => .ok (s', os ++ os')

/-- Feed the inputs to the step function from left to right. -/
def run (step : σ → α → Except ε (σ × List ω)) : σ → List α → Except ε (σ × List ω)
  | s, [] => .ok (s, [])
  | s, a :: as => seq (step s a) fun s' => run step s' as

/-- `C` holds before every step the run takes. -/
def Along (step : σ → α → Except ε (σ × List ω)) (C : σ → α → List α → Prop) :
    σ → List α → Prop
  | _, [] => True
  | s, a :: as => C s a as ∧ ∀ s' os, step s a = .ok (s', os) → Along step C s' as

variable {step : σ → α → Except ε (σ × List ω)} {C : σ → α → List α → Prop}

/-! ## Unfolding a run -/

/-- A sequence ends well when both parts do. -/
theorem seq_eq_ok {r : Except ε (σ × List ω)} {f : σ → Except ε (σ × List ω)} {t : σ}
    {os : List ω} :
    seq r f = .ok (t, os) ↔
      ∃ s os₁ os₂, r = .ok (s, os₁) ∧ f s = .ok (t, os₂) ∧ os = os₁ ++ os₂ := by
  constructor
  · intro h
    cases r with
    | error e => cases h
    | ok r =>
      obtain ⟨s, os₁⟩ := r
      cases hf : f s with
      | error e =>
        simp only [seq, hf] at h
        cases h
      | ok r' =>
        obtain ⟨t', os₂⟩ := r'
        simp only [seq, hf, Except.ok.injEq, Prod.mk.injEq] at h
        obtain ⟨rfl, rfl⟩ := h
        exact ⟨s, os₁, os₂, rfl, hf, rfl⟩
  · rintro ⟨s, os₁, os₂, rfl, hf, rfl⟩
    simp only [seq, hf]

theorem seq_eq_error {r : Except ε (σ × List ω)} {f : σ → Except ε (σ × List ω)} {e : ε} :
    seq r f = .error e ↔ r = .error e ∨ ∃ s os, r = .ok (s, os) ∧ f s = .error e := by
  cases r with
  | error e' => simp [seq]
  | ok r =>
    obtain ⟨s, os⟩ := r
    cases hf : f s <;> simp [seq, hf]

@[simp] theorem run_nil (s : σ) : run step s [] = .ok (s, []) := rfl

theorem run_cons (s : σ) (a : α) (as : List α) :
    run step s (a :: as) = seq (step s a) fun s' => run step s' as := rfl

/-- A run over a nonempty list ends well when its first step and the rest do. -/
theorem run_cons_eq_ok {s t : σ} {a : α} {as : List α} {os : List ω} :
    run step s (a :: as) = .ok (t, os) ↔
      ∃ s' os₁ os₂, step s a = .ok (s', os₁) ∧ run step s' as = .ok (t, os₂) ∧
        os = os₁ ++ os₂ := seq_eq_ok

theorem run_cons_eq_error {s : σ} {a : α} {as : List α} {e : ε} :
    run step s (a :: as) = .error e ↔
      step s a = .error e ∨ ∃ s' os, step s a = .ok (s', os) ∧ run step s' as = .error e :=
  seq_eq_error

@[simp] theorem seq_ok_nil (s : σ) (f : σ → Except ε (σ × List ω)) :
    seq (.ok (s, [])) f = f s := by
  simp only [seq, List.nil_append]
  cases f s <;> rfl

@[simp] theorem seq_pure (r : Except ε (σ × List ω)) : seq r (fun s => .ok (s, [])) = r := by
  cases r with
  | error e => rfl
  | ok r => simp [seq]

theorem seq_assoc (r : Except ε (σ × List ω)) (f g : σ → Except ε (σ × List ω)) :
    seq (seq r f) g = seq r fun s => seq (f s) g := by
  cases r with
  | error e => rfl
  | ok r =>
    obtain ⟨s, os⟩ := r
    cases hf : f s with
    | error e => simp [seq, hf]
    | ok r' =>
      obtain ⟨s', os'⟩ := r'
      cases hg : g s' <;> simp [seq, hf, hg]

theorem run_append (s : σ) (as bs : List α) :
    run step s (as ++ bs) = seq (run step s as) fun s' => run step s' bs := by
  induction as generalizing s with
  | nil => simp
  | cons a as ih => simp only [List.cons_append, run_cons, ih, seq_assoc]

theorem run_append_eq_ok {s t : σ} {as bs : List α} {os : List ω} :
    run step s (as ++ bs) = .ok (t, os) ↔
      ∃ s' os₁ os₂, run step s as = .ok (s', os₁) ∧ run step s' bs = .ok (t, os₂) ∧
        os = os₁ ++ os₂ := by
  rw [run_append, seq_eq_ok]

theorem run_singleton (s : σ) (a : α) : run step s [a] = step s a := by
  rw [run_cons]
  exact seq_pure _

/-- One more step at the end of a run. -/
theorem run_snoc {s t u : σ} {a : α} {as : List α} {ps os : List ω}
    (hrun : run step s as = .ok (t, ps)) (hstep : step t a = .ok (u, os)) :
    run step s (as ++ [a]) = .ok (u, ps ++ os) := by
  refine run_append_eq_ok.2 ⟨t, ps, os, hrun, ?_, rfl⟩
  rw [run_singleton, hstep]

/-! ## Invariants -/

/-- What every step preserves, every run preserves. -/
theorem run_invariant {P : σ → Prop}
    (hstep : ∀ s a s' os, P s → step s a = .ok (s', os) → P s') {s t : σ} {as : List α}
    {os : List ω} (hs : P s) (hrun : run step s as = .ok (t, os)) : P t := by
  induction as generalizing s os with
  | nil =>
    simp only [run_nil, Except.ok.injEq, Prod.mk.injEq] at hrun
    exact hrun.1 ▸ hs
  | cons a as ih =>
    obtain ⟨s', o₁, o₂, h₁, h₂, -⟩ := run_cons_eq_ok.1 hrun
    exact ih (hstep s a s' o₁ hs h₁) h₂

/-- What every step meeting `C` preserves, every run whose steps meet `C` preserves. -/
theorem run_invariant_along {P : σ → Prop} {s t : σ} {as : List α} {os : List ω}
    (hstep : ∀ s a rest s' os, a ∈ as → P s → C s a rest → step s a = .ok (s', os) → P s')
    (hs : P s) (hC : Along step C s as) (hrun : run step s as = .ok (t, os)) : P t := by
  induction as generalizing s os with
  | nil =>
    simp only [run_nil, Except.ok.injEq, Prod.mk.injEq] at hrun
    exact hrun.1 ▸ hs
  | cons a as ih =>
    obtain ⟨s', o₁, o₂, h₁, h₂, -⟩ := run_cons_eq_ok.1 hrun
    have hP := hstep s a as s' o₁ (List.mem_cons_self ..) hs hC.1 h₁
    exact ih (fun s a rest s' os ha => hstep s a rest s' os (List.mem_cons_of_mem _ ha))
      hP (hC.2 s' o₁ h₁) h₂

/-- A property that the steps preserve only while an invariant holds. -/
theorem run_invariant_under {I P : σ → Prop} {s t : σ} {as : List α} {os : List ω}
    (hI : ∀ s a s' os, a ∈ as → I s → step s a = .ok (s', os) → I s')
    (hP : ∀ s a rest s' os, a ∈ as → I s → P s → C s a rest → step s a = .ok (s', os) → P s')
    (hi : I s) (hp : P s) (hC : Along step C s as) (hrun : run step s as = .ok (t, os)) :
    P t := by
  have hend : I t ∧ P t := by
    refine run_invariant_along (P := fun s => I s ∧ P s) (fun s a rest s' os ha hs hC hstep => ?_)
      ⟨hi, hp⟩ hC hrun
    exact ⟨hI s a s' os ha hs.1 hstep, hP s a rest s' os ha hs.1 hs.2 hC hstep⟩
  exact hend.2

/-- An invariant may relate the state to the inputs consumed and the emissions made so far. -/
theorem run_history {P : List α → σ → List ω → Prop} {s t : σ} {pre as : List α}
    {ps os : List ω}
    (hstep : ∀ pre s ps a rest s' os, P pre s ps → C s a rest → step s a = .ok (s', os) →
      P (pre ++ [a]) s' (ps ++ os))
    (hs : P pre s ps) (hC : Along step C s as) (hrun : run step s as = .ok (t, os)) :
    P (pre ++ as) t (ps ++ os) := by
  induction as generalizing s pre ps os with
  | nil =>
    simp only [run_nil, Except.ok.injEq, Prod.mk.injEq] at hrun
    obtain ⟨rfl, rfl⟩ := hrun
    simpa using hs
  | cons a as ih =>
    obtain ⟨s', o₁, o₂, h₁, h₂, rfl⟩ := run_cons_eq_ok.1 hrun
    have h := ih (hstep pre s ps a as s' o₁ hs hC.1 h₁) (hC.2 s' o₁ h₁) h₂
    simpa [List.append_assoc] using h

theorem run_history_from_start {P : List α → σ → List ω → Prop} {s t : σ} {as : List α}
    {os : List ω}
    (hstep : ∀ pre s ps a rest s' os, P pre s ps → C s a rest → step s a = .ok (s', os) →
      P (pre ++ [a]) s' (ps ++ os))
    (hs : P [] s []) (hC : Along step C s as) (hrun : run step s as = .ok (t, os)) : P as t os :=
  run_history hstep hs hC hrun

/-- The same without the inputs, for steps whose input is on the list. -/
theorem run_told {P : σ → List ω → Prop} {s t : σ} {as : List α} {ps os : List ω}
    (hstep : ∀ s ps a rest s' os, a ∈ as → P s ps → C s a rest → step s a = .ok (s', os) →
      P s' (ps ++ os))
    (hs : P s ps) (hC : Along step C s as) (hrun : run step s as = .ok (t, os)) :
    P t (ps ++ os) := by
  induction as generalizing s ps os with
  | nil =>
    simp only [run_nil, Except.ok.injEq, Prod.mk.injEq] at hrun
    obtain ⟨rfl, rfl⟩ := hrun
    simpa using hs
  | cons a as ih =>
    obtain ⟨s', o₁, o₂, h₁, h₂, rfl⟩ := run_cons_eq_ok.1 hrun
    have hhead := hstep s ps a as s' o₁ (List.mem_cons_self ..) hs hC.1 h₁
    rw [← List.append_assoc]
    exact ih (fun s ps a rest s' os ha => hstep s ps a rest s' os (List.mem_cons_of_mem _ ha))
      hhead (hC.2 s' o₁ h₁) h₂

/-- A machine whose steps cannot fail while the invariant holds completes every run. -/
theorem run_total {P : σ → Prop} (hok : ∀ s a, P s → ∃ s' os, step s a = .ok (s', os))
    (hstep : ∀ s a s' os, P s → step s a = .ok (s', os) → P s') {s : σ} (hs : P s)
    (as : List α) : ∃ t os, run step s as = .ok (t, os) := by
  induction as generalizing s with
  | nil => exact ⟨s, [], rfl⟩
  | cons a as ih =>
    obtain ⟨s', o₁, h₁⟩ := hok s a hs
    obtain ⟨t, o₂, h₂⟩ := ih (hstep s a s' o₁ hs h₁)
    exact ⟨t, o₁ ++ o₂, run_cons_eq_ok.2 ⟨s', o₁, o₂, h₁, h₂, rfl⟩⟩

/-- The failure of a run is the failure of one of its steps. -/
theorem run_error {P : σ → Prop} {E : ε → Prop}
    (herror : ∀ s a e, P s → step s a = .error e → E e)
    (hstep : ∀ s a s' os, P s → step s a = .ok (s', os) → P s') {s : σ} {as : List α} {e : ε}
    (hs : P s) (hrun : run step s as = .error e) : E e := by
  induction as generalizing s with
  | nil => cases hrun
  | cons a as ih =>
    rcases run_cons_eq_error.1 hrun with h | ⟨s', os, h, hrest⟩
    · exact herror s a e hs h
    · exact ih (hstep s a s' os hs h) hrest

theorem run_error_of_steps {E : ε → Prop} (herror : ∀ s a e, step s a = .error e → E e) {s : σ}
    {as : List α} {e : ε} (hrun : run step s as = .error e) : E e :=
  run_error (P := fun _ => True) (fun s a e _ h => herror s a e h) (fun _ _ _ _ _ _ => trivial)
    trivial hrun

/-- A run fails at one of its steps, with all before it done. -/
theorem run_error_split {s : σ} {as : List α} {e : ε} (hrun : run step s as = .error e) :
    ∃ before a after t os, as = before ++ a :: after ∧ run step s before = .ok (t, os) ∧
      step t a = .error e := by
  induction as generalizing s with
  | nil => cases hrun
  | cons a as ih =>
    rcases run_cons_eq_error.1 hrun with h | ⟨s', os, h, hrest⟩
    · exact ⟨[], a, as, s, [], rfl, rfl, h⟩
    · obtain ⟨before, b, after, t, os', rfl, hbefore, hfails⟩ := ih hrest
      exact ⟨a :: before, b, after, t, os ++ os', rfl,
        run_cons_eq_ok.2 ⟨s', os, os', h, hbefore, rfl⟩, hfails⟩

/-- A run that gets as far as its last step breaks off there. -/
theorem eq_of_breaks_off {s t t' : σ} {as before after : List α} {a b : α} {os os' : List ω} {e : ε}
    (hsplit : as ++ [b] = before ++ a :: after) (hruns : run step s as = .ok (t', os'))
    (hbefore : run step s before = .ok (t, os)) (hfails : step t a = .error e) :
    before = as ∧ a = b ∧ after = [] := by
  rcases List.eq_nil_or_concat after with rfl | ⟨rest, c, rfl⟩
  · obtain ⟨rfl, heq⟩ := List.append_inj' hsplit rfl
    exact ⟨rfl, (List.singleton_injective heq).symm, rfl⟩
  · have hlast : as ++ [b] = (before ++ a :: rest) ++ [c] := hsplit.trans (by simp)
    obtain ⟨rfl, -⟩ := List.append_inj' hlast rfl
    obtain ⟨u, ps, ps', hprefix, hrest, -⟩ := run_append_eq_ok.1 hruns
    obtain ⟨u', qs, qs', hstep, -, -⟩ := run_cons_eq_ok.1 hrest
    rw [hbefore] at hprefix
    cases hprefix
    rw [hfails] at hstep
    cases hstep

/-! ## Conditions along a run -/

theorem along_cons {s : σ} {a : α} {as : List α} :
    Along step C s (a :: as) ↔
      C s a as ∧ ∀ s' os, step s a = .ok (s', os) → Along step C s' as := Iff.rfl

/-- A condition on the state an outcome leaves can be tested. -/
instance decidableForallOk {r : Except ε (σ × List ω)} {P : σ → Prop} [DecidablePred P] :
    Decidable (∀ s os, r = .ok (s, os) → P s) :=
  match r with
  | .error _ => isTrue fun _ _ h => nomatch h
  | .ok (s, os) => decidable_of_iff (P s)
      ⟨fun hP _ _ h => (Prod.mk.inj (Except.ok.inj h)).1 ▸ hP, fun h => h s os rfl⟩

instance decidableAlong [∀ s a as, Decidable (C s a as)] :
    ∀ (s : σ) (as : List α), Decidable (Along step C s as)
  | _, [] => isTrue trivial
  | s, a :: as =>
    have : DecidablePred fun s' => Along step C s' as := fun s' => decidableAlong s' as
    inferInstanceAs (Decidable (C s a as ∧ ∀ s' os, step s a = .ok (s', os) → Along step C s' as))

theorem along_of_forall (h : ∀ s a rest, C s a rest) (s : σ) (as : List α) :
    Along step C s as := by
  induction as generalizing s with
  | nil => trivial
  | cons a as ih => exact ⟨h s a as, fun s' _ _ => ih s'⟩

theorem along_true (s : σ) (as : List α) : Along step (fun _ _ _ => True) s as :=
  along_of_forall (fun _ _ _ => trivial) s as

/-- When the condition decides whether a step succeeds, it decides whether a run does. -/
theorem run_ok_iff_along {P : σ → Prop} {s : σ} {as : List α}
    (hok : ∀ s a rest, a ∈ as → P s → ((∃ r, step s a = .ok r) ↔ C s a rest))
    (hstep : ∀ s a s' os, a ∈ as → P s → step s a = .ok (s', os) → P s') (hs : P s) :
    (∃ r, run step s as = .ok r) ↔ Along step C s as := by
  induction as generalizing s with
  | nil => exact ⟨fun _ => trivial, fun _ => ⟨(s, []), rfl⟩⟩
  | cons a as ih =>
    have hhead := hok s a as (List.mem_cons_self ..) hs
    have htail : ∀ s' os, step s a = .ok (s', os) →
        ((∃ r, run step s' as = .ok r) ↔ Along step C s' as) := fun s' os h =>
      ih (fun s a rest ha => hok s a rest (List.mem_cons_of_mem _ ha))
        (fun s a s' os ha => hstep s a s' os (List.mem_cons_of_mem _ ha))
        (hstep s a s' os (List.mem_cons_self ..) hs h)
    rw [along_cons]
    constructor
    · rintro ⟨⟨t, os⟩, hr⟩
      obtain ⟨s', o₁, o₂, h₁, h₂, -⟩ := run_cons_eq_ok.1 hr
      refine ⟨hhead.1 ⟨_, h₁⟩, fun s'' os' h => ?_⟩
      rw [h₁] at h
      cases h
      exact (htail s' o₁ h₁).1 ⟨_, h₂⟩
    · rintro ⟨hC, hrest⟩
      obtain ⟨⟨s', o₁⟩, h₁⟩ := hhead.2 hC
      obtain ⟨⟨t, o₂⟩, h₂⟩ := (htail s' o₁ h₁).2 (hrest s' o₁ h₁)
      exact ⟨(t, o₁ ++ o₂), run_cons_eq_ok.2 ⟨s', o₁, o₂, h₁, h₂, rfl⟩⟩

/-- When each step keeps `Q` exactly if it meets `C`, and `Q` once lost stays lost, the
final state has `Q` exactly if the initial state had it and every step met `C`. -/
theorem run_iff_along {P Q : σ → Prop} {s t : σ} {as : List α} {os : List ω}
    (hQ : ∀ s a rest s' os, a ∈ as → P s → step s a = .ok (s', os) → (Q s' ↔ Q s ∧ C s a rest))
    (hstep : ∀ s a s' os, a ∈ as → P s → step s a = .ok (s', os) → P s') (hs : P s)
    (hrun : run step s as = .ok (t, os)) : Q t ↔ Q s ∧ Along step C s as := by
  induction as generalizing s os with
  | nil =>
    simp only [run_nil, Except.ok.injEq, Prod.mk.injEq] at hrun
    rw [hrun.1]
    exact ⟨fun h => ⟨h, trivial⟩, fun h => h.1⟩
  | cons a as ih =>
    obtain ⟨s', o₁, o₂, h₁, h₂, -⟩ := run_cons_eq_ok.1 hrun
    have hhead := hQ s a as s' o₁ (List.mem_cons_self ..) hs h₁
    have htail := ih (fun s a rest s' os ha => hQ s a rest s' os (List.mem_cons_of_mem _ ha))
      (fun s a s' os ha => hstep s a s' os (List.mem_cons_of_mem _ ha))
      (hstep s a s' o₁ (List.mem_cons_self ..) hs h₁) h₂
    rw [htail, hhead, along_cons, and_assoc]
    refine and_congr_right fun _ => and_congr_right fun _ => ⟨fun h s'' os' h' => ?_, fun h => ?_⟩
    · rw [h₁] at h'
      cases h'
      exact h
    · exact h s' o₁ h₁

/-! ## Emissions -/

/-- Something was emitted in the first part, or in the second after the whole of the first. -/
theorem concat_prefix_append {told os pre : List ω} {o : ω} (h : pre ++ [o] <+: told ++ os) :
    pre ++ [o] <+: told ∨ ∃ os₁, pre = told ++ os₁ ∧ o ∈ os := by
  rcases List.prefix_or_prefix_of_prefix h (List.prefix_append told os) with hold | hnew
  · exact Or.inl hold
  · rcases List.prefix_concat_iff.1 hnew with rfl | ⟨os₁, rfl⟩
    · exact Or.inl List.prefix_rfl
    · rw [List.append_assoc, List.prefix_append_right_inj] at h
      exact Or.inr ⟨os₁, rfl, h.subset (List.mem_append_right _ (List.mem_singleton_self o))⟩

/-- If the steps keep `P` and emit nothing but `Q`, so does a run. -/
theorem run_emits {P : σ → Prop} {Q : ω → Prop} {s t : σ} {as : List α} {os : List ω}
    (hstep : ∀ s a s' os, a ∈ as → P s → step s a = .ok (s', os) → P s' ∧ ∀ o ∈ os, Q o)
    (hs : P s) (hrun : run step s as = .ok (t, os)) : P t ∧ ∀ o ∈ os, Q o := by
  induction as generalizing s os with
  | nil =>
    simp only [run_nil, Except.ok.injEq, Prod.mk.injEq] at hrun
    obtain ⟨rfl, rfl⟩ := hrun
    exact ⟨hs, fun o ho => absurd ho List.not_mem_nil⟩
  | cons a as ih =>
    obtain ⟨s', o₁, o₂, h₁, h₂, rfl⟩ := run_cons_eq_ok.1 hrun
    obtain ⟨hs', ho₁⟩ := hstep s a s' o₁ (List.mem_cons_self ..) hs h₁
    obtain ⟨ht, ho₂⟩ := ih (fun s a s' os ha => hstep s a s' os (List.mem_cons_of_mem _ ha)) hs' h₂
    refine ⟨ht, fun o ho => ?_⟩
    rcases List.mem_append.1 ho with ho | ho
    · exact ho₁ o ho
    · exact ho₂ o ho

/-- What a run emits up to its end or its failure.  `cut` is what a step emits before it fails. -/
def emissions (step : σ → α → Except ε (σ × List ω)) (cut : σ → α → List ω) : σ → List α → List ω
  | _, [] => []
  | s, a :: as =>
    match step s a with
    | .error _ => cut s a
    | .ok (s', os) => os ++ emissions step cut s' as

theorem emissions_of_run {cut : σ → α → List ω} {s t : σ} {as : List α} {os : List ω}
    (h : run step s as = .ok (t, os)) : emissions step cut s as = os := by
  induction as generalizing s os with
  | nil =>
    simp only [run_nil, Except.ok.injEq, Prod.mk.injEq] at h
    exact h.2
  | cons a as ih =>
    obtain ⟨s', o₁, o₂, h₁, h₂, rfl⟩ := run_cons_eq_ok.1 h
    simp only [emissions, h₁, ih h₂]

/-- A run emits nothing but `Q` before it fails if the steps do and keep `P`. -/
theorem mem_emissions {P : σ → Prop} {Q : ω → Prop} {cut : σ → α → List ω} {s : σ} {as : List α}
    (hstep : ∀ s a s' os, a ∈ as → P s → step s a = .ok (s', os) → P s' ∧ ∀ o ∈ os, Q o)
    (hcut : ∀ s a, a ∈ as → P s → ∀ o ∈ cut s a, Q o) (hs : P s) :
    ∀ o ∈ emissions step cut s as, Q o := by
  induction as generalizing s with
  | nil => exact fun o ho => absurd ho List.not_mem_nil
  | cons a as ih =>
    cases h : step s a with
    | error e =>
      simp only [emissions, h]
      exact hcut s a (List.mem_cons_self ..) hs
    | ok r =>
      obtain ⟨s', os⟩ := r
      obtain ⟨hs', hos⟩ := hstep s a s' os (List.mem_cons_self ..) hs h
      simp only [emissions, h]
      intro o ho
      rcases List.mem_append.1 ho with ho | ho
      · exact hos o ho
      · exact ih (fun s a s' os ha => hstep s a s' os (List.mem_cons_of_mem _ ha))
          (fun s a ha => hcut s a (List.mem_cons_of_mem _ ha)) hs' o ho

end Transition
