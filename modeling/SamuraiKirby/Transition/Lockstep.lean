/-
Two runs of one machine, side by side.

Outcomes in `Lockstep` fail alike, or emit the same and leave related states.  A
relation that every step keeps in lockstep is a simulation in both directions,
since the machine is a function: whatever it is fed, two related states emit the
same (`indistinguishable_of_lockstep`).
-/
import SamuraiKirby.Transition.Run

namespace Transition

universe u v x

variable {σ τ ω : Type u} {α : Type v} {ε : Type x}

inductive Lockstep (R : σ → τ → Prop) :
    Except ε (σ × List ω) → Except ε (τ × List ω) → Prop where
  | error (e : ε) : Lockstep R (.error e) (.error e)
  | ok {s : σ} {t : τ} (os : List ω) (h : R s t) : Lockstep R (.ok (s, os)) (.ok (t, os))

variable {R R' : σ → τ → Prop} {r : Except ε (σ × List ω)} {r' : Except ε (τ × List ω)}

/-! ## Rules for building outcomes -/

theorem Lockstep.ite {c c' : Prop} [Decidable c] [Decidable c'] (hc : c ↔ c')
    {f : Except ε (σ × List ω)} {f' : Except ε (τ × List ω)} (ht : c → Lockstep R r r')
    (hf : ¬ c → Lockstep R f f') :
    Lockstep R (if c then r else f) (if c' then r' else f') := by
  by_cases h : c
  · rw [if_pos h, if_pos (hc.1 h)]
    exact ht h
  · rw [if_neg h, if_neg (fun h' => h (hc.2 h'))]
    exact hf h

/-- After one computation that both outcomes share. -/
theorem Lockstep.bind {β : Type u} (b : Except ε β) {f : β → Except ε (σ × List ω)}
    {f' : β → Except ε (τ × List ω)} (h : ∀ b, Lockstep R (f b) (f' b)) :
    Lockstep R (b >>= f) (b >>= f') := by
  cases b with
  | error e => exact .error e
  | ok b => exact h b

theorem Lockstep.seq {f : σ → Except ε (σ × List ω)} {f' : τ → Except ε (τ × List ω)}
    (h : Lockstep R r r') (hf : ∀ s t, R s t → Lockstep R' (f s) (f' t)) :
    Lockstep R' (seq r f) (seq r' f') := by
  cases h with
  | error e => exact .error e
  | @ok s t os hR =>
    have htail := hf s t hR
    simp only [Transition.seq]
    generalize f s = a at htail ⊢
    generalize f' t = b at htail ⊢
    cases htail with
    | error e => exact .error e
    | ok os' hR' => exact .ok (os ++ os') hR'

/-- The related states are among those the outcomes can leave. -/
theorem Lockstep.inv (h : Lockstep R r r') {P : σ → Prop} {Q : τ → Prop}
    (hP : ∀ s os, r = .ok (s, os) → P s) (hQ : ∀ t os, r' = .ok (t, os) → Q t) :
    Lockstep (fun s t => P s ∧ Q t ∧ R s t) r r' := by
  cases h with
  | error e => exact .error e
  | ok os hR => exact .ok os ⟨hP _ os rfl, hQ _ os rfl, hR⟩

theorem Lockstep.emitted (h : Lockstep R r r') : r.map Prod.snd = r'.map Prod.snd := by
  cases h <;> rfl

/-! ## Runs -/

theorem Lockstep.run {step : σ → α → Except ε (σ × List ω)}
    {step' : τ → α → Except ε (τ × List ω)} {as : List α}
    (hstep : ∀ s t a, a ∈ as → R s t → Lockstep R (step s a) (step' t a)) {s : σ} {t : τ}
    (h : R s t) : Lockstep R (run step s as) (run step' t as) := by
  induction as generalizing s t with
  | nil => exact .ok [] h
  | cons a as ih =>
    have htail : ∀ s t, R s t → Lockstep R (Transition.run step s as) (Transition.run step' t as) :=
      fun s t h => ih (fun s t a ha => hstep s t a (List.mem_cons_of_mem _ ha)) h
    rw [run_cons, run_cons]
    exact (hstep s t a (List.mem_cons_self ..) h).seq htail

/-- Whatever they are fed, two states of a machine emit the same. -/
def Indistinguishable (step : σ → α → Except ε (σ × List ω)) (s t : σ) : Prop :=
  ∀ as, (run step s as).map Prod.snd = (run step t as).map Prod.snd

theorem indistinguishable_of_lockstep {step : σ → α → Except ε (σ × List ω)}
    {R : σ → σ → Prop} (hstep : ∀ s t a, R s t → Lockstep R (step s a) (step t a)) {s t : σ}
    (h : R s t) : Indistinguishable step s t :=
  fun _ => (Lockstep.run (fun s t a _ => hstep s t a) h).emitted

end Transition
