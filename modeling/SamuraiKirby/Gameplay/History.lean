/-
What gameplay has done so far, next to the state it is in.

`Dispatch` carries facts about states through the loops of a dispatch.  The
results of the following files speak of the effects as well: which room emitted
what, what a client has been told, how many have left.  `Tells` is the rule for
them.  It asks for the four single steps and gives every run.
-/
import SamuraiKirby.Gameplay.Dispatch

namespace SamuraiKirby
namespace Gameplay

open Transition

/-- Steps that meet the guard keep a relation between gameplay and the effects so far. -/
structure Tells (guard : Guard) (R : Gameplay → List Effect → Prop) : Prop where
  connectivity : ∀ {hub gameplay told message gameplay' effects}, Inv gameplay →
    R gameplay told → guard.connectivity hub gameplay message →
    gameplay.dispatchConnectivity message = .ok (gameplay', effects) →
    R gameplay' (told ++ effects)
  callback : ∀ {env gameplay told p m c rest gameplay' effects}, Inv gameplay →
    R gameplay told → c ∈ gameplay.entries p → guard.callback gameplay p m c rest →
    gameplay.call env p m c = .ok (gameplay', effects) → R gameplay' (told ++ effects)
  popped : ∀ {gameplay told p m}, R gameplay told → R gameplay (told ++ [.actionHandled p m])
  tick : ∀ {readings draws gameplay told id gameplay' effects}, Inv gameplay →
    R gameplay told → gameplay.tickRoom readings draws id = .ok (gameplay', effects) →
    R gameplay' (told ++ effects)

variable {guard : Guard} {R : Gameplay → List Effect → Prop} {env : Environment}
  {gameplay gameplay' : Gameplay} {told effects : List Effect} {p : PlayerId}
  {m : PlayerActionMessage} {hub : MessageHub}

theorem tickRoom_inv {readings : RoomId → Readings} {draws : RoomId → Nat} {id : RoomId}
    (hinv : gameplay.Inv)
    (hstep : gameplay.tickRoom readings draws id = .ok (gameplay', effects)) : gameplay'.Inv := by
  obtain ⟨g, os, hok, hunmoved, -⟩ := tickRoom_unmoved readings draws hinv.wellFormed id
  rw [hok] at hstep
  cases hstep
  exact hinv.unmoved hunmoved

theorem Tells.dispatchAction (h : Tells guard R) {cs : List Subscriber}
    (hs : Calling p cs gameplay) (hR : R gameplay told)
    (hC : guard.Action env p cs gameplay m)
    (hrun : gameplay.dispatchAction env p cs m = .ok (gameplay', effects)) :
    R gameplay' (told ++ effects) := by
  obtain ⟨g, os₁, os₂, hcalls, hpop, rfl⟩ := seq_eq_ok.1 hrun
  cases hpop
  have hend : Calling p cs gameplay' ∧ R gameplay' (told ++ os₁) := by
    refine run_told
      (P := fun g told => Calling p cs g ∧ R g told)
      (fun g told c rest g' os hc hg hC hcall => ?_) ⟨hs, hR⟩ hC.2 hcalls
    exact ⟨hg.1.call hc hcall, h.callback hg.1.inv hg.2 (hg.1.subset c hc) hC hcall⟩
  rw [← List.append_assoc]
  exact h.popped hend.2

theorem Tells.dispatchPlayer (h : Tells guard R) (hinv : gameplay.Inv) (hR : R gameplay told)
    (hC : guard.Player env hub gameplay p)
    (hrun : gameplay.dispatchPlayer env hub p = .ok (gameplay', effects)) :
    R gameplay' (told ++ effects) := by
  have hend : Calling p (gameplay.entries p) gameplay' ∧ R gameplay' (told ++ effects) := by
    refine run_told (P := fun g told => Calling p (gameplay.entries p) g ∧ R g told)
      (fun g told m rest g' os _ hg hC hact => ?_) ⟨calling_entries hinv p, hR⟩ hC hrun
    exact ⟨hg.1.dispatchAction hact, h.dispatchAction hg.1 hg.2 hC hact⟩
  exact hend.2

theorem Tells.dispatchMessages (h : Tells guard R) {preference : List PlayerId}
    (hinv : gameplay.Inv) (hR : R gameplay told) (hC : guard.Dispatch env hub preference gameplay)
    (hrun : gameplay.dispatchMessages env hub preference = .ok (gameplay', effects)) :
    R gameplay' (told ++ effects) := by
  obtain ⟨gameplay₁, os₁, os₂, hconn, hplayers, rfl⟩ := seq_eq_ok.1 hrun
  have hfirst : gameplay₁.Inv ∧ R gameplay₁ (told ++ os₁) := by
    refine run_told (P := fun g told => g.Inv ∧ R g told)
      (fun g told message rest g' os _ hg hC hstep => ?_) ⟨hinv, hR⟩ hC.1 hconn
    exact ⟨dispatchConnectivity_inv hg.1 hstep, h.connectivity hg.1 hg.2 hC hstep⟩
  have hsecond : gameplay'.Inv ∧ R gameplay' (told ++ os₁ ++ os₂) := by
    refine run_told (P := fun g told => g.Inv ∧ R g told)
      (fun g told p rest g' os _ hg hC hstep => ?_) hfirst (hC.2 _ _ hconn) hplayers
    exact ⟨dispatchPlayer_inv hg.1 hstep, h.dispatchPlayer hg.1 hg.2 hC hstep⟩
  rw [← List.append_assoc]
  exact hsecond.2

theorem Tells.tickAllRooms (h : Tells guard R) {readings : RoomId → Readings}
    {draws : RoomId → Nat} (hinv : gameplay.Inv) (hR : R gameplay told)
    (hrun : gameplay.tickAllRooms readings draws = .ok (gameplay', effects)) :
    R gameplay' (told ++ effects) := by
  have hend : gameplay'.Inv ∧ R gameplay' (told ++ effects) := by
    refine run_told (P := fun g told => g.Inv ∧ R g told)
      (fun g told id rest g' os _ hg _ hstep => ?_) ⟨hinv, hR⟩ (along_true _ _) hrun
    exact ⟨tickRoom_inv hg.1 hstep, h.tick hg.1 hg.2 hstep⟩
  exact hend.2

theorem Tells.step (h : Tells guard R) {system system' : System} {e : System.Event}
    {rest : List System.Event} (hinv : system.gameplay.Inv) (hR : R system.gameplay told)
    (hC : guard.Step env system e rest)
    (hstep : system.step env e = .ok (system', effects)) :
    R system'.gameplay (told ++ effects) := by
  cases e with
  | publishPlayerConnectivityMessage message =>
    cases hstep
    simpa using hR
  | publishPlayerActionMessage playerId message =>
    cases hstep
    simpa using hR
  | dispatchMessages preference =>
    cases hd : system.gameplay.dispatchMessages env system.messageHub preference with
    | error fault =>
      simp only [System.step, System.perform, hd] at hstep
      cases hstep
    | ok outcome =>
      simp only [System.step, System.perform, hd] at hstep
      cases hstep
      exact h.dispatchMessages hinv hR hC hd
  | tickAllRooms readings draws =>
    cases ht : system.gameplay.tickAllRooms readings draws with
    | error fault =>
      simp only [System.step, System.perform, ht] at hstep
      cases hstep
    | ok outcome =>
      simp only [System.step, System.perform, ht] at hstep
      cases hstep
      exact h.tickAllRooms hinv hR ht

/-- Every run whose steps meet the guard keeps the relation to what it has emitted. -/
theorem Tells.run (h : Tells guard R) (hnew : R new []) {events : List System.Event}
    {system : System} (hC : Along (System.step env) (guard.Step env) .new events)
    (hrun : run (System.step env) .new events = .ok (system, effects)) :
    R system.gameplay effects := by
  have hend : system.gameplay.Inv ∧ R system.gameplay ([] ++ effects) := by
    refine run_told (P := fun (s : System) told => s.gameplay.Inv ∧ R s.gameplay told)
      (fun s told e rest s' os _ hs hC hstep => ?_) ⟨inv_new, hnew⟩ hC hrun
    exact ⟨step_inv hs.1 hstep, h.step hs.1 hs.2 hC hstep⟩
  exact hend.2

/-- The guard that asks for nothing. -/
def unguarded : Guard where
  connectivity _ _ _ := True
  action _ _ _ _ := True
  callback _ _ _ _ _ := True

theorem unguarded_step (env : Environment) (system : System) (e : System.Event)
    (rest : List System.Event) : unguarded.Step env system e rest := by
  cases e with
  | dispatchMessages preference =>
    refine ⟨along_of_forall (fun _ _ _ => trivial) _ _, fun g os _ => ?_⟩
    refine along_of_forall (fun g p _ => ?_) _ _
    refine along_of_forall (fun g m _ => ?_) _ _
    exact ⟨trivial, along_of_forall (fun _ _ _ => trivial) _ _⟩
  | _ => trivial

theorem Tells.run_unguarded (h : Tells unguarded R) (hnew : R new [])
    {events : List System.Event} {system : System}
    (hrun : Transition.run (System.step env) .new events = .ok (system, effects)) :
    R system.gameplay effects :=
  h.run hnew (along_of_forall (unguarded_step env) _ _) hrun

end Gameplay
end SamuraiKirby
