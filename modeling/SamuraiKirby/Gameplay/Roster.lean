/-
When every player has at most one seat and every room a player.

Nothing stops a seated player from joining again.  As long as that does not
happen, the room manager keeps the roster: gameplay's callback comes first in
every list, so a leaving player has no seat left when the callbacks of rooms see
the message, and it is the room manager that erases an emptied room.
-/
import SamuraiKirby.Gameplay.Subscriptions

namespace SamuraiKirby
namespace Gameplay

open Transition

variable {env : Environment} {gameplay gameplay' : Gameplay} {p : PlayerId}
  {m : PlayerActionMessage} {c : Subscriber} {effects : List Effect}

structure Roster (gameplay : Gameplay) : Prop where
  oneSlot : ∀ q id, gameplay.seats q id ≤ 1
  oneRoom : ∀ q id id', 0 < gameplay.seats q id → 0 < gameplay.seats q id' → id = id'
  occupied : ∀ id, gameplay.live id → ∃ q, 0 < gameplay.seats q id

/-- Only players without a seat join. -/
def joinsUnseated : Guard where
  connectivity _ _ _ := True
  action _ _ _ _ := True
  callback gameplay p m c _ := c = .gameplay → m.isJoinGame = true → gameplay.Unseated p

instance (hub : MessageHub) (g : Gameplay) (message : PlayerConnectivityMessage) :
    Decidable (joinsUnseated.connectivity hub g message) := inferInstanceAs (Decidable True)

instance (g : Gameplay) (p : PlayerId) (m : PlayerActionMessage) (cs : List Subscriber) :
    Decidable (joinsUnseated.action g p m cs) := inferInstanceAs (Decidable True)

instance (g : Gameplay) (p : PlayerId) (m : PlayerActionMessage) (c : Subscriber)
    (rest : List Subscriber) : Decidable (joinsUnseated.callback g p m c rest) :=
  inferInstanceAs (Decidable (c = .gameplay → m.isJoinGame = true → g.Unseated p))

theorem roster_new : Roster new where
  oneSlot q id := Nat.zero_le 1
  oneRoom q id id' h := by cases h
  occupied id h := by cases h

theorem Roster.congr (h : Roster gameplay) (hlive : ∀ id, gameplay'.live id ↔ gameplay.live id)
    (hseats : ∀ q id, gameplay'.seats q id = gameplay.seats q id) : Roster gameplay' where
  oneSlot q id := by
    rw [hseats]
    exact h.oneSlot q id
  oneRoom q id id' := by
    rw [hseats, hseats]
    exact h.oneRoom q id id'
  occupied id hl := by
    obtain ⟨q, hq⟩ := h.occupied id ((hlive id).1 hl)
    exact ⟨q, by rw [hseats]; exact hq⟩

/-- Somebody else is in a room where a player has one seat and is not alone. -/
theorem exists_other_of_not_alone {id : RoomId} (hseat : gameplay.seats p id = 1)
    (halone : ¬ gameplay.alone p id) : ∃ q, q ≠ p ∧ 0 < gameplay.seats q id := by
  obtain ⟨room, hroom⟩ : ∃ room, gameplay.roomManager.room? id = some room :=
    Option.isSome_iff_exists.1 (live_of_seats (p := p) (by omega))
  have hcount : room.recipients.count p = 1 := (seats_of_room? hroom p).symm.trans hseat
  by_cases hothers : ∃ q, q ≠ p ∧ 0 < gameplay.seats q id
  · exact hothers
  · refine absurd ⟨room, hroom, ?_⟩ halone
    refine List.perm_singleton.1 (List.perm_iff_count.2 fun q => ?_)
    by_cases hq : q = p
    · rw [hq, hcount, List.count_singleton_self]
    · have hzero : room.seats q = 0 := by
        rw [← seats_of_room? hroom q]
        by_cases hpos : 0 < gameplay.seats q id
        · exact absurd ⟨q, hq, hpos⟩ hothers
        · omega
      rw [show room.recipients.count q = 0 from hzero]
      simp [Ne.symm hq]

/-- Who leaves through the room manager has no seat left, and no empty room stays behind. -/
theorem Roster.left (h : Roster gameplay) {id : RoomId}
    (hl : Left (gameplay.alone p id) p id gameplay gameplay') :
    Roster gameplay' ∧ gameplay'.Unseated p := by
  have hle : ∀ q id', gameplay'.seats q id' ≤ gameplay.seats q id' := fun q id' => by
    have := hl.seats q id'
    omega
  have hone : gameplay.seats p id = 1 := by
    have hslot := h.oneSlot p id
    have hpos := hl.seat_pos
    omega
  refine ⟨⟨fun q id' => ?_, fun q id₁ id₂ h₁ h₂ => ?_, fun id' hlive => ?_⟩, fun id' => ?_⟩
  · exact Nat.le_trans (hle q id') (h.oneSlot q id')
  · exact h.oneRoom q id₁ id₂ (Nat.lt_of_lt_of_le h₁ (hle q id₁))
      (Nat.lt_of_lt_of_le h₂ (hle q id₂))
  · obtain ⟨hlive, hkept⟩ := (hl.live id').1 hlive
    by_cases hid : id' = id
    · subst hid
      obtain ⟨q, hq, hseat⟩ := exists_other_of_not_alone hone fun halone => hkept ⟨rfl, halone⟩
      refine ⟨q, ?_⟩
      have hseats := hl.seats q id'
      rw [if_neg fun h => hq h.1] at hseats
      omega
    · obtain ⟨q, hseat⟩ := h.occupied id' hlive
      refine ⟨q, ?_⟩
      have hseats := hl.seats q id'
      rw [if_neg fun h => hid h.2] at hseats
      omega
  · have hseats := hl.seats p id'
    by_cases hid : id' = id
    · rw [if_pos ⟨rfl, hid⟩, hid, hone] at hseats
      rw [hid]
      omega
    · rw [if_neg fun h => hid h.2, Nat.add_zero] at hseats
      rw [hseats]
      by_cases hpos : 0 < gameplay.seats p id'
      · exact absurd (h.oneRoom p id' id hpos hl.seat_pos) hid
      · omega

theorem Roster.joined (h : Roster gameplay) {id : RoomId} (hj : Joined p id gameplay gameplay')
    (hunseated : gameplay.Unseated p) : Roster gameplay' where
  oneSlot q id' := by
    have hslot := h.oneSlot q id'
    rw [hj.seats]
    by_cases hq : q = p ∧ id' = id
    · have hnone : gameplay.seats q id' = 0 := hq.1 ▸ hunseated id'
      rw [if_pos hq]
      omega
    · rw [if_neg hq]
      exact hslot
  oneRoom q id₁ id₂ h₁ h₂ := by
    rw [hj.seats] at h₁ h₂
    by_cases hq : q = p
    · subst hq
      rw [hunseated] at h₁ h₂
      by_cases hid₁ : id₁ = id
      · by_cases hid₂ : id₂ = id
        · rw [hid₁, hid₂]
        · simp [hid₂] at h₂
      · simp [hid₁] at h₁
    · simp only [hq, false_and, if_false, Nat.add_zero] at h₁ h₂
      exact h.oneRoom q id₁ id₂ h₁ h₂
  occupied id' hlive := by
    rcases (hj.live id').1 hlive with hlive | rfl
    · obtain ⟨q, hq⟩ := h.occupied id' hlive
      refine ⟨q, ?_⟩
      rw [hj.seats]
      omega
    · refine ⟨p, ?_⟩
      rw [hj.seats, if_pos ⟨rfl, rfl⟩]
      omega

/-- The callbacks after gameplay's own find nobody to remove. -/
theorem run_call_leaveGame_of_unseated {cs : List Subscriber} (hs : Calling p cs gameplay)
    (hunseated : gameplay.Unseated p)
    (hrun : run (call env p .leaveGame) gameplay cs = .ok (gameplay', effects)) :
    gameplay' = gameplay := by
  refine run_call_preserves (P := fun g => g = gameplay) (C := fun _ _ _ => True)
    (fun _ heq _ _ hcase => ?_) hs rfl (along_true _ _) hrun
  subst heq
  cases hcase with
  | ignored => rfl
  | joined nickname difficulty id calls gameplay' hm hj => cases hm
  | left id room calls gameplay' hm hfirst hl =>
    exact absurd (hunseated id) (Nat.ne_of_gt hl.seat_pos)
  | leftRoom id calls gameplay' hm hl =>
    exact absurd (hunseated id) (Nat.ne_of_gt hl.seat_pos)
  | handled id calls gameplay' hjoin hleave hlive hseat hu => exact absurd rfl hleave

theorem Roster.leaveGame (h : Roster gameplay) {rest : List Subscriber}
    (hs : Calling p (.gameplay :: rest) gameplay)
    (hrun : run (call env p .leaveGame) gameplay (.gameplay :: rest) =
      .ok (gameplay', effects)) : Roster gameplay' := by
  obtain ⟨gameplay₁, os₁, os₂, hcall, hrest, -⟩ := run_cons_eq_ok.1 hrun
  have hfirst : Roster gameplay₁ ∧ gameplay₁.Unseated p := by
    cases call_cases hs.inv.wellFormed hcall with
    | ignored c hlive hjoin hleave hroom => exact ⟨h, hleave rfl rfl⟩
    | joined nickname difficulty id calls gameplay' hm hj => cases hm
    | left id room calls gameplay' hm hfirst hl => exact h.left hl
  have hs₁ := (hs.call (List.mem_cons_self ..) hcall).tail
  rw [run_call_leaveGame_of_unseated hs₁ hfirst.2 hrest]
  exact hfirst.1

theorem joinsUnseated_preserves : Preserves joinsUnseated Roster where
  connectivity hinv h _ hcase := by
    cases hcase with
    | connected p gameplay' hc => exact h.congr hc.live hc.seats
    | absent p gameplay' hseat hu => exact h.congr hu.live hu.seats
    | left p id room calls gameplay' hfirst hl => exact (h.left hl).1
  action := by
    intro env gameplay p m cs gameplay' effects hs hhead h hC hrun
    by_cases hm : m = .leaveGame
    · subst hm
      rcases hhead with rfl | ⟨rest, rfl⟩
      · cases hrun
        exact h
      · exact h.leaveGame hs hrun
    · refine run_call_preserves (P := Roster) (fun hinv h hc hC hcase => ?_) hs h hC.2 hrun
      cases hcase with
      | ignored => exact h
      | joined nickname difficulty id calls gameplay' hjoin hj =>
        exact h.joined hj (hC rfl (by rw [hjoin]; rfl))
      | left id room calls gameplay' hleave hfirst hl => exact absurd hleave hm
      | leftRoom id calls gameplay' hleave hl => exact absurd hleave hm
      | handled id calls gameplay' hjoin hleave hlive hseat hu => exact h.congr hu.live hu.seats
  unmoved h hu := h.congr hu.live hu.seats

/-- As long as only players without a seat join, every player has at most one seat over all
rooms and every room at least one player. -/
theorem roster_of_joinsUnseated {events : List System.Event} {system : System}
    (hjoins : Along (System.step env) (joinsUnseated.Step env) .new events)
    (hrun : run (System.step env) .new events = .ok (system, effects)) :
    Roster system.gameplay :=
  joinsUnseated_preserves.run roster_new hjoins hrun

theorem roster_of_leaveTogether :
    ∃ system effects, run (System.step stillEnvironment) .new leaveTogether =
      .ok (system, effects) ∧ Roster system.gameplay :=
  have hjoins : Along (System.step stillEnvironment) (joinsUnseated.Step stillEnvironment) .new
      leaveTogether := by decide
  ⟨_, _, rfl, roster_of_joinsUnseated hjoins rfl⟩

/-- Player 0 joins twice. -/
def joinTwice : List System.Event :=
  [.publishPlayerConnectivityMessage ⟨.connect, 0⟩,
    .publishPlayerActionMessage 0 (.joinGame [] .easy),
    .publishPlayerActionMessage 0 (.joinGame [] .easy), .dispatchMessages []]

/-- Player 0 sits in both slots of one room. -/
theorem joinTwice_takes_both_slots :
    ¬ ∀ (env : Environment) (events : List System.Event) (system : System)
      (effects : List Effect), run (System.step env) .new events = .ok (system, effects) →
        Roster system.gameplay := by
  intro h
  have hseats : ∃ system effects, run (System.step stillEnvironment) .new joinTwice =
      .ok (system, effects) ∧ system.gameplay.seats 0 0 = 2 := ⟨_, _, rfl, rfl⟩
  obtain ⟨system, effects, hrun, htwo⟩ := hseats
  have hone := (h _ _ _ _ hrun).oneSlot 0 0
  omega

end Gameplay
end SamuraiKirby
