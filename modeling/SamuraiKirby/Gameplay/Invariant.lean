/-
What holds of gameplay between any two steps, whatever the players do.

A player's callbacks, if it has any, start with the one of `Gameplay`; rooms
subscribe only to players they seat, and no subscription ever goes away, so a
player has at least as many entries for a room as it has seats there.
-/
import SamuraiKirby.Gameplay.Changes

namespace SamuraiKirby
namespace Gameplay

open Transition

variable {env : Environment} {gameplay gameplay' gameplay'' : Gameplay} {p : PlayerId}
  {m : PlayerActionMessage} {c : Subscriber} {effects : List Effect}

theorem Unmoved.trans (h : Unmoved gameplay gameplay') (h' : Unmoved gameplay' gameplay'') :
    Unmoved gameplay gameplay'' where
  live id := (h'.live id).trans (h.live id)
  seats q id := (h'.seats q id).trans (h.seats q id)
  entries q := (h'.entries q).trans (h.entries q)
  nextRoom := h'.nextRoom.trans h.nextRoom
  wellFormed hwf := h'.wellFormed (h.wellFormed hwf)

theorem Left.trans_unmoved {erased : Prop} {id : RoomId} (h : Left erased p id gameplay gameplay')
    (h' : Unmoved gameplay' gameplay'') : Left erased p id gameplay gameplay'' where
  live id' := (h'.live id').trans (h.live id')
  seats q id' := by
    rw [h'.seats]
    exact h.seats q id'
  entries q := (h'.entries q).trans (h.entries q)
  nextRoom := h'.nextRoom.trans h.nextRoom
  wellFormed hwf := h'.wellFormed (h.wellFormed hwf)

/-! ## Connectivity messages -/

/-- Gameplay subscribed to the player. -/
structure Connected (p : PlayerId) (gameplay gameplay' : Gameplay) : Prop where
  live : ∀ id, gameplay'.live id ↔ gameplay.live id
  seats : ∀ q id, gameplay'.seats q id = gameplay.seats q id
  entries : ∀ q, gameplay'.entries q =
    gameplay.entries q ++ if q = p then [.gameplay] else []
  nextRoom : gameplay'.roomManager.nextRoom = gameplay.roomManager.nextRoom
  wellFormed : gameplay.RoomsWellFormed → gameplay'.RoomsWellFormed

/-- What one pass of the loop over connectivity messages can do. -/
inductive ConnectivityCase (gameplay : Gameplay) :
    PlayerConnectivityMessage → Gameplay → List Effect → Prop where
  | connected (p : PlayerId) (gameplay' : Gameplay) (h : Connected p gameplay gameplay') :
      ConnectivityCase gameplay ⟨.connect, p⟩ gameplay' [.connectivityHandled ⟨.connect, p⟩]
  /-- Who disconnects sits in no room. -/
  | absent (p : PlayerId) (gameplay' : Gameplay) (hseat : ∀ id, gameplay.seats p id = 0)
      (h : Unmoved gameplay gameplay') :
      ConnectivityCase gameplay ⟨.disconnect, p⟩ gameplay' [.connectivityHandled ⟨.disconnect, p⟩]
  /-- Who disconnects leaves the first room it is found in. -/
  | left (p : PlayerId) (id : RoomId) (room : Room) (calls : List BrokerCall)
      (gameplay' : Gameplay) (hfirst : gameplay.roomManager.roomPlayerIsIn p = some (id, room))
      (h : Left (gameplay.alone p id) p id gameplay gameplay') :
      ConnectivityCase gameplay ⟨.disconnect, p⟩ gameplay'
        (BrokerCall.effects calls ++ [.connectivityHandled ⟨.disconnect, p⟩])

theorem unmoved_unsubscribe (gameplay : Gameplay) (p : PlayerId) (c : Subscriber) :
    Unmoved gameplay { gameplay with
      messageBroker := gameplay.messageBroker.unsubscribeToPlayerActionMessages p c } where
  live _ := Iff.rfl
  seats _ _ := rfl
  entries q := gameplay.messageBroker.callbacksWithContext_unsubscribe p q c
  nextRoom := rfl
  wellFormed := id

theorem dispatchConnectivity_cases (hwf : gameplay.RoomsWellFormed)
    {message : PlayerConnectivityMessage}
    (h : gameplay.dispatchConnectivity message = .ok (gameplay', effects)) :
    ConnectivityCase gameplay message gameplay' effects := by
  obtain ⟨messageType, p⟩ := message
  cases messageType with
  | connect =>
    cases h
    exact .connected p _ ⟨fun _ => Iff.rfl, fun _ _ => rfl,
      fun q => gameplay.messageBroker.callbacksWithContext_subscribe p q .gameplay, rfl, id⟩
  | disconnect =>
    cases hfirst : gameplay.roomManager.roomPlayerIsIn p with
    | none =>
      simp only [dispatchConnectivity, handlePlayerConnectivityMessage,
        removePlayerFromRoom_of_none hfirst, List.nil_append, Except.ok.injEq,
        Prod.mk.injEq] at h
      obtain ⟨rfl, rfl⟩ := h
      exact .absent p _ (roomPlayerIsIn_eq_none_iff_seats.1 hfirst)
        (unmoved_unsubscribe gameplay p .gameplay)
    | some found =>
      obtain ⟨id, room⟩ := found
      obtain ⟨gameplay₁, hremove, hleft⟩ := left_removePlayerFromRoom hwf hfirst
      simp only [dispatchConnectivity, handlePlayerConnectivityMessage, hremove,
        Except.ok.injEq, Prod.mk.injEq] at h
      obtain ⟨rfl, rfl⟩ := h
      exact .left p id room _ _ hfirst
        (hleft.trans_unmoved (unmoved_unsubscribe gameplay₁ p .gameplay))

theorem dispatchConnectivity_ok (gameplay : Gameplay) (message : PlayerConnectivityMessage) :
    ∃ gameplay' effects, gameplay.dispatchConnectivity message = .ok (gameplay', effects) :=
  ⟨_, _, rfl⟩

/-! ## Ticks -/

theorem effects_of_isPublication {calls : List BrokerCall}
    (h : ∀ c ∈ calls, c.isPublication = true) :
    ∀ o ∈ BrokerCall.effects calls, ∃ q message, o = .published q message := by
  intro o ho
  obtain ⟨call, hcall, heffect⟩ := List.mem_filterMap.1 ho
  cases call with
  | publishGameplayMessage q message => exact ⟨q, message, (Option.some.inj heffect).symm⟩
  | _ => cases h _ hcall

variable (readings : RoomId → Readings) (draws : RoomId → Nat)

theorem tickRoom_unmoved (hwf : gameplay.RoomsWellFormed) (id : RoomId) :
    ∃ gameplay' effects, gameplay.tickRoom readings draws id = .ok (gameplay', effects) ∧
      Unmoved gameplay gameplay' ∧ ∀ o ∈ effects, ∃ q message, o = .published q message := by
  unfold tickRoom
  cases hroom : gameplay.roomManager.room? id with
  | none => exact ⟨gameplay, [], rfl, unmoved_refl gameplay, by simp⟩
  | some room =>
    have hroomwf := hwf id room hroom
    obtain ⟨room', calls, htick⟩ := Room.tick_ok hroomwf (readings id) (draws id)
    simp only [htick]
    refine ⟨_, _, rfl, unmoved_of_rewrite hroom rfl (Room.tick_recipients hroomwf htick)
      (fun h => Room.tick_wellFormed h htick) fun q => ?_,
      effects_of_isPublication (Room.tick_isPublication hroomwf htick)⟩
    rw [entries_commit, BrokerCall.subscriptions_of_isPublication
      (Room.tick_isPublication hroomwf htick)]
    exact List.append_nil _

/-- A tick of all rooms ends, moves nobody and only publishes. -/
theorem tickAllRooms_unmoved (hwf : gameplay.RoomsWellFormed) :
    ∃ gameplay' effects, gameplay.tickAllRooms readings draws = .ok (gameplay', effects) ∧
      Unmoved gameplay gameplay' ∧ ∀ o ∈ effects, ∃ q message, o = .published q message := by
  unfold tickAllRooms
  generalize gameplay.roomManager.rooms.map Prod.fst = ids
  induction ids generalizing gameplay with
  | nil => exact ⟨gameplay, [], rfl, unmoved_refl gameplay, by simp⟩
  | cons id ids ih =>
    obtain ⟨gameplay₁, effects₁, hok₁, hunmoved₁, hpublished₁⟩ :=
      tickRoom_unmoved readings draws hwf id
    obtain ⟨gameplay₂, effects₂, hok₂, hunmoved₂, hpublished₂⟩ := ih (hunmoved₁.wellFormed hwf)
    refine ⟨gameplay₂, effects₁ ++ effects₂,
      run_cons_eq_ok.2 ⟨gameplay₁, _, _, hok₁, hok₂, rfl⟩, hunmoved₁.trans hunmoved₂, ?_⟩
    intro o ho
    rcases List.mem_append.1 ho with ho | ho
    · exact hpublished₁ o ho
    · exact hpublished₂ o ho

/-! ## The invariant -/

structure Inv (gameplay : Gameplay) : Prop where
  wellFormed : gameplay.RoomsWellFormed
  head : ∀ q, gameplay.entries q = [] ∨ ∃ rest, gameplay.entries q = .gameplay :: rest
  allocated : ∀ q id, .room id ∈ gameplay.entries q → id < gameplay.roomManager.nextRoom
  subscribed : ∀ q id, gameplay.seats q id ≤ (gameplay.entries q).count (.room id)

theorem inv_new : Inv new where
  wellFormed id room h := by cases h
  head q := Or.inl rfl
  allocated q id h := by cases h
  subscribed q id := Nat.le_refl 0

theorem Inv.unmoved (h : gameplay.Inv) (hu : Unmoved gameplay gameplay') : gameplay'.Inv where
  wellFormed := hu.wellFormed h.wellFormed
  head q := by
    rw [hu.entries]
    exact h.head q
  allocated q id hmem := by
    rw [hu.nextRoom]
    exact h.allocated q id (hu.entries q ▸ hmem)
  subscribed q id := by
    rw [hu.seats, hu.entries]
    exact h.subscribed q id

theorem Inv.left (h : gameplay.Inv) {erased : Prop} {id : RoomId}
    (hl : Left erased p id gameplay gameplay') : gameplay'.Inv where
  wellFormed := hl.wellFormed h.wellFormed
  head q := by
    rw [hl.entries]
    exact h.head q
  allocated q id' hmem := by
    rw [hl.nextRoom]
    exact h.allocated q id' (hl.entries q ▸ hmem)
  subscribed q id' := by
    have hseats := hl.seats q id'
    have hold := h.subscribed q id'
    rw [hl.entries]
    omega

/-- Only a player gameplay already listens to joins a room. -/
theorem Inv.joined (h : gameplay.Inv) {id : RoomId} (hj : Joined p id gameplay gameplay')
    (hp : gameplay.entries p ≠ []) : gameplay'.Inv where
  wellFormed := hj.wellFormed h.wellFormed
  head q := by
    rw [hj.entries]
    rcases h.head q with hnil | ⟨rest, hrest⟩
    · by_cases hq : q = p
      · subst hq
        exact absurd hnil hp
      · rw [if_neg hq, hnil]
        exact Or.inl rfl
    · rw [hrest]
      exact Or.inr ⟨_, rfl⟩
  allocated q id' hmem := by
    rw [hj.entries] at hmem
    rcases List.mem_append.1 hmem with hmem | hmem
    · exact Nat.lt_of_lt_of_le (h.allocated q id' hmem) hj.nextRoom
    · by_cases hq : q = p
      · rw [if_pos hq] at hmem
        cases List.mem_singleton.1 hmem
        exact hj.lt
      · rw [if_neg hq] at hmem
        cases hmem
  subscribed q id' := by
    have hold := h.subscribed q id'
    rw [hj.seats, hj.entries, List.count_append]
    by_cases hq : q = p
    · by_cases hid : id' = id
      · simpa [hq, hid] using hq ▸ hid ▸ hold
      · simp only [hid, and_false, if_false]
        omega
    · simp only [hq, false_and, if_false]
      omega

theorem Inv.connected (h : gameplay.Inv) (hc : Connected p gameplay gameplay') :
    gameplay'.Inv where
  wellFormed := hc.wellFormed h.wellFormed
  head q := by
    rw [hc.entries]
    rcases h.head q with hnil | ⟨rest, hrest⟩
    · rw [hnil]
      by_cases hq : q = p
      · rw [if_pos hq]
        exact Or.inr ⟨[], rfl⟩
      · rw [if_neg hq]
        exact Or.inl rfl
    · rw [hrest]
      exact Or.inr ⟨_, rfl⟩
  allocated q id hmem := by
    rw [hc.entries] at hmem
    rw [hc.nextRoom]
    rcases List.mem_append.1 hmem with hmem | hmem
    · exact h.allocated q id hmem
    · by_cases hq : q = p
      · rw [if_pos hq] at hmem
        cases List.mem_singleton.1 hmem
      · rw [if_neg hq] at hmem
        cases hmem
  subscribed q id := by
    have hold := h.subscribed q id
    rw [hc.seats, hc.entries, List.count_append]
    omega

theorem Inv.call (h : gameplay.Inv) (hc : c ∈ gameplay.entries p)
    (hcase : CallCase p m gameplay c gameplay' effects) : gameplay'.Inv := by
  cases hcase with
  | ignored => exact h
  | joined nickname difficulty id calls gameplay' hm hj =>
    exact h.joined hj (List.ne_nil_of_mem hc)
  | left id room calls gameplay' hm hfirst hl => exact h.left hl
  | leftRoom id calls gameplay' hm hl => exact h.left hl
  | handled id calls gameplay' hjoin hleave hlive hseat hu => exact h.unmoved hu

theorem Inv.connectivity (h : gameplay.Inv) {message : PlayerConnectivityMessage}
    (hcase : ConnectivityCase gameplay message gameplay' effects) : gameplay'.Inv := by
  cases hcase with
  | connected p gameplay' hc => exact h.connected hc
  | absent p gameplay' hseat hu => exact h.unmoved hu
  | left p id room calls gameplay' hfirst hl => exact h.left hl

/-! ## Subscriptions only grow -/

theorem CallCase.entries_prefix (hcase : CallCase p m gameplay c gameplay' effects)
    (q : PlayerId) : gameplay.entries q <+: gameplay'.entries q := by
  cases hcase with
  | ignored => exact List.prefix_rfl
  | joined nickname difficulty id calls gameplay' hm hj =>
    rw [hj.entries]
    exact List.prefix_append _ _
  | left id room calls gameplay' hm hfirst hl => exact (hl.entries q).symm ▸ List.prefix_rfl
  | leftRoom id calls gameplay' hm hl => exact (hl.entries q).symm ▸ List.prefix_rfl
  | handled id calls gameplay' hjoin hleave hlive hseat hu =>
    exact (hu.entries q).symm ▸ List.prefix_rfl

end Gameplay
end SamuraiKirby
