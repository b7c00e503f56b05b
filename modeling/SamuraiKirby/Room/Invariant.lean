/-
What holds of a room between any two events.

`WellFormed` ties the phase to the occupancy of the slots and to the time
stamp the timeout reads, and each player's fields to each other.  This file
proves that the calls of the room manager and the player messages keep it.
The tick is the subject of `Room/Round.lean`.
-/
import SamuraiKirby.Room.Tick

namespace SamuraiKirby
namespace Room

structure WellFormed (room : Room) : Prop where
  /-- A player's assignment is the slot it occupies. -/
  slot : ∀ a p, room.players.get a = some p → p.assignment = a
  paired : ∀ a p, room.players.get a = some p → p.Paired
  /-- Outside the lobby both slots are occupied. -/
  full : room.gameplayState ≠ .waitingPlayers →
    ∃ p1 p2, room.players = ⟨some p1, some p2⟩
  readyForInput : room.gameplayState = .expectingInput → room.readyForInputAt.isSome

theorem wellFormed_new (config : RoomConfig) : WellFormed (new config) where
  slot := by intro a p h; cases a <;> cases h
  paired := by intro a p h; cases a <;> cases h
  full := by intro h; exact absurd rfl h
  readyForInput := by intro h; cases h

/-! ## Finding players -/

theorem getPlayerById_eq_some {room : Room} {id : PlayerId} {slot : PlayerAssignment}
    {p : Player} (h : room.getPlayerById id = some (slot, p)) :
    room.players.get slot = some p ∧ p.id = id := by
  unfold getPlayerById at h
  split at h
  · rename_i p' hp
    cases h
    have := Option.filter_eq_some_iff.1 hp
    exact ⟨this.1, by simpa using this.2⟩
  · simp only [Option.map_eq_some_iff, Prod.mk.injEq] at h
    obtain ⟨p', hp, rfl, rfl⟩ := h
    have := Option.filter_eq_some_iff.1 hp
    exact ⟨this.1, by simpa using this.2⟩

theorem getPlayerById_eq_none_iff {room : Room} {id : PlayerId} :
    room.getPlayerById id = none ↔ ∀ a p, room.players.get a = some p → p.id ≠ id := by
  unfold getPlayerById
  constructor
  · intro h a p hp
    split at h
    · cases h
    · rename_i h1
      simp only [Option.map_eq_none_iff] at h
      cases a with
      | P1 => simpa using (Option.filter_eq_none_iff.1 h1) p hp
      | P2 => simpa using (Option.filter_eq_none_iff.1 h) p hp
  · intro h
    have h1 : room.players.P1.filter (·.id = id) = none :=
      Option.filter_eq_none_iff.2 fun p hp => by simpa using h .P1 p hp
    have h2 : room.players.P2.filter (·.id = id) = none :=
      Option.filter_eq_none_iff.2 fun p hp => by simpa using h .P2 p hp
    rw [h1, h2]
    rfl

theorem getAvailableAssignment_eq_some {room : Room} {a : PlayerAssignment}
    (h : room.getAvailableAssignment = some a) : room.players.get a = none := by
  unfold getAvailableAssignment at h
  split at h
  · rename_i h1
    cases h
    simpa [Players.get] using h1
  · split at h
    · rename_i h2
      cases h
      simpa [Players.get] using h2
    · cases h

/-! ## The lobby calls and the player messages -/

theorem WellFormed.addPlayer {room : Room} (h : WellFormed room) (id : PlayerId)
    (nickname : Bytes) : WellFormed (room.addPlayer id nickname).1 := by
  unfold Room.addPlayer
  cases ha : room.getAvailableAssignment with
  | none => exact h
  | some a =>
    have hfree := getAvailableAssignment_eq_some ha
    -- a free slot means the room is still in the lobby
    have hlobby : room.gameplayState = .waitingPlayers := by
      by_cases hs : room.gameplayState = .waitingPlayers
      · exact hs
      · obtain ⟨p1, p2, hp⟩ := h.full hs
        rw [hp] at hfree
        cases a <;> cases hfree
    constructor
    · intro b p hp
      by_cases hb : b = a
      · subst hb
        rw [Players.get_set_self] at hp
        cases hp
        rfl
      · rw [Players.get_set_of_ne _ hb] at hp
        exact h.slot b p hp
    · intro b p hp
      by_cases hb : b = a
      · subst hb
        rw [Players.get_set_self] at hp
        cases hp
        exact ⟨rfl, fun h => by cases h⟩
      · rw [Players.get_set_of_ne _ hb] at hp
        exact h.paired b p hp
    · intro hs
      exact absurd hlobby hs
    · intro hs
      rw [show room.gameplayState = .expectingInput from hs] at hlobby
      cases hlobby

theorem WellFormed.removePlayer {room : Room} (h : WellFormed room) (id : PlayerId) :
    WellFormed (room.removePlayer id).1 := by
  unfold Room.removePlayer
  cases hg : room.getPlayerById id with
  | none => exact h
  | some found =>
    obtain ⟨slot, player⟩ := found
    have hold : ∀ b p, ((room.players.map Player.resetToReplay).set player.assignment none).get b
        = some p → ∃ q, room.players.get b = some q ∧ p = q.resetToReplay := by
      intro b p hp
      by_cases hb : b = player.assignment
      · subst hb
        rw [Players.get_set_self] at hp
        cases hp
      · rw [Players.get_set_of_ne _ hb, Players.get_map, Option.map_eq_some_iff] at hp
        obtain ⟨q, hq, rfl⟩ := hp
        exact ⟨q, hq, rfl⟩
    constructor
    · intro b p hp
      obtain ⟨q, hq, rfl⟩ := hold b p hp
      exact h.slot b q hq
    · intro b p hp
      obtain ⟨q, hq, rfl⟩ := hold b p hp
      exact (h.paired b q hq).resetToReplay
    · intro hs
      exact absurd rfl hs
    · intro hs
      cases hs

/-- Writing to a player keeps the invariant when the player's assignment and the pairing of its
input fields survive the write. -/
theorem WellFormed.modifyPlayer {room : Room} (h : WellFormed room) (slot : PlayerAssignment)
    {f : Player → Player} (ha : ∀ p, (f p).assignment = p.assignment)
    (hf : ∀ p : Player, p.Paired → (f p).Paired) : WellFormed (room.modifyPlayer slot f) := by
  have hold : ∀ b p, (room.players.modify slot f).get b = some p →
      ∃ q, room.players.get b = some q ∧ (p = q ∨ p = f q) := by
    intro b p hp
    by_cases hb : b = slot
    · subst hb
      rw [Players.get_modify_self, Option.map_eq_some_iff] at hp
      obtain ⟨q, hq, rfl⟩ := hp
      exact ⟨q, hq, Or.inr rfl⟩
    · rw [Players.get_modify_of_ne _ hb] at hp
      exact ⟨p, hp, Or.inl rfl⟩
  constructor
  · intro b p hp
    obtain ⟨q, hq, rfl | rfl⟩ := hold b p hp
    · exact h.slot b p hq
    · rw [ha]
      exact h.slot b q hq
  · intro b p hp
    obtain ⟨q, hq, rfl | rfl⟩ := hold b p hp
    · exact h.paired b p hq
    · exact hf q (h.paired b q hq)
  · intro hs
    obtain ⟨p1, p2, hp⟩ := h.full hs
    cases slot with
    | P1 =>
      refine ⟨f p1, p2, ?_⟩
      simp [Room.modifyPlayer, hp, Players.modify, Players.set, Players.get]
    | P2 =>
      refine ⟨p1, f p2, ?_⟩
      simp [Room.modifyPlayer, hp, Players.modify, Players.set, Players.get]
  · intro hs
    exact h.readyForInput hs

theorem WellFormed.handlePlayerMessage {room : Room} (h : WellFormed room) (id : PlayerId)
    (message : PlayerActionMessage) (now : ChronoTimePoint) :
    WellFormed (room.handlePlayerMessage id message now).1 := by
  unfold Room.handlePlayerMessage
  cases hg : room.getPlayerById id with
  | none => exact h
  | some found =>
    obtain ⟨slot, player⟩ := found
    cases message with
    | setReadyState isReady =>
      unfold handlePlayerSetReadyStateMessage
      by_cases hs : room.gameplayState = .waitingPlayers
      · simp only [hs, ne_eq, not_true_eq_false, if_false]
        exact h.modifyPlayer slot (fun _ => rfl) (fun _ hp => ⟨hp.declared, hp.handled⟩)
      · simp only [hs, ne_eq, not_false_eq_true, if_true]
        exact h
    | notifyCanPlay =>
      exact h.modifyPlayer slot (fun _ => rfl) (fun _ hp => ⟨hp.declared, hp.handled⟩)
    | playerInput inputPressed timeToPress =>
      exact h.modifyPlayer slot (fun _ => rfl) (fun _ _ => ⟨rfl, fun _ => rfl⟩)
    | setReplayReadyState isReadyToReplay =>
      exact h.modifyPlayer slot (fun _ => rfl) (fun _ hp => ⟨hp.declared, hp.handled⟩)
    | leaveGame => exact h.removePlayer player.id
    | joinGame nickname gameDifficulty => exact h

end Room
end SamuraiKirby
