/-
Who occupies the slots of a room, and what the room asks of the broker.

`recipients` lists the ids in the slots.  A player who joins twice is listed
twice, so the facts here count: joining adds one seat, leaving takes one away,
and no other message moves anybody.
-/
import SamuraiKirby.Room.Protocol
import Mathlib.Data.List.Count

namespace SamuraiKirby
namespace Room

/-- How many slots a player occupies. -/
def seats (room : Room) (id : PlayerId) : Nat := room.recipients.count id

theorem seats_eq_zero_iff {room : Room} {id : PlayerId} :
    room.seats id = 0 ↔ id ∉ room.recipients := List.count_eq_zero

theorem seats_pos_iff {room : Room} {id : PlayerId} :
    0 < room.seats id ↔ id ∈ room.recipients := List.count_pos_iff

/-- The seats are counted slot by slot. -/
theorem seats_eq (room : Room) (id : PlayerId) :
    room.seats id =
      (room.players.P1.toList.map (·.id)).count id +
        (room.players.P2.toList.map (·.id)).count id := by
  rw [seats, recipients, List.map_append, List.count_append]

theorem seats_new (config : RoomConfig) (id : PlayerId) : (new config).seats id = 0 := rfl

theorem seats_congr {room room' : Room} (h : room'.recipients = room.recipients) (id : PlayerId) :
    room'.seats id = room.seats id := by
  rw [seats, seats, h]

theorem mem_recipients_iff {room : Room} {id : PlayerId} :
    id ∈ room.recipients ↔ ∃ a p, room.players.get a = some p ∧ p.id = id := by
  unfold recipients
  constructor
  · intro h
    obtain ⟨p, hp, hid⟩ := List.mem_map.1 h
    rcases List.mem_append.1 hp with hp | hp
    · exact ⟨.P1, p, Option.mem_toList.1 hp, hid⟩
    · exact ⟨.P2, p, Option.mem_toList.1 hp, hid⟩
  · rintro ⟨a, p, hp, hid⟩
    refine List.mem_map.2 ⟨p, List.mem_append.2 ?_, hid⟩
    cases a with
    | P1 => exact Or.inl (Option.mem_toList.2 hp)
    | P2 => exact Or.inr (Option.mem_toList.2 hp)

theorem getPlayerById_eq_none_iff_seats {room : Room} {id : PlayerId} :
    room.getPlayerById id = none ↔ room.seats id = 0 := by
  rw [getPlayerById_eq_none_iff, seats_eq_zero_iff, mem_recipients_iff]
  constructor
  · rintro h ⟨a, p, hp, hid⟩
    exact h a p hp hid
  · intro h a p hp hid
    exact h ⟨a, p, hp, hid⟩

theorem hasPlayerWithId_iff_seats {room : Room} {id : PlayerId} :
    room.hasPlayerWithId id = true ↔ 0 < room.seats id := by
  rw [seats_pos_iff, mem_recipients_iff]
  unfold hasPlayerWithId
  simp only [Bool.or_eq_true, Option.any_eq_true, decide_eq_true_eq]
  constructor
  · rintro (⟨p, hp, hid⟩ | ⟨p, hp, hid⟩)
    · exact ⟨.P1, p, hp, hid⟩
    · exact ⟨.P2, p, hp, hid⟩
  · rintro ⟨a, p, hp, hid⟩
    cases a with
    | P1 => exact Or.inl ⟨p, hp, hid⟩
    | P2 => exact Or.inr ⟨p, hp, hid⟩

theorem isEmpty_iff_seats {room : Room} : room.isEmpty = true ↔ ∀ id, room.seats id = 0 := by
  rw [← recipients_eq_nil_iff]
  constructor
  · intro h id
    rw [seats, h]
    rfl
  · intro h
    apply List.eq_nil_iff_forall_not_mem.2
    intro id
    exact seats_eq_zero_iff.1 (h id)

/-! ## Joining -/

theorem getAvailableAssignment_of_not_isFull {room : Room} (h : room.isFull = false) :
    ∃ a, room.getAvailableAssignment = some a := by
  unfold getAvailableAssignment
  by_cases h1 : room.players.P1.isNone
  · exact ⟨.P1, if_pos h1⟩
  · refine ⟨.P2, ?_⟩
    rw [if_neg h1, if_pos]
    rw [isFull] at h
    cases hp1 : room.players.P1 with
    | none => rw [hp1] at h1; exact absurd rfl h1
    | some p => simpa [hp1] using h

/-- Joining a room with a free slot adds one seat. -/
theorem seats_addPlayer {room : Room} (h : room.isFull = false) (id : PlayerId)
    (nickname : Bytes) (q : PlayerId) :
    (room.addPlayer id nickname).1.seats q = room.seats q + if q = id then 1 else 0 := by
  obtain ⟨a, ha⟩ := getAvailableAssignment_of_not_isFull h
  have hfree := getAvailableAssignment_eq_some ha
  rw [seats_eq, seats_eq, addPlayer, ha]
  have hcount : ([id].count q : Nat) = if q = id then 1 else 0 := by
    by_cases hq : q = id
    · simp [hq]
    · simp [hq, Ne.symm hq]
  cases a with
  | P1 =>
    have hp1 : room.players.P1 = none := hfree
    simp only [Players.set, hp1, Option.toList_some, Option.toList_none, List.map_cons,
      List.map_nil, List.count_nil, hcount]
    omega
  | P2 =>
    have hp2 : room.players.P2 = none := hfree
    simp only [Players.set, hp2, Option.toList_some, Option.toList_none, List.map_cons,
      List.map_nil, List.count_nil, hcount]
    omega

/-! ## Leaving -/

/-- Leaving takes one seat away from a player who has one. -/
theorem seats_removePlayer {room : Room} (h : WellFormed room) {id : PlayerId}
    (hseat : 0 < room.seats id) (q : PlayerId) :
    (room.removePlayer id).1.seats q + (if q = id then 1 else 0) = room.seats q := by
  cases hg : room.getPlayerById id with
  | none =>
    rw [getPlayerById_eq_none_iff_seats] at hg
    omega
  | some found =>
    obtain ⟨slot, player⟩ := found
    obtain ⟨hslot, hid⟩ := getPlayerById_eq_some hg
    have hassignment := h.slot slot player hslot
    have hcount : ([id].count q : Nat) = if q = id then 1 else 0 := by
      by_cases hq : q = id
      · simp [hq]
      · simp [hq, Ne.symm hq]
    have hreset : ∀ p : Option Player,
        (p.map Player.resetToReplay).toList.map (·.id) = p.toList.map (·.id) := by
      intro p
      cases p <;> rfl
    rw [seats_eq, seats_eq, removePlayer, hg]
    simp only [hassignment]
    cases slot with
    | P1 =>
      have hp1 : room.players.P1 = some player := hslot
      simp only [Players.set, Players.map, hreset, hp1, Option.toList_some, Option.toList_none,
        List.map_cons, List.map_nil, List.count_nil, hid, hcount]
      omega
    | P2 =>
      have hp2 : room.players.P2 = some player := hslot
      simp only [Players.set, Players.map, hreset, hp2, Option.toList_some, Option.toList_none,
        List.map_cons, List.map_nil, List.count_nil, hid, hcount]
      omega

/-- A room is left empty by the only player it has. -/
theorem isEmpty_removePlayer_iff {room : Room} (h : WellFormed room) {id : PlayerId}
    (hseat : 0 < room.seats id) :
    (room.removePlayer id).1.isEmpty = true ↔ room.recipients = [id] := by
  rw [isEmpty_iff_seats]
  have hcount : ∀ q, ([id].count q : Nat) = if q = id then 1 else 0 := by
    intro q
    by_cases hq : q = id
    · simp [hq]
    · simp [hq, Ne.symm hq]
  constructor
  · intro hzero
    refine List.perm_singleton.1 (List.perm_iff_count.2 fun q => ?_)
    have hleft := seats_removePlayer h hseat q
    rw [hzero q] at hleft
    rw [hcount q]
    exact hleft.symm.trans (Nat.zero_add _)
  · intro hrec q
    have hleft := seats_removePlayer h hseat q
    rw [show room.seats q = [id].count q by rw [seats, hrec], hcount q] at hleft
    omega

/-! ## Player messages -/

theorem handlePlayerMessage_of_absent {room : Room} {id : PlayerId} (h : room.seats id = 0)
    (message : PlayerActionMessage) (now : ChronoTimePoint) :
    room.handlePlayerMessage id message now = (room, []) := by
  rw [handlePlayerMessage, getPlayerById_eq_none_iff_seats.2 h]

theorem handlePlayerMessage_joinGame (room : Room) (id : PlayerId) (nickname : Bytes)
    (gameDifficulty : GameDifficulty) (now : ChronoTimePoint) :
    room.handlePlayerMessage id (.joinGame nickname gameDifficulty) now = (room, []) := by
  unfold handlePlayerMessage
  cases room.getPlayerById id <;> rfl

theorem handlePlayerMessage_leaveGame (room : Room) (id : PlayerId) (now : ChronoTimePoint) :
    room.handlePlayerMessage id .leaveGame now = room.removePlayer id := by
  unfold handlePlayerMessage
  cases hg : room.getPlayerById id with
  | none => rw [removePlayer, hg]
  | some found =>
    have hid : found.2.id = id := (getPlayerById_eq_some hg).2
    simp only [handlePlayerLeaveGameMessage, hid]

theorem recipients_modifyPlayer (room : Room) (slot : PlayerAssignment) {f : Player → Player}
    (hid : ∀ p, (f p).id = p.id) : (room.modifyPlayer slot f).recipients = room.recipients := by
  have hmap : ∀ p : Option Player, (p.map f).toList.map (·.id) = p.toList.map (·.id) := by
    intro p
    cases p with
    | none => rfl
    | some p => simp [hid]
  unfold recipients modifyPlayer Players.modify
  cases slot <;> simp only [Players.get, Players.set, List.map_append, hmap]

/-- Only leaving moves anybody. -/
theorem recipients_handlePlayerMessage (room : Room) (id : PlayerId)
    {message : PlayerActionMessage} (hm : message ≠ .leaveGame) (now : ChronoTimePoint) :
    (room.handlePlayerMessage id message now).1.recipients = room.recipients := by
  unfold handlePlayerMessage
  cases room.getPlayerById id with
  | none => rfl
  | some found =>
    obtain ⟨slot, player⟩ := found
    cases message with
    | setReadyState isReady =>
      simp only [handlePlayerSetReadyStateMessage]
      by_cases hs : room.gameplayState ≠ .waitingPlayers
      · rw [if_pos hs]
      · rw [if_neg hs]
        exact recipients_modifyPlayer room slot fun _ => rfl
    | notifyCanPlay => exact recipients_modifyPlayer room slot fun _ => rfl
    | playerInput inputPressed timeToPress =>
      exact recipients_modifyPlayer room slot fun _ => rfl
    | setReplayReadyState isReadyToReplay =>
      exact recipients_modifyPlayer room slot fun _ => rfl
    | leaveGame => exact absurd rfl hm
    | joinGame nickname gameDifficulty => rfl

/-! ## Broker calls -/

end Room

namespace BrokerCall

def isPublication : BrokerCall → Bool
  | .publishGameplayMessage _ _ => true
  | _ => false

/-- A subscription call of a room concerns one player. -/
def concerns (id : PlayerId) : BrokerCall → Prop
  | .publishGameplayMessage _ _ => True
  | .subscribeToPlayerActionMessages id' | .unsubscribeToPlayerActionMessages id' => id' = id

/-- How often a list of calls subscribes a player. -/
def subscriptions (id : PlayerId) (calls : List BrokerCall) : Nat :=
  calls.count (.subscribeToPlayerActionMessages id)

theorem concerns_of_isPublication {c : BrokerCall} (h : c.isPublication = true) (id : PlayerId) :
    c.concerns id := by
  cases c with
  | publishGameplayMessage q m => trivial
  | _ => cases h

theorem subscriptions_of_isPublication {calls : List BrokerCall}
    (h : ∀ c ∈ calls, c.isPublication = true) (id : PlayerId) : subscriptions id calls = 0 := by
  apply List.count_eq_zero.2
  intro hc
  cases h _ hc

end BrokerCall

namespace Room

theorem broadcast_isPublication (room : Room) (m : GameplayMessage) :
    ∀ c ∈ room.broadcastGameplayMessage m, c.isPublication = true := by
  intro c hc
  rw [broadcastGameplayMessage_eq] at hc
  obtain ⟨id, -, rfl⟩ := List.mem_map.1 hc
  rfl

theorem addPlayer_concerns (room : Room) (id : PlayerId) (nickname : Bytes) :
    ∀ c ∈ (room.addPlayer id nickname).2, c.concerns id := by
  unfold addPlayer
  cases room.getAvailableAssignment with
  | none => simp
  | some a =>
    intro c hc
    simp only [List.cons_append, List.mem_cons, List.mem_append, List.mem_map,
      List.not_mem_nil, or_false] at hc
    rcases hc with rfl | ⟨q, -, rfl⟩ | rfl
    · trivial
    · trivial
    · rfl

/-- Joining subscribes the player once. -/
theorem subscriptions_addPlayer {room : Room} (h : room.isFull = false) (id : PlayerId)
    (nickname : Bytes) (q : PlayerId) :
    BrokerCall.subscriptions q (room.addPlayer id nickname).2 = if q = id then 1 else 0 := by
  obtain ⟨a, ha⟩ := getAvailableAssignment_of_not_isFull h
  rw [addPlayer, ha, BrokerCall.subscriptions]
  have hothers : ∀ others : List Player, (others.map fun other =>
      BrokerCall.publishGameplayMessage other.id (.playerJoinedRoom
        ({ id := id, nickname := nickname, assignment := a } : Player).buildLobbyDTO)).count
          (.subscribeToPlayerActionMessages q) = 0 := by
    intro others
    apply List.count_eq_zero.2
    intro hc
    obtain ⟨other, -, hother⟩ := List.mem_map.1 hc
    cases hother
  simp only [List.cons_append, List.count_cons, List.count_append, hothers, List.count_nil]
  by_cases hq : q = id
  · simp [hq]
  · simp [hq, Ne.symm hq]

theorem removePlayer_concerns (room : Room) (id : PlayerId) :
    ∀ c ∈ (room.removePlayer id).2, c.concerns id := by
  unfold removePlayer
  cases hg : room.getPlayerById id with
  | none => simp
  | some found =>
    intro c hc
    rcases List.mem_cons.1 hc with rfl | hc
    · exact (getPlayerById_eq_some hg).2
    · exact BrokerCall.concerns_of_isPublication (broadcast_isPublication _ _ c hc) id

theorem subscriptions_removePlayer (room : Room) (id q : PlayerId) :
    BrokerCall.subscriptions q (room.removePlayer id).2 = 0 := by
  unfold removePlayer
  cases hg : room.getPlayerById id with
  | none => rfl
  | some found =>
    have hrest := BrokerCall.subscriptions_of_isPublication
      (broadcast_isPublication (room.removePlayer id).1 (.playerLeftRoom found.2.assignment)) q
    simp only [removePlayer, hg, BrokerCall.subscriptions] at hrest
    simp only [BrokerCall.subscriptions, List.count_cons, hrest]
    rfl

/-- A room that keeps its players only publishes. -/
theorem handlePlayerMessage_isPublication (room : Room) (id : PlayerId)
    {message : PlayerActionMessage} (hm : message ≠ .leaveGame) (now : ChronoTimePoint) :
    ∀ c ∈ (room.handlePlayerMessage id message now).2, c.isPublication = true := by
  unfold handlePlayerMessage
  cases room.getPlayerById id with
  | none => simp
  | some found =>
    obtain ⟨slot, player⟩ := found
    cases message with
    | setReadyState isReady =>
      simp only [handlePlayerSetReadyStateMessage]
      by_cases hs : room.gameplayState ≠ .waitingPlayers
      · rw [if_pos hs]
        simp
      · rw [if_neg hs]
        exact broadcast_isPublication _ _
    | notifyCanPlay => simp [handlePlayerNotifyCanPlayMessage]
    | playerInput inputPressed timeToPress => simp [handlePlayerInputMessage]
    | setReplayReadyState isReadyToReplay => exact broadcast_isPublication _ _
    | leaveGame => exact absurd rfl hm
    | joinGame nickname gameDifficulty => simp

theorem handlePlayerMessage_concerns (room : Room) (id : PlayerId)
    (message : PlayerActionMessage) (now : ChronoTimePoint) :
    ∀ c ∈ (room.handlePlayerMessage id message now).2, c.concerns id := by
  by_cases hm : message = .leaveGame
  · rw [hm, handlePlayerMessage_leaveGame]
    exact removePlayer_concerns room id
  · intro c hc
    exact BrokerCall.concerns_of_isPublication
      (handlePlayerMessage_isPublication room id hm now c hc) id

theorem subscriptions_handlePlayerMessage (room : Room) (id : PlayerId)
    (message : PlayerActionMessage) (now : ChronoTimePoint) (q : PlayerId) :
    BrokerCall.subscriptions q (room.handlePlayerMessage id message now).2 = 0 := by
  by_cases hm : message = .leaveGame
  · rw [hm, handlePlayerMessage_leaveGame]
    exact subscriptions_removePlayer room id q
  · exact BrokerCall.subscriptions_of_isPublication
      (handlePlayerMessage_isPublication room id hm now) q

/-! ## Ticks -/

theorem tick_recipients {clock : Readings} {draw : Nat} {room room' : Room}
    {calls : List BrokerCall} (h : WellFormed room)
    (ht : room.tick clock draw = .ok (room', calls)) : room'.recipients = room.recipients := by
  obtain ⟨room'', ms, htick, hturns⟩ := tick_turns h clock draw
  rw [ht] at htick
  cases htick
  exact hturns.recipients

/-- A tick publishes and does nothing else with the broker. -/
theorem tick_isPublication {clock : Readings} {draw : Nat} {room room' : Room}
    {calls : List BrokerCall} (h : WellFormed room)
    (ht : room.tick clock draw = .ok (room', calls)) : ∀ c ∈ calls, c.isPublication = true := by
  obtain ⟨room'', ms, htick, -⟩ := tick_turns h clock draw
  rw [ht] at htick
  cases htick
  intro c hc
  obtain ⟨m, -, hc⟩ := List.mem_flatMap.1 hc
  exact broadcast_isPublication _ m c hc

end Room
end SamuraiKirby
