/-
Every room of the server is a room by itself.

Gameplay holds many rooms, makes them, feeds them and destroys them, and what they
publish goes out in one stream.  Each step of gameplay moves at most one room, and
moves it by an event of the room's own machine, which is what gameplay has handled or
the tick (`Feeds`).  So a run of gameplay is an interleaving of runs of single rooms
(`rooms_of_run`), and what holds of every run of a room holds of every room of the
server.
-/
import SamuraiKirby.Gameplay.History
import SamuraiKirby.Gameplay.Batching
import SamuraiKirby.Transition.Parts

namespace SamuraiKirby

theorem BrokerCall.effects_append (calls calls' : List BrokerCall) :
    effects (calls ++ calls') = effects calls ++ effects calls' := List.filterMap_append

theorem BrokerCall.filter_effects (calls : List BrokerCall) :
    (effects calls).filter Effect.isPublished = effects calls := by
  refine List.filter_eq_self.2 fun o ho => ?_
  obtain ⟨call, -, heffect⟩ := List.mem_filterMap.1 ho
  cases call with
  | publishGameplayMessage q message =>
    cases heffect
    rfl
  | _ => cases heffect

theorem Room.config_addPlayer (room : Room) (p : PlayerId) (nickname : Bytes) :
    (room.addPlayer p nickname).1.config = room.config := by
  unfold addPlayer
  cases room.getAvailableAssignment <;> rfl

namespace Gameplay

open Transition

/-- A room as the room manager makes it. -/
def Made (room : Room) : Prop :=
  ∃ difficulty draw, room = Room.new (.ofDifficulty difficulty draw)

/-- A number that has been given belongs to a room that is owned or to one that was destroyed. -/
def part (gameplay : Gameplay) (id : RoomId) : Life Room :=
  match gameplay.roomManager.room? id with
  | some room => .alive room
  | none => if id < gameplay.roomManager.nextRoom then .gone else .unborn

/-- One room takes one event. -/
def Moves (gameplay gameplay' : Gameplay) (id : RoomId) (e : Room.Event)
    (calls : List BrokerCall) : Prop :=
  MovesPart Room.step Made (fun room => room.isEmpty = true) gameplay.part gameplay'.part id e
    calls

variable {env : Environment} {gameplay gameplay' : Gameplay} {p : PlayerId}
  {m : PlayerActionMessage} {c : Subscriber} {effects told : List Effect} {id : RoomId}
  {room room' : Room} {calls : List BrokerCall} {e : Room.Event}

/-! ## Parts and rooms -/

theorem part_of_room? (h : gameplay.roomManager.room? id = some room) :
    gameplay.part id = .alive room := by
  rw [part, h]

theorem part_eq_alive_iff : gameplay.part id = .alive room ↔
    gameplay.roomManager.room? id = some room := by
  unfold part
  cases gameplay.roomManager.room? id with
  | none => split_ifs <;> simp
  | some room' => simp

theorem part_nextRoom (gameplay : Gameplay) :
    gameplay.part gameplay.roomManager.nextRoom = .unborn := by
  rw [part, RoomManager.room?_nextRoom]
  exact if_neg (Nat.lt_irrefl _)

theorem part_of_roomManager (h : gameplay'.roomManager = gameplay.roomManager) :
    gameplay'.part = gameplay.part := by
  funext id
  rw [part, part, h]

/-- A room was written to, or the next room was made. -/
theorem part_write (hrooms : ∀ id', gameplay'.roomManager.room? id' =
      if id' = id then some room' else gameplay.roomManager.room? id')
    (hnext : gameplay'.roomManager.nextRoom = gameplay.roomManager.nextRoom ∨
      id = gameplay.roomManager.nextRoom ∧
        gameplay'.roomManager.nextRoom = gameplay.roomManager.nextRoom + 1) :
    gameplay'.part = Function.update gameplay.part id (.alive room') := by
  funext id'
  by_cases hid : id' = id
  · subst hid
    rw [Function.update_self]
    exact part_of_room? (by rw [hrooms, if_pos rfl])
  · have hlt : id' < gameplay'.roomManager.nextRoom ↔ id' < gameplay.roomManager.nextRoom := by
      rcases hnext with hnext | ⟨rfl, hnext⟩
      · rw [hnext]
      · rw [hnext, Nat.lt_succ_iff_lt_or_eq]
        exact or_iff_left hid
    rw [Function.update_of_ne hid, part, part, hrooms, if_neg hid]
    simp only [hlt]

/-- A room was destroyed. -/
theorem part_erase (hrooms : ∀ id', gameplay'.roomManager.room? id' =
      if id' = id then none else gameplay.roomManager.room? id')
    (hnext : gameplay'.roomManager.nextRoom = gameplay.roomManager.nextRoom)
    (hlt : id < gameplay.roomManager.nextRoom) :
    gameplay'.part = Function.update gameplay.part id .gone := by
  funext id'
  by_cases hid : id' = id
  · subst hid
    rw [Function.update_self, part, hrooms, if_pos rfl, hnext]
    exact if_pos hlt
  · rw [Function.update_of_ne hid, part, part, hrooms, if_neg hid, hnext]

/-! ## Which room a step moves -/

theorem moves_write (hroom : gameplay.roomManager.room? id = some room)
    (hstep : room.step e = .ok (room', calls))
    (hrooms : ∀ id', gameplay'.roomManager.room? id' =
      if id' = id then some room' else gameplay.roomManager.room? id')
    (hnext : gameplay'.roomManager.nextRoom = gameplay.roomManager.nextRoom) :
    Moves gameplay gameplay' id e calls :=
  .steps room room' (part_of_room? hroom) hstep (part_write hrooms (Or.inl hnext))

theorem addPlayerToRoom_moves (gameplay : Gameplay) (draw : RoomId → Nat) (p : PlayerId)
    (nickname : Bytes) (difficulty : GameDifficulty) {manager : RoomManager}
    (h : gameplay.roomManager.addPlayerToRoom draw p nickname difficulty = (manager, id, calls)) :
    Moves gameplay (gameplay.commit manager id calls) id (.addPlayer p nickname) calls := by
  unfold RoomManager.addPlayerToRoom at h
  cases hfind : gameplay.roomManager.rooms.find? fun r =>
      r.2.isFull = false ∧ r.2.config.difficulty = difficulty with
  | none =>
    rw [hfind] at h
    cases h
    refine .opens _ _ (part_nextRoom gameplay) ⟨difficulty, _, rfl⟩ rfl
      (part_write (fun id' => ?_) (Or.inr ⟨rfl, rfl⟩))
    exact RoomManager.room?_pushRoom _ _ id'
  | some r =>
    obtain ⟨id', room⟩ := r
    rw [hfind] at h
    cases h
    have hroom : gameplay.roomManager.room? id = some room :=
      RoomManager.room?_eq_some_iff.2 (List.mem_of_find?_eq_some hfind)
    exact moves_write hroom rfl (RoomManager.room?_setRoom hroom _) rfl

/-- Who joins gets a free slot of a room of the difficulty it asked for. -/
theorem addPlayerToRoom_difficulty (gameplay : Gameplay) (draw : RoomId → Nat) (p : PlayerId)
    (nickname : Bytes) (difficulty : GameDifficulty) {manager : RoomManager}
    (h : gameplay.roomManager.addPlayerToRoom draw p nickname difficulty = (manager, id, calls)) :
    (∀ room, gameplay.part id = .alive room → room.isFull = false) ∧
      ∀ room, (gameplay.commit manager id calls).part id = .alive room →
        room.config.difficulty = difficulty := by
  unfold RoomManager.addPlayerToRoom at h
  cases hfind : gameplay.roomManager.rooms.find? fun r =>
      r.2.isFull = false ∧ r.2.config.difficulty = difficulty with
  | none =>
    rw [hfind] at h
    cases h
    refine ⟨fun room hroom => ?_, fun room hroom => ?_⟩
    · rw [part_nextRoom] at hroom
      cases hroom
    · have hself := RoomManager.room?_pushRoom gameplay.roomManager
        ((Room.new (.ofDifficulty difficulty (draw gameplay.roomManager.nextRoom))).addPlayer p
          nickname).1 gameplay.roomManager.nextRoom
      rw [if_pos rfl] at hself
      rw [part_of_room? hself] at hroom
      cases hroom
      rw [Room.config_addPlayer]
      rfl
  | some r =>
    obtain ⟨id', room⟩ := r
    rw [hfind] at h
    cases h
    have htest : room.isFull = false ∧ room.config.difficulty = difficulty := by
      simpa using List.find?_some hfind
    have hroom : gameplay.roomManager.room? id = some room :=
      RoomManager.room?_eq_some_iff.2 (List.mem_of_find?_eq_some hfind)
    refine ⟨fun room' hroom' => ?_, fun room' hroom' => ?_⟩
    · rw [part_of_room? hroom] at hroom'
      cases hroom'
      exact htest.1
    · have hself := RoomManager.room?_setRoom hroom (room.addPlayer p nickname).1 id
      rw [if_pos rfl] at hself
      rw [part_of_room? hself] at hroom'
      cases hroom'
      rw [Room.config_addPlayer]
      exact htest.2

theorem removePlayerFromRoom_moves
    (hfirst : gameplay.roomManager.roomPlayerIsIn p = some (id, room)) :
    ∃ gameplay', gameplay.removePlayerFromRoom p =
        (gameplay', some id, BrokerCall.effects (room.removePlayer p).2) ∧
      Moves gameplay gameplay' id (.removePlayer p) (room.removePlayer p).2 := by
  obtain ⟨manager, hremove, hnext, hrooms⟩ := RoomManager.removePlayerFromRoom_of_some hfirst
  have hroom := (RoomManager.roomPlayerIsIn_eq_some hfirst).1
  refine ⟨gameplay.commit manager id (room.removePlayer p).2, ?_, ?_⟩
  · rw [removePlayerFromRoom, hremove]
  · by_cases hempty : (room.removePlayer p).1.isEmpty = true
    · simp only [hempty, if_true] at hrooms
      exact .closes room _ (part_of_room? hroom) rfl hempty
        (part_erase hrooms hnext (RoomManager.lt_nextRoom_of_room? hroom))
    · simp only [hempty, Bool.false_eq_true, if_false] at hrooms
      exact moves_write hroom rfl hrooms hnext

theorem seats_of_roomPlayerIsIn
    (hfirst : gameplay.roomManager.roomPlayerIsIn p = some (id, room)) :
    0 < gameplay.seats p id := by
  obtain ⟨hroom, hseat⟩ := RoomManager.roomPlayerIsIn_eq_some hfirst
  rw [seats_of_room? hroom]
  exact hseat

/-- What a callback does to the rooms, and the effects of it. -/
inductive CallMoves (p : PlayerId) (m : PlayerActionMessage) (gameplay gameplay' : Gameplay) :
    Subscriber → List Effect → Prop where
  | idle (c : Subscriber) (h : gameplay' = gameplay) : CallMoves p m gameplay gameplay' c []
  | joins (nickname : Bytes) (difficulty : GameDifficulty) (id : RoomId) (calls : List BrokerCall)
      (hm : m = .joinGame nickname difficulty)
      (hfree : ∀ room, gameplay.part id = .alive room → room.isFull = false)
      (hdifficulty : ∀ room, gameplay'.part id = .alive room →
        room.config.difficulty = difficulty)
      (h : Moves gameplay gameplay' id (.addPlayer p nickname) calls) :
      CallMoves p m gameplay gameplay' .gameplay (.applied id p m :: BrokerCall.effects calls)
  | leaves (id : RoomId) (calls : List BrokerCall) (hm : m = .leaveGame)
      (hseat : 0 < gameplay.seats p id)
      (h : Moves gameplay gameplay' id (.removePlayer p) calls) :
      CallMoves p m gameplay gameplay' .gameplay (.applied id p m :: BrokerCall.effects calls)
  | handles (id : RoomId) (room : Room) (now : ChronoTimePoint) (calls : List BrokerCall)
      (hroom : gameplay.roomManager.room? id = some room)
      (h : Moves gameplay gameplay' id (.handlePlayerMessage p m now) calls) :
      CallMoves p m gameplay gameplay' (.room id)
        ((if room.applies p m then [.applied id p m] else []) ++ BrokerCall.effects calls)

theorem call_moves (h : gameplay.call env p m c = .ok (gameplay', effects)) :
    CallMoves p m gameplay gameplay' c effects := by
  cases c with
  | gameplay =>
    cases m with
    | joinGame nickname difficulty =>
      cases h
      obtain ⟨hfree, hdifficulty⟩ :=
        addPlayerToRoom_difficulty gameplay env.draw p nickname difficulty rfl
      exact .joins nickname difficulty _ _ rfl hfree hdifficulty
        (addPlayerToRoom_moves gameplay env.draw p nickname difficulty rfl)
    | leaveGame =>
      cases hfirst : gameplay.roomManager.roomPlayerIsIn p with
      | none =>
        simp only [call, handlePlayerMessage, removePlayerFromRoom_of_none hfirst] at h
        cases h
        exact .idle .gameplay rfl
      | some found =>
        obtain ⟨id, room⟩ := found
        obtain ⟨g, hremove, hmoves⟩ := removePlayerFromRoom_moves hfirst
        simp only [call, handlePlayerMessage, hremove] at h
        cases h
        exact .leaves id _ rfl (seats_of_roomPlayerIsIn hfirst) hmoves
    | _ =>
      cases h
      exact .idle .gameplay rfl
  | room id =>
    cases hroom : gameplay.roomManager.room? id with
    | none =>
      simp only [call, handleRoomMessage, hroom] at h
      cases h
    | some room =>
      simp only [call, handleRoomMessage, hroom] at h
      cases h
      exact .handles id room (env.now gameplay.clockReads) _ hroom
        (moves_write hroom rfl (RoomManager.room?_setRoom hroom _) rfl)

/-- What a connectivity message does to the rooms, and the effects of it. -/
inductive ConnectivityMoves (gameplay gameplay' : Gameplay) :
    PlayerConnectivityMessage → List Effect → Prop where
  | idle (message : PlayerConnectivityMessage)
      (hseat : message.messageType = .disconnect → gameplay.Unseated message.playerId)
      (h : gameplay'.roomManager = gameplay.roomManager) :
      ConnectivityMoves gameplay gameplay' message [.connectivityHandled message]
  | leaves (p : PlayerId) (id : RoomId) (calls : List BrokerCall)
      (hseat : 0 < gameplay.seats p id)
      (h : Moves gameplay gameplay' id (.removePlayer p) calls) :
      ConnectivityMoves gameplay gameplay' ⟨.disconnect, p⟩
        (BrokerCall.effects calls ++ [.connectivityHandled ⟨.disconnect, p⟩])

theorem dispatchConnectivity_moves {message : PlayerConnectivityMessage}
    (h : gameplay.dispatchConnectivity message = .ok (gameplay', effects)) :
    ConnectivityMoves gameplay gameplay' message effects := by
  obtain ⟨messageType, p⟩ := message
  cases messageType with
  | connect =>
    cases h
    exact .idle _ nofun rfl
  | disconnect =>
    cases hfirst : gameplay.roomManager.roomPlayerIsIn p with
    | none =>
      simp only [dispatchConnectivity, handlePlayerConnectivityMessage,
        removePlayerFromRoom_of_none hfirst, List.nil_append] at h
      cases h
      exact .idle _ (fun _ => roomPlayerIsIn_eq_none_iff_seats.1 hfirst) rfl
    | some found =>
      obtain ⟨id, room⟩ := found
      obtain ⟨g, hremove, hmoves⟩ := removePlayerFromRoom_moves hfirst
      simp only [dispatchConnectivity, handlePlayerConnectivityMessage, hremove] at h
      cases h
      exact .leaves p id _ (seats_of_roomPlayerIsIn hfirst) hmoves

theorem tickRoom_moves {readings : RoomId → Readings} {draws : RoomId → Nat}
    (h : gameplay.tickRoom readings draws id = .ok (gameplay', effects)) :
    (gameplay' = gameplay ∧ effects = []) ∨
      ∃ calls, Moves gameplay gameplay' id (.tick (readings id) (draws id)) calls ∧
        effects = BrokerCall.effects calls := by
  cases hroom : gameplay.roomManager.room? id with
  | none =>
    simp only [tickRoom, hroom] at h
    cases h
    exact Or.inl ⟨rfl, rfl⟩
  | some room =>
    cases htick : room.tick (readings id) (draws id) with
    | error _ =>
      simp only [tickRoom, hroom, htick] at h
      cases h
    | ok outcome =>
      simp only [tickRoom, hroom, htick] at h
      cases h
      exact Or.inr ⟨_, moves_write hroom htick (RoomManager.room?_setRoom hroom _) rfl, rfl⟩

/-! ## The rooms of a run -/

/-- An action of a player and the event a room makes of it. -/
inductive Takes (p : PlayerId) : PlayerActionMessage → Room.Event → Prop where
  | joins (nickname : Bytes) (difficulty : GameDifficulty) :
      Takes p (.joinGame nickname difficulty) (.addPlayer p nickname)
  | leaves : Takes p .leaveGame (.removePlayer p)
  | handles (m : PlayerActionMessage) (now : ChronoTimePoint) :
      Takes p m (.handlePlayerMessage p m now)

/-- Gameplay feeds the rooms: what it did so far, and the moves this made of it.  What a clock or
the random device gave is not told. -/
inductive Feeds : List Effect → List (PartMove RoomId Room.Event BrokerCall) → Prop where
  | start : Feeds [] []
  | connectivityHandled {told moves} (message : PlayerConnectivityMessage)
      (h : Feeds told moves) : Feeds (told ++ [.connectivityHandled message]) moves
  | actionHandled {told moves} (p : PlayerId) (m : PlayerActionMessage) (h : Feeds told moves) :
      Feeds (told ++ [.actionHandled p m]) moves
  /-- A room takes an action as one of its players'. -/
  | applied {told moves} (id : RoomId) (p : PlayerId) (m : PlayerActionMessage) (e : Room.Event)
      (calls : List BrokerCall) (h : Feeds told moves) (htakes : Takes p m e) :
      Feeds (told ++ .applied id p m :: BrokerCall.effects calls) (moves ++ [⟨id, e, calls⟩])
  /-- A player whose connection was closed is taken out of a room. -/
  | disconnected {told moves} (id : RoomId) (p : PlayerId) (calls : List BrokerCall)
      (h : Feeds told moves) :
      Feeds (told ++ (BrokerCall.effects calls ++ [.connectivityHandled ⟨.disconnect, p⟩]))
        (moves ++ [⟨id, .removePlayer p, calls⟩])
  | ticked {told moves} (id : RoomId) (clock : Readings) (draw : Nat) (calls : List BrokerCall)
      (h : Feeds told moves) :
      Feeds (told ++ BrokerCall.effects calls) (moves ++ [⟨id, .tick clock draw, calls⟩])

theorem published_move {moves : List (PartMove RoomId Room.Event BrokerCall)} (id : RoomId)
    (e : Room.Event)
    (htold : told.filter Effect.isPublished = BrokerCall.effects (moves.flatMap (·.emitted)))
    (heffects : effects.filter Effect.isPublished = BrokerCall.effects calls) :
    (told ++ effects).filter Effect.isPublished =
      BrokerCall.effects ((moves ++ [PartMove.mk id e calls]).flatMap (·.emitted)) := by
  rw [List.filter_append, htold, heffects, List.flatMap_append, BrokerCall.effects_append,
    List.flatMap_singleton]

/-- What gameplay has published is what the moves published. -/
theorem Feeds.published {moves : List (PartMove RoomId Room.Event BrokerCall)}
    (h : Feeds told moves) :
    told.filter Effect.isPublished = BrokerCall.effects (moves.flatMap (·.emitted)) := by
  induction h with
  | start => rfl
  | connectivityHandled message h ih =>
    rw [List.filter_append, ih]
    exact List.append_nil _
  | actionHandled p m h ih =>
    rw [List.filter_append, ih]
    exact List.append_nil _
  | applied id p m e calls h htakes ih =>
    exact published_move id _ ih (BrokerCall.filter_effects calls)
  | disconnected id p calls h ih =>
    refine published_move id _ ih ?_
    rw [List.filter_append, BrokerCall.filter_effects]
    exact List.append_nil _
  | ticked id clock draw calls h ih => exact published_move id _ ih (BrokerCall.filter_effects calls)

/-- The moves of the rooms so far, which account for all that was published, for what was
handled, and for what each room has become. -/
structure Accounts (gameplay : Gameplay) (told : List Effect)
    (moves : List (PartMove RoomId Room.Event BrokerCall)) : Prop where
  published : told.filter Effect.isPublished = BrokerCall.effects (moves.flatMap (·.emitted))
  handled : Feeds told moves
  rooms : ∀ id, History Room.step Made (fun room => room.isEmpty = true) (gameplay.part id)
    (inputsTo id moves) (emittedBy id moves)

theorem Accounts.idle {moves : List (PartMove RoomId Room.Event BrokerCall)}
    (h : Accounts gameplay told moves) (hrooms : gameplay'.roomManager = gameplay.roomManager)
    (hhandled : Feeds (told ++ effects) moves) : Accounts gameplay' (told ++ effects) moves where
  published := hhandled.published
  handled := hhandled
  rooms id := by
    rw [part_of_roomManager hrooms]
    exact h.rooms id

theorem Accounts.moves {moves : List (PartMove RoomId Room.Event BrokerCall)}
    (h : Accounts gameplay told moves) (hmoves : Moves gameplay gameplay' id e calls)
    (hhandled : Feeds (told ++ effects) (moves ++ [⟨id, e, calls⟩])) :
    Accounts gameplay' (told ++ effects) (moves ++ [⟨id, e, calls⟩]) where
  published := hhandled.published
  handled := hhandled
  rooms := hmoves.history h.rooms

/-- The effects of single steps leave the rooms accounted for. -/
theorem tells_accounts :
    Tells unguarded fun gameplay told => ∃ moves, Accounts gameplay told moves where
  connectivity _ h _ hstep := by
    obtain ⟨moves, h⟩ := h
    cases dispatchConnectivity_moves hstep with
    | idle message hseat hrooms => exact ⟨moves, h.idle hrooms (h.handled.connectivityHandled _)⟩
    | leaves p id calls hseat hmoves =>
      exact ⟨_, h.moves hmoves (h.handled.disconnected id p calls)⟩
  callback := by
    intro env gameplay told p m c rest gameplay' effects _ h _ _ hstep
    obtain ⟨moves, h⟩ := h
    have hidle : Accounts gameplay (told ++ []) moves :=
      h.idle rfl (by rw [List.append_nil]; exact h.handled)
    cases call_moves hstep with
    | idle c hsame =>
      subst hsame
      exact ⟨moves, hidle⟩
    | joins nickname difficulty id calls hm hfree hdifficulty hmoves =>
      subst hm
      exact ⟨_, h.moves hmoves (h.handled.applied id _ _ _ calls (.joins nickname difficulty))⟩
    | leaves id calls hm hseat hmoves =>
      subst hm
      exact ⟨_, h.moves hmoves (h.handled.applied id _ _ _ calls .leaves)⟩
    | handles id room now calls hroom hmoves =>
      by_cases hm : (∃ nickname difficulty, m = .joinGame nickname difficulty) ∨ room.seats p = 0
      · -- what the room ignores is no move
        have hignored : gameplay.call env p m (.room id) = .ok (gameplay, []) :=
          handleRoomMessage_of_ignored hroom hm
        obtain ⟨rfl, heffects⟩ := Prod.mk.inj (Except.ok.inj (hignored.symm.trans hstep))
        exact heffects ▸ ⟨moves, hidle⟩
      · rw [not_or, not_exists] at hm
        have happlies : room.applies p m = true := by
          refine Room.applies_of_seats (Nat.pos_of_ne_zero hm.2) fun nickname difficulty heq => ?_
          exact hm.1 nickname ⟨difficulty, heq⟩
        rw [if_pos happlies]
        exact ⟨_, h.moves hmoves (h.handled.applied id p m _ calls (.handles m now))⟩
  popped h := by
    obtain ⟨moves, h⟩ := h
    exact ⟨moves, h.idle rfl (h.handled.actionHandled _ _)⟩
  tick _ h hstep := by
    obtain ⟨moves, h⟩ := h
    rcases tickRoom_moves hstep with ⟨rfl, rfl⟩ | ⟨calls, hmoves, rfl⟩
    · exact ⟨moves, h.idle rfl (by rw [List.append_nil]; exact h.handled)⟩
    · exact ⟨_, h.moves hmoves (h.handled.ticked _ _ _ calls)⟩

theorem accounts_new : Accounts new [] [] where
  published := rfl
  handled := .start
  rooms _ := .unborn

/-- A run of gameplay is an interleaving of runs of single rooms.  What it publishes is what the
rooms publish, and what moves them is what it handled: an action a room took, a connection that
was closed, or the tick.  A room that is there is where its own run has led from a newly made
room, one that was destroyed had been emptied by its own run, and no other room has done
anything. -/
theorem rooms_of_run {events : List System.Event} {system : System}
    (hrun : run (System.step env) .new events = .ok (system, effects)) :
    ∃ moves, Accounts system.gameplay effects moves :=
  tells_accounts.run_unguarded ⟨[], accounts_new⟩ hrun

/-- Players 0 and 1 play together until one of them leaves, and player 2 plays alone. -/
def oneIsLeft : List System.Event :=
  [.publishPlayerConnectivityMessage ⟨.connect, 0⟩,
    .publishPlayerConnectivityMessage ⟨.connect, 1⟩,
    .publishPlayerConnectivityMessage ⟨.connect, 2⟩,
    .publishPlayerActionMessage 0 (.joinGame [] .easy),
    .publishPlayerActionMessage 1 (.joinGame [] .easy),
    .publishPlayerActionMessage 2 (.joinGame [] .hard), .dispatchMessages [],
    .publishPlayerActionMessage 1 .leaveGame, .dispatchMessages []]

theorem rooms_of_run_oneIsLeft :
    ∃ system effects, run (System.step stillEnvironment) .new oneIsLeft = .ok (system, effects) ∧
      ∃ moves, Accounts system.gameplay effects moves := by
  refine ⟨_, _, rfl, ?_⟩
  exact @rooms_of_run stillEnvironment _ oneIsLeft _ rfl

end Gameplay
end SamuraiKirby
