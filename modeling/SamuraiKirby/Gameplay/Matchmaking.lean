/-
Matchmaking: where `RoomManager::addPlayerToRoom` seats a player.

A room with a free slot waits for players, so nobody joins in the middle of a
round.  This holds between the loops of a dispatch as well as within them:
`Reachable` is closed under every single callback, connectivity message and
room tick.
-/
import SamuraiKirby.Gameplay.Lifetime
import SamuraiKirby.Room.Happening

namespace SamuraiKirby
namespace Gameplay

open Transition

/-! ## Reachable states -/

/-- The states gameplay goes through: one connectivity message, one callback of a player or one
room tick at a time. -/
inductive Reachable : Gameplay → Prop where
  | new : Reachable .new
  | dispatchConnectivity {gameplay gameplay' : Gameplay} {message : PlayerConnectivityMessage}
      {effects : List Effect} (h : Reachable gameplay)
      (hstep : gameplay.dispatchConnectivity message = .ok (gameplay', effects)) :
      Reachable gameplay'
  | call {gameplay gameplay' : Gameplay} {env : Environment} {playerId : PlayerId}
      {message : PlayerActionMessage} {subscriber : Subscriber} {effects : List Effect}
      (h : Reachable gameplay)
      (hstep : gameplay.call env playerId message subscriber = .ok (gameplay', effects)) :
      Reachable gameplay'
  | tickRoom {gameplay gameplay' : Gameplay} {readings : RoomId → Readings} {draws : RoomId → Nat}
      {id : RoomId} {effects : List Effect} (h : Reachable gameplay)
      (hstep : gameplay.tickRoom readings draws id = .ok (gameplay', effects)) :
      Reachable gameplay'

variable {gameplay gameplay' : Gameplay} {env : Environment} {effects : List Effect}

theorem Reachable.roomsWellFormed (h : Reachable gameplay) : gameplay.RoomsWellFormed := by
  induction h with
  | new => exact inv_new.wellFormed
  | dispatchConnectivity _ hstep ih =>
    cases dispatchConnectivity_cases ih hstep with
    | connected p gameplay' hc => exact hc.wellFormed ih
    | absent p gameplay' hseat hu => exact hu.wellFormed ih
    | left p id room calls gameplay' hfirst hl => exact hl.wellFormed ih
  | call _ hstep ih =>
    cases call_cases ih hstep with
    | ignored => exact ih
    | joined nickname difficulty id calls gameplay' hm hj => exact hj.wellFormed ih
    | left id room calls gameplay' hm hfirst hl => exact hl.wellFormed ih
    | leftRoom id calls gameplay' hm hl => exact hl.wellFormed ih
    | handled id calls gameplay' hjoin hleave hlive hseat hu => exact hu.wellFormed ih
  | @tickRoom gameplay gameplay' readings draws id effects _ hstep ih =>
    obtain ⟨gameplay₁, effects₁, hok, hu, -⟩ := tickRoom_unmoved readings draws ih id
    rw [hstep] at hok
    cases hok
    exact hu.wellFormed ih

/-- One pass of the dispatch loop over a player goes through reachable states. -/
theorem Reachable.dispatchPlayer {hub : MessageHub} {playerId : PlayerId}
    (h : Reachable gameplay)
    (hrun : gameplay.dispatchPlayer env hub playerId = .ok (gameplay', effects)) :
    Reachable gameplay' := by
  refine run_invariant (fun g message g' os hg hact => ?_) h hrun
  obtain ⟨g₁, os₁, os₂, hcalls, hpop, -⟩ := seq_eq_ok.1 hact
  cases hpop
  exact run_invariant (fun _ _ _ _ hg hcall => hg.call hcall) hg hcalls

theorem Reachable.perform {system system' : System}
    {outcome : Except Fault (Gameplay × List Effect)}
    (hstep : system.perform outcome = .ok (system', effects)) :
    ∃ gameplay' effects', outcome = .ok (gameplay', effects') ∧ system'.gameplay = gameplay' := by
  unfold System.perform at hstep
  cases outcome with
  | error fault => cases hstep
  | ok r =>
    cases hstep
    exact ⟨_, _, rfl, rfl⟩

/-- The states that runs of the system reach are reachable. -/
theorem Reachable.of_run {events : List System.Event} {system : System}
    (hrun : run (System.step env) .new events = .ok (system, effects)) :
    Reachable system.gameplay := by
  refine run_invariant (P := fun system : System => Reachable system.gameplay)
    (fun s e s' os hs hstep => ?_) Reachable.new hrun
  cases e with
  | publishPlayerConnectivityMessage message =>
    cases hstep
    exact hs
  | publishPlayerActionMessage playerId message =>
    cases hstep
    exact hs
  | dispatchMessages preference =>
    obtain ⟨g, os', hok, hg⟩ := Reachable.perform hstep
    obtain ⟨g₁, os₁, os₂, hconnectivity, hplayers, -⟩ := seq_eq_ok.1 hok
    have hg₁ : Reachable g₁ :=
      run_invariant (fun _ _ _ _ hg hmessage => hg.dispatchConnectivity hmessage) hs hconnectivity
    rw [hg]
    exact run_invariant (fun _ _ _ _ hg hplayer => hg.dispatchPlayer hplayer) hg₁ hplayers
  | tickAllRooms readings draws =>
    obtain ⟨g, os', hok, hg⟩ := Reachable.perform hstep
    rw [hg]
    exact run_invariant (fun _ _ _ _ hg htick => hg.tickRoom htick) hs hok

end Gameplay

/-! ## Seats -/

namespace RoomManager

/-- The player takes the free slot `slot` of `room`, which has the difficulty and waits for
players, and whoever is in the room is told. -/
structure SeatsPlayer (manager : RoomManager) (playerId : PlayerId) (nickname : Bytes)
    (difficulty : GameDifficulty) (outcome : RoomManager × RoomId × List BrokerCall)
    (room : Room) (slot : PlayerAssignment) : Prop where
  /-- The room was there before, or it is a new one. -/
  chosen : manager.room? outcome.2.1 = some room ∨
    manager.room? outcome.2.1 = none ∧ ∃ draw, room = .new (.ofDifficulty difficulty draw)
  difficulty : room.config.difficulty = difficulty
  waiting : room.gameplayState = .waitingPlayers
  free : room.players.get slot = none
  rooms : ∀ id, outcome.1.room? id =
    if id = outcome.2.1 then some (room.occupy slot playerId nickname) else manager.room? id
  calls : outcome.2.2 =
    .publishGameplayMessage playerId
        (.roomJoined slot ((room.players.get slot.other).map Player.buildLobbyDTO)) ::
      ((room.players.get slot.other).toList.map fun other =>
        .publishGameplayMessage other.id (.playerJoinedRoom ⟨nickname, slot, false⟩)) ++
      [.subscribeToPlayerActionMessages playerId]

/-- A room with a free slot seats who joins. -/
theorem addPlayer_seats {room : Room} (h : room.WellFormed) (hfull : room.isFull = false)
    (playerId : PlayerId) (nickname : Bytes) :
    ∃ slot, room.gameplayState = .waitingPlayers ∧ room.players.get slot = none ∧
      room.addPlayer playerId nickname = (room.occupy slot playerId nickname,
        .publishGameplayMessage playerId
            (.roomJoined slot ((room.players.get slot.other).map Player.buildLobbyDTO)) ::
          ((room.players.get slot.other).toList.map fun other =>
            .publishGameplayMessage other.id (.playerJoinedRoom ⟨nickname, slot, false⟩)) ++
          [.subscribeToPlayerActionMessages playerId]) := by
  obtain ⟨slot, hslot⟩ := Room.getAvailableAssignment_of_not_isFull hfull
  have hfree := Room.getAvailableAssignment_eq_some hslot
  refine ⟨slot, Room.waitingPlayers_of_free h hfree, hfree, ?_⟩
  rw [Room.addPlayer, hslot]
  rfl

/-- In every reachable state matchmaking seats the player, and only in a room that waits for
players. -/
theorem addPlayerToRoom_seats {gameplay : Gameplay} (h : gameplay.Reachable)
    (draw : RoomId → Nat) (playerId : PlayerId) (nickname : Bytes) (difficulty : GameDifficulty) :
    ∃ room slot, gameplay.roomManager.SeatsPlayer playerId nickname difficulty
      (gameplay.roomManager.addPlayerToRoom draw playerId nickname difficulty) room slot := by
  unfold addPlayerToRoom
  cases hfind : gameplay.roomManager.rooms.find? fun r =>
      r.2.isFull = false ∧ r.2.config.difficulty = difficulty with
  | none =>
    let room := Room.new (.ofDifficulty difficulty (draw gameplay.roomManager.nextRoom))
    obtain ⟨slot, hwaiting, hfree, hadd⟩ :=
      addPlayer_seats (Room.wellFormed_new room.config) rfl playerId nickname
    refine ⟨room, slot, Or.inr ⟨room?_nextRoom _, _, rfl⟩, rfl, hwaiting, hfree, fun id => ?_, ?_⟩
    · have hroom' : (room.addPlayer playerId nickname).1 = room.occupy slot playerId nickname :=
        congrArg Prod.fst hadd
      rw [← hroom']
      exact room?_pushRoom _ _ id
    · exact congrArg Prod.snd hadd
  | some r =>
    obtain ⟨id, room⟩ := r
    have htest : room.isFull = false ∧ room.config.difficulty = difficulty := by
      simpa using List.find?_some hfind
    have hroom : gameplay.roomManager.room? id = some room :=
      room?_eq_some_iff.2 (List.mem_of_find?_eq_some hfind)
    obtain ⟨slot, hwaiting, hfree, hadd⟩ :=
      addPlayer_seats (h.roomsWellFormed id room hroom) htest.1 playerId nickname
    refine ⟨room, slot, Or.inl hroom, htest.2, hwaiting, hfree, fun id' => ?_, ?_⟩
    · have hroom' : (room.addPlayer playerId nickname).1 = room.occupy slot playerId nickname :=
        congrArg Prod.fst hadd
      rw [← hroom']
      exact room?_setRoom hroom _ id'
    · exact congrArg Prod.snd hadd

/-- Player 0 waits in an easy room when player 1 asks for one. -/
theorem addPlayerToRoom_seats_waiting :
    ∃ gameplay effects, Gameplay.new.call Gameplay.stillEnvironment 0 (.joinGame [] .easy)
        .gameplay = .ok (gameplay, effects) ∧
      ∃ room slot, gameplay.roomManager.SeatsPlayer 1 [] .easy
        (gameplay.roomManager.addPlayerToRoom (fun _ => 0) 1 [] .easy) room slot :=
  have hjoined : ∃ gameplay effects, Gameplay.new.call Gameplay.stillEnvironment 0
      (.joinGame [] .easy) .gameplay = .ok (gameplay, effects) := ⟨_, _, rfl⟩
  let ⟨gameplay, effects, hcall⟩ := hjoined
  ⟨gameplay, effects, hcall, addPlayerToRoom_seats (.call .new hcall) (fun _ => 0) 1 [] .easy⟩

end RoomManager

end SamuraiKirby
