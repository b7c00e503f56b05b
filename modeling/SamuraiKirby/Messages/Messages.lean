/-
The messages the two threads exchange, and the hub that queues them.

A message class is one constructor, so the dynamic class of a message and its
`messageType` cannot disagree.  `MessageHub` keeps one queue for each player in
each direction, and one queue of connectivity messages.
-/
import SamuraiKirby.Player.Player

namespace SamuraiKirby

structure GameResultDTO where
  winningPlayer : Option PlayerAssignment
  player1 : PlayerGameResultDTO
  player2 : PlayerGameResultDTO
deriving DecidableEq, Repr

/-- What gameplay tells a client. -/
inductive GameplayMessage where
  | roomJoined (playerAssignment : PlayerAssignment) (otherPlayer : Option PlayerLobbyDTO)
  | playerJoinedRoom (player : PlayerLobbyDTO)
  | playerLeftRoom (playerAssignment : PlayerAssignment)
  | playerReadyStateChanged (playerAssignment : PlayerAssignment) (isReady : Bool)
  | allReadyGameStarting
  | gameExpectingInput (expectedInput : GameplayInput)
  | gameOverEarlyInput (gameResult : GameResultDTO)
  | gameOverWrongInput (gameResult : GameResultDTO)
  | gameOverWin (gameResult : GameResultDTO)
  | gameOverDraw (gameResult : GameResultDTO)
  | playerReplayReadyStateChanged (playerAssignment : PlayerAssignment) (isReadyToReplay : Bool)
  | allReplayReadyGameStarting
deriving DecidableEq, Repr

/-- The nicknames a message carries. -/
def GameplayMessage.nicknames : GameplayMessage → List Bytes
  | .roomJoined _ otherPlayer => otherPlayer.toList.map PlayerLobbyDTO.nickname
  | .playerJoinedRoom player => [player.nickname]
  | _ => []

/-- What a client asks of gameplay. -/
inductive PlayerActionMessage where
  | joinGame (nickname : Bytes) (gameDifficulty : GameDifficulty)
  | setReadyState (isReady : Bool)
  | notifyCanPlay
  | playerInput (inputPressed : GameplayInput) (timeToPress : Int)
  | setReplayReadyState (isReadyToReplay : Bool)
  | leaveGame
deriving DecidableEq, Repr

def PlayerActionMessage.nickname? : PlayerActionMessage → Option Bytes
  | .joinGame nickname _ => some nickname
  | _ => none

def PlayerActionMessage.isJoinGame : PlayerActionMessage → Bool
  | .joinGame _ _ => true
  | _ => false

inductive PlayerConnectivityMessageType where
  | connect
  | disconnect
deriving DecidableEq, Repr

structure PlayerConnectivityMessage where
  messageType : PlayerConnectivityMessageType
  playerId : PlayerId
deriving DecidableEq, Repr

/-! ## The hub -/

/-- Pushing on one queue of a map of queues. -/
theorem update_push {α : Type} (queues : PlayerId → List α) (p q : PlayerId) (a : α) :
    Function.update queues p (queues p ++ [a]) q = queues q ++ if q = p then [a] else [] := by
  rw [Function.update_apply]
  by_cases h : q = p
  · rw [if_pos h, if_pos h, h]
  · rw [if_neg h, if_neg h, List.append_nil]

/-- The queues between the network thread and the gameplay thread, each with its front first.
`operator[]` on a missing key yields an empty queue, so the maps are total functions. -/
structure MessageHub where
  playerActionMessagesByPlayerId : PlayerId → List PlayerActionMessage
  gameplayMessagesByPlayerId : PlayerId → List GameplayMessage
  playerConnectivityMessages : List PlayerConnectivityMessage

namespace MessageHub

def empty : MessageHub where
  playerActionMessagesByPlayerId := fun _ => []
  gameplayMessagesByPlayerId := fun _ => []
  playerConnectivityMessages := []

/-- `playerActionMessagesByPlayerId[playerId].push(message)` -/
def pushAction (hub : MessageHub) (playerId : PlayerId) (message : PlayerActionMessage) :
    MessageHub :=
  { hub with
    playerActionMessagesByPlayerId := Function.update hub.playerActionMessagesByPlayerId playerId
      (hub.playerActionMessagesByPlayerId playerId ++ [message]) }

/-- `playerActionMessagesByPlayerId[playerId].pop()` -/
def popAction (hub : MessageHub) (playerId : PlayerId) : MessageHub :=
  { hub with
    playerActionMessagesByPlayerId := Function.update hub.playerActionMessagesByPlayerId playerId
      (hub.playerActionMessagesByPlayerId playerId).tail }

/-- `gameplayMessagesByPlayerId[playerId].push(message)` -/
def pushGameplay (hub : MessageHub) (playerId : PlayerId) (message : GameplayMessage) :
    MessageHub :=
  { hub with
    gameplayMessagesByPlayerId := Function.update hub.gameplayMessagesByPlayerId playerId
      (hub.gameplayMessagesByPlayerId playerId ++ [message]) }

/-- `playerConnectivityMessages.push(message)` -/
def pushConnectivity (hub : MessageHub) (message : PlayerConnectivityMessage) : MessageHub :=
  { hub with playerConnectivityMessages := hub.playerConnectivityMessages ++ [message] }

/-- `playerConnectivityMessages.pop()` -/
def popConnectivity (hub : MessageHub) : MessageHub :=
  { hub with playerConnectivityMessages := hub.playerConnectivityMessages.tail }

theorem playerActionMessages_pushAction (hub : MessageHub) (p q : PlayerId)
    (message : PlayerActionMessage) :
    (hub.pushAction p message).playerActionMessagesByPlayerId q =
      hub.playerActionMessagesByPlayerId q ++ if p = q then [message] else [] := by
  simp only [@eq_comm _ p]
  exact update_push ..

theorem playerActionMessages_popAction (hub : MessageHub) (p q : PlayerId) :
    (hub.popAction p).playerActionMessagesByPlayerId q =
      if q = p then (hub.playerActionMessagesByPlayerId p).tail
      else hub.playerActionMessagesByPlayerId q :=
  Function.update_apply ..

theorem gameplayMessages_pushGameplay (hub : MessageHub) (p q : PlayerId)
    (message : GameplayMessage) :
    (hub.pushGameplay p message).gameplayMessagesByPlayerId q =
      hub.gameplayMessagesByPlayerId q ++ if p = q then [message] else [] := by
  simp only [@eq_comm _ p]
  exact update_push ..

end MessageHub

end SamuraiKirby
