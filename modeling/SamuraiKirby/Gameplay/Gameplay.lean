/-
The gameplay thread: the callbacks the broker calls, the dispatch loop and the
tick of all rooms.

Publishing only ever pushes on the hub, which gameplay reads nowhere but at the
front of its inbound queues.  A callback therefore returns its effects, in
program order, and `MessageHub.replay` performs them.

Two things end a run: calling a room that has been destroyed, which is undefined
behaviour, and an exception that leaves the tick.  No callback throws, so the
`catch` in the dispatch loop has nothing to do.
-/
import SamuraiKirby.Gameplay.RoomManager
import SamuraiKirby.Messages.GameplayMessageBroker

namespace SamuraiKirby

/-- Who an entry of the broker belongs to.  Every subscription passes the subscriber itself as
the context, with a closure over the subscriber, so the two halves of an entry agree. -/
inductive Subscriber where
  | gameplay
  | room (id : RoomId)
deriving DecidableEq, Repr

inductive Fault where
  /-- A callback of a destroyed room was called. -/
  | useAfterFree (id : RoomId)
  | badOptionalAccess
deriving DecidableEq, Repr

inductive Effect where
  /-- The front connectivity message was handled and popped. -/
  | connectivityHandled (message : PlayerConnectivityMessage)
  /-- The front action of a player was passed to all its callbacks and popped. -/
  | actionHandled (playerId : PlayerId) (message : PlayerActionMessage)
  | published (playerId : PlayerId) (message : GameplayMessage)
  /-- A room took the action as one of its players'. -/
  | applied (id : RoomId) (playerId : PlayerId) (message : PlayerActionMessage)
deriving DecidableEq, Repr

/-- What gameplay reads from outside: the clock, reading after reading, and the random device,
room after room. -/
structure Environment where
  now : Nat → ChronoTimePoint
  draw : RoomId → Nat

namespace BrokerCall

def effect? : BrokerCall → Option Effect
  | .publishGameplayMessage playerId message => some (.published playerId message)
  | _ => none

/-- The publications among broker calls. -/
def effects (calls : List BrokerCall) : List Effect := calls.filterMap effect?

end BrokerCall

/-- The subscription calls of a room, made with the room as their context. -/
def GameplayMessageBroker.perform (broker : GameplayMessageBroker Subscriber)
    (context : Subscriber) : List BrokerCall → GameplayMessageBroker Subscriber
  | [] => broker
  | .publishGameplayMessage _ _ :: calls => broker.perform context calls
  | .subscribeToPlayerActionMessages playerId :: calls =>
    (broker.subscribeToPlayerActionMessages playerId context).perform context calls
  | .unsubscribeToPlayerActionMessages playerId :: calls =>
    (broker.unsubscribeToPlayerActionMessages playerId context).perform context calls

namespace Room

/-- The message makes the room read the clock. -/
def readsClock (room : Room) (playerId : PlayerId) : PlayerActionMessage → Bool
  | .playerInput _ _ => (room.getPlayerById playerId).isSome
  | _ => false

/-- The room takes the message as one of its players'. -/
def applies (room : Room) (playerId : PlayerId) : PlayerActionMessage → Bool
  | .joinGame _ _ => false
  | _ => (room.getPlayerById playerId).isSome

end Room

structure Gameplay where
  messageBroker : GameplayMessageBroker Subscriber
  roomManager : RoomManager
  /-- How many readings player inputs have taken from the clock. -/
  clockReads : Nat

namespace Gameplay

open Transition

def new : Gameplay where
  messageBroker := .empty
  roomManager := .empty
  clockReads := 0

/-- Keep the rooms a call has left and perform the broker calls of the room it went to. -/
def commit (gameplay : Gameplay) (manager : RoomManager) (id : RoomId)
    (calls : List BrokerCall) : Gameplay :=
  { gameplay with
    roomManager := manager
    messageBroker := gameplay.messageBroker.perform (.room id) calls }

/-- The gameplay left behind, the room that was left if there is one, and what was published. -/
def removePlayerFromRoom (gameplay : Gameplay) (playerId : PlayerId) :
    Gameplay × Option RoomId × List Effect :=
  match gameplay.roomManager.removePlayerFromRoom playerId with
  | none => (gameplay, none, [])
  | some (manager, id, calls) =>
    (gameplay.commit manager id calls, some id, BrokerCall.effects calls)

/-! ## Callbacks -/

/-- The callback of `Gameplay`, which is `RoomManager::handlePlayerMessage`. -/
def handlePlayerMessage (env : Environment) (gameplay : Gameplay) (playerId : PlayerId)
    (message : PlayerActionMessage) : Gameplay × List Effect :=
  match message with
  | .joinGame nickname gameDifficulty =>
    let (manager, id, calls) :=
      gameplay.roomManager.addPlayerToRoom env.draw playerId nickname gameDifficulty
    (gameplay.commit manager id calls, .applied id playerId message :: BrokerCall.effects calls)
  | .leaveGame =>
    let (gameplay', left, published) := gameplay.removePlayerFromRoom playerId
    (gameplay', left.toList.map (.applied · playerId message) ++ published)
  | _ => (gameplay, [])

/-- The callback of a room, which is `Room::handlePlayerMessage`. -/
def handleRoomMessage (env : Environment) (gameplay : Gameplay) (id : RoomId)
    (playerId : PlayerId) (message : PlayerActionMessage) :
    Except Fault (Gameplay × List Effect) :=
  match gameplay.roomManager.room? id with
  | none => .error (.useAfterFree id)
  | some room =>
    let (room', calls) := room.handlePlayerMessage playerId message (env.now gameplay.clockReads)
    let gameplay' := gameplay.commit (gameplay.roomManager.setRoom id room') id calls
    .ok ({ gameplay' with
        clockReads := gameplay.clockReads + if room.readsClock playerId message then 1 else 0 },
      (if room.applies playerId message then [.applied id playerId message] else []) ++
        BrokerCall.effects calls)

def call (env : Environment) (playerId : PlayerId) (message : PlayerActionMessage)
    (gameplay : Gameplay) : Subscriber → Except Fault (Gameplay × List Effect)
  | .gameplay => .ok (gameplay.handlePlayerMessage env playerId message)
  | .room id => gameplay.handleRoomMessage env id playerId message

def handlePlayerConnectivityMessage (gameplay : Gameplay) (message : PlayerConnectivityMessage) :
    Gameplay × List Effect :=
  match message.messageType with
  | .connect =>
    ({ gameplay with
      messageBroker := gameplay.messageBroker.subscribeToPlayerActionMessages
        message.playerId .gameplay }, [])
  | .disconnect =>
    let (gameplay', _, published) := gameplay.removePlayerFromRoom message.playerId
    ({ gameplay' with
      messageBroker := gameplay'.messageBroker.unsubscribeToPlayerActionMessages
        message.playerId .gameplay }, published)

/-! ## The dispatch loop -/

/-- One pass of the loop over connectivity messages. -/
def dispatchConnectivity (gameplay : Gameplay) (message : PlayerConnectivityMessage) :
    Except Fault (Gameplay × List Effect) :=
  let (gameplay', effects) := gameplay.handlePlayerConnectivityMessage message
  .ok (gameplay', effects ++ [.connectivityHandled message])

/-- One pass of the loop over the actions of a player: the front action goes to every callback
of the copy `callbacksWithContext` and is popped. -/
def dispatchAction (env : Environment) (playerId : PlayerId)
    (callbacksWithContext : List Subscriber) (gameplay : Gameplay)
    (message : PlayerActionMessage) : Except Fault (Gameplay × List Effect) :=
  seq (run (call env playerId message) gameplay callbacksWithContext) fun gameplay' =>
    .ok (gameplay', [.actionHandled playerId message])

/-- One pass of the loop over the map of callbacks.  Nothing is pushed on the queue while it is
drained, so the inner loop passes the actions queued when it starts. -/
def dispatchPlayer (env : Environment) (hub : MessageHub) (gameplay : Gameplay)
    (playerId : PlayerId) : Except Fault (Gameplay × List Effect) :=
  let callbacksWithContext := gameplay.messageBroker.callbacksWithContext playerId
  run (dispatchAction env playerId callbacksWithContext) gameplay
    (hub.playerActionMessagesByPlayerId playerId)

/-- `GameplayMessageBroker::dispatchMessages`.  `preference` settles the order in which the map
is visited. -/
def dispatchMessages (env : Environment) (hub : MessageHub) (preference : List PlayerId)
    (gameplay : Gameplay) : Except Fault (Gameplay × List Effect) :=
  seq (run dispatchConnectivity gameplay hub.playerConnectivityMessages) fun gameplay' =>
    run (dispatchPlayer env hub) gameplay' (gameplay'.messageBroker.visitOrder preference)

/-! ## The tick of all rooms -/

def tickRoom (readings : RoomId → Readings) (draws : RoomId → Nat) (gameplay : Gameplay)
    (id : RoomId) : Except Fault (Gameplay × List Effect) :=
  match gameplay.roomManager.room? id with
  | none => .ok (gameplay, [])
  | some room =>
    match room.tick (readings id) (draws id) with
    | .error _ => .error .badOptionalAccess
    | .ok (room', calls) =>
      .ok (gameplay.commit (gameplay.roomManager.setRoom id room') id calls,
        BrokerCall.effects calls)

def tickAllRooms (readings : RoomId → Readings) (draws : RoomId → Nat) (gameplay : Gameplay) :
    Except Fault (Gameplay × List Effect) :=
  run (tickRoom readings draws) gameplay (gameplay.roomManager.rooms.map Prod.fst)

end Gameplay

/-! ## Gameplay and its hub -/

namespace MessageHub

/-- What an effect does to the hub. -/
def perform (hub : MessageHub) : Effect → MessageHub
  | .connectivityHandled _ => hub.popConnectivity
  | .actionHandled playerId _ => hub.popAction playerId
  | .published playerId message => hub.pushGameplay playerId message
  | .applied _ _ _ => hub

def replay (hub : MessageHub) (effects : List Effect) : MessageHub := effects.foldl perform hub

end MessageHub

/-- The gameplay thread and the hub it shares with the network thread. -/
structure System where
  messageHub : MessageHub
  gameplay : Gameplay

namespace System

def new : System where
  messageHub := .empty
  gameplay := .new

/-- The network publishes a message, or gameplay makes one of the two calls of its loop. -/
inductive Event where
  | publishPlayerConnectivityMessage (message : PlayerConnectivityMessage)
  | publishPlayerActionMessage (playerId : PlayerId) (message : PlayerActionMessage)
  | dispatchMessages (preference : List PlayerId)
  | tickAllRooms (readings : RoomId → Readings) (draws : RoomId → Nat)

/-- A call of the loop, whose effects reach the hub. -/
def perform (system : System) (outcome : Except Fault (Gameplay × List Effect)) :
    Except Fault (System × List Effect) :=
  match outcome with
  | .error fault => .error fault
  | .ok (gameplay, effects) =>
    .ok ({ messageHub := system.messageHub.replay effects, gameplay := gameplay }, effects)

def step (env : Environment) (system : System) : Event → Except Fault (System × List Effect)
  | .publishPlayerConnectivityMessage message =>
    .ok ({ system with messageHub := system.messageHub.pushConnectivity message }, [])
  | .publishPlayerActionMessage playerId message =>
    .ok ({ system with messageHub := system.messageHub.pushAction playerId message }, [])
  | .dispatchMessages preference =>
    system.perform (system.gameplay.dispatchMessages env system.messageHub preference)
  | .tickAllRooms readings draws =>
    system.perform (system.gameplay.tickAllRooms readings draws)

end System

end SamuraiKirby
