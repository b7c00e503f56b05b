/-
The tick of a room.

`Room::tick` dispatches on the phase to a sequence of handlers.  The handlers
read optionals with `.value()`, which throws `std::bad_optional_access` on an
empty one, so they return in `Except`.  The exception leaves `tick` and nothing
above it catches it.

Every call to `getTimeNow` sits at one place of the source and a tick reaches
each place at most once.  `Readings` names the readings after those places, and
nothing relates the readings to each other.
-/
import SamuraiKirby.Room.Room
import SamuraiKirby.Transition.Run

namespace SamuraiKirby

/-- `std::bad_optional_access` -/
inductive BadOptionalAccess where
  | badOptionalAccess
deriving DecidableEq, Repr

/-- `std::optional::value` -/
def value {α : Type} : Option α → Except BadOptionalAccess α
  | some a => .ok a
  | none => .error .badOptionalAccess

@[simp] theorem value_some {α : Type} (a : α) : value (some a) = .ok a := rfl

@[simp] theorem value_none {α : Type} :
    value (none : Option α) = .error .badOptionalAccess := rfl

@[simp] theorem ok_bind {ε α β : Type} (a : α) (f : α → Except ε β) :
    (Except.ok a >>= f) = f a := rfl

@[simp] theorem error_bind {ε α β : Type} (e : ε) (f : α → Except ε β) :
    (Except.error e >>= f) = .error e := rfl

@[simp] theorem pure_eq_ok {ε α : Type} (a : α) : (pure a : Except ε α) = .ok a := rfl

/-- The clock readings of one tick, in program order. -/
structure Readings where
  /-- stored in `everyoneCanPlayAt` -/
  everyoneCanPlay : ChronoTimePoint
  /-- compared with `everyoneCanPlayAt` -/
  beforeInputRequest : ChronoTimePoint
  /-- stored in `readyForInputAt` -/
  readyForInput : ChronoTimePoint
  /-- compared with `inputPressedAtServerTime` -/
  onePlayerPlayed : ChronoTimePoint
  /-- compared with `readyForInputAt` -/
  timeout : ChronoTimePoint
deriving DecidableEq, Repr

/-- All readings of a tick are equal. -/
def Readings.const (now : ChronoTimePoint) : Readings := ⟨now, now, now, now, now⟩

namespace Room

/-- `draw` is what the random device supplies. -/
def getRandomGameplayInput (room : Room) (draw : Nat) : GameplayInput :=
  let inputs : Vector GameplayInput 4 := #v[.south, .east, .west, .north]
  match room.config.difficulty with
  | .medium =>
    let i := getRandomValueInRange draw 0 1 (by decide)
    inputs.get ⟨i.1, by have := i.2; omega⟩
  | .hard =>
    let i := getRandomValueInRange draw 0 3 (by decide)
    inputs.get ⟨i.1, by have := i.2; omega⟩
  | _ => inputs.get ⟨0, by decide⟩

def buildGameResultDTO (room : Room) (winningPlayer : Option PlayerAssignment) :
    Except BadOptionalAccess GameResultDTO := do
  let p1 ← value room.players.P1
  let p2 ← value room.players.P2
  return ⟨winningPlayer, p1.buildGameoverDTO, p2.buildGameoverDTO⟩

def handleEveryoneReady (room : Room) : Except BadOptionalAccess (Room × List BrokerCall) := do
  if room.gameplayState ≠ .waitingPlayers ∨ !room.isEveryoneReady then
    return (room, [])
  let room' := { room with gameplayState := .started }
  return (room', room'.broadcastGameplayMessage .allReadyGameStarting)

def handleEveryoneCanPlay (room : Room) (clock : Readings) (draw : Nat) :
    Except BadOptionalAccess (Room × List BrokerCall) := do
  if room.gameplayState ≠ .started ∨ !room.everyoneCanPlay then
    return (room, [])
  let room :=
    if room.everyoneCanPlayAt.isNone then
      { room with everyoneCanPlayAt := some clock.everyoneCanPlay }
    else room
  let reference ← value room.everyoneCanPlayAt
  if getSecondsSince clock.beforeInputRequest reference ≥ room.config.secondsBeforeInputRequest then
    let room' :=
      { room with
        gameplayState := .expectingInput
        readyForInputAt := some clock.readyForInput
        expectedInput := room.getRandomGameplayInput draw }
    return (room', room'.broadcastGameplayMessage (.gameExpectingInput room'.expectedInput))
  return (room, [])

def handleOnePlayerPlayed (room : Room) (clock : Readings) :
    Except BadOptionalAccess (Room × List BrokerCall) := do
  if room.gameplayState ≠ .started ∧ room.gameplayState ≠ .expectingInput then
    return (room, [])
  if room.everyonePlayed || room.noOnePlayed then
    return (room, [])
  let p1 ← value room.players.P1
  let whoPlayed := if p1.inputPressed.isSome then PlayerAssignment.P1 else .P2
  let whoDidNotPlay := whoPlayed.other
  -- player pressed too early - failed
  if room.gameplayState ≠ .expectingInput then
    let room' := { room with gameplayState := .over }
    let result ← room'.buildGameResultDTO (some whoDidNotPlay)
    return (room', room'.broadcastGameplayMessage (.gameOverEarlyInput result))
  let player ← value (room.players.get whoPlayed)
  let inputPressed ← value player.inputPressed
  -- pressed the wrong button
  if inputPressed ≠ room.expectedInput then
    let room' := { room with gameplayState := .over }
    let result ← room'.buildGameResultDTO (some whoDidNotPlay)
    return (room', room'.broadcastGameplayMessage (.gameOverWrongInput result))
  -- timeout
  let pressedAt ← value player.inputPressedAtServerTime
  if getSecondsSince clock.onePlayerPlayed pressedAt ≥ room.config.onePlayerInputOnlyTimeout then
    let room' := { room with gameplayState := .over }
    let result ← room'.buildGameResultDTO (some whoPlayed)
    return (room', room'.broadcastGameplayMessage (.gameOverWin result))
  return (room, [])

def handleEveryonePlayed (room : Room) : Except BadOptionalAccess (Room × List BrokerCall) := do
  if room.gameplayState ≠ .expectingInput then
    return (room, [])
  if !room.everyonePlayed then
    return (room, [])
  let room' := { room with gameplayState := .over }
  let p1 ← value room'.players.P1
  let p1PressedAt ← value p1.inputPressedAtServerTime
  let p2 ← value room'.players.P2
  let p2PressedAt ← value p2.inputPressedAtServerTime
  if p1PressedAt < p2PressedAt then
    let result ← room'.buildGameResultDTO (some .P1)
    return (room', room'.broadcastGameplayMessage (.gameOverWin result))
  else if p2PressedAt < p1PressedAt then
    let result ← room'.buildGameResultDTO (some .P2)
    return (room', room'.broadcastGameplayMessage (.gameOverWin result))
  else
    let result ← room'.buildGameResultDTO none
    return (room', room'.broadcastGameplayMessage (.gameOverDraw result))

def handleTimeout (room : Room) (clock : Readings) :
    Except BadOptionalAccess (Room × List BrokerCall) := do
  if room.gameplayState ≠ .expectingInput then
    return (room, [])
  if !room.noOnePlayed then
    return (room, [])
  let reference ← value room.readyForInputAt
  if getSecondsSince clock.timeout reference ≥ room.config.noInputTimeout then
    let result ← room.buildGameResultDTO none
    return ({ room with gameplayState := .over },
      room.broadcastGameplayMessage (.gameOverDraw result))
  return (room, [])

def handleReplay (room : Room) : Except BadOptionalAccess (Room × List BrokerCall) := do
  if room.gameplayState ≠ .over ∨ !room.everyoneWantsToReplay then
    return (room, [])
  let p1 ← value room.players.P1
  let p2 ← value room.players.P2
  let room' : Room :=
    { room with
      players := ⟨some p1.resetToReplay, some p2.resetToReplay⟩
      expectedInput := .north
      everyoneCanPlayAt := none
      readyForInputAt := none }
  return ({ room' with gameplayState := .started },
    room'.broadcastGameplayMessage .allReplayReadyGameStarting)

/-- The handlers a tick can call. -/
inductive Handler where
  | handleEveryoneReady
  | handleEveryoneCanPlay
  | handleOnePlayerPlayed
  | handleEveryonePlayed
  | handleTimeout
  | handleReplay
deriving DecidableEq, Repr

def Handler.call (clock : Readings) (draw : Nat) (room : Room) :
    Handler → Except BadOptionalAccess (Room × List BrokerCall)
  | .handleEveryoneReady => room.handleEveryoneReady
  | .handleEveryoneCanPlay => room.handleEveryoneCanPlay clock draw
  | .handleOnePlayerPlayed => room.handleOnePlayerPlayed clock
  | .handleEveryonePlayed => room.handleEveryonePlayed
  | .handleTimeout => room.handleTimeout clock
  | .handleReplay => room.handleReplay

/-- The handlers called in a phase, in order. -/
def tickHandlers : GameplayState → List Handler
  | .waitingPlayers => [.handleEveryoneReady]
  | .started => [.handleEveryoneCanPlay, .handleOnePlayerPlayed]
  | .expectingInput => [.handleOnePlayerPlayed, .handleEveryonePlayed, .handleTimeout]
  | .over => [.handleReplay]

/-- Each handler runs in the room the one before it leaves. -/
def tick (room : Room) (clock : Readings) (draw : Nat) :
    Except BadOptionalAccess (Room × List BrokerCall) :=
  Transition.run (Handler.call clock draw) room (tickHandlers room.gameplayState)

/-! ## Rooms as a machine -/

/-- What happens to a room: a call from the room manager, a message from the broker or a tick. -/
inductive Event where
  | addPlayer (id : PlayerId) (nickname : Bytes)
  | removePlayer (id : PlayerId)
  | handlePlayerMessage (playerId : PlayerId) (message : PlayerActionMessage)
      (now : ChronoTimePoint)
  | tick (clock : Readings) (draw : Nat)
deriving DecidableEq, Repr

def step (room : Room) : Event → Except BadOptionalAccess (Room × List BrokerCall)
  | .addPlayer id nickname => .ok (room.addPlayer id nickname)
  | .removePlayer id => .ok (room.removePlayer id)
  | .handlePlayerMessage playerId message now =>
    .ok (room.handlePlayerMessage playerId message now)
  | .tick clock draw => room.tick clock draw

end Room

end SamuraiKirby
