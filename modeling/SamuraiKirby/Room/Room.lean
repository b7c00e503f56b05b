/-
A room: its two slots, its phase, and the handlers that players drive.

A room talks to the outside through the message broker and never reads anything
back from it.  A handler therefore returns the room it leaves behind together
with the broker calls it makes, in program order.

`getPlayerById` returns a pointer into `players`.  The model keeps which slot
the pointer refers to together with the player found there.
-/
import SamuraiKirby.Messages.Messages

namespace SamuraiKirby

inductive GameplayState where
  | waitingPlayers
  | started
  | expectingInput
  | over
deriving DecidableEq, Repr

/-! ## The two slots -/

/-- `std::array<std::optional<Player>, 2>` indexed by `PlayerAssignment`. -/
structure Players where
  P1 : Option Player
  P2 : Option Player
deriving DecidableEq, Repr

namespace Players

def get (ps : Players) : PlayerAssignment → Option Player
  | .P1 => ps.P1
  | .P2 => ps.P2

def set (ps : Players) (a : PlayerAssignment) (p : Option Player) : Players :=
  match a with
  | .P1 => { ps with P1 := p }
  | .P2 => { ps with P2 := p }

/-- Change the player in a slot through a pointer to it. -/
def modify (ps : Players) (a : PlayerAssignment) (f : Player → Player) : Players :=
  ps.set a ((ps.get a).map f)

/-- Change the player of every occupied slot. -/
def map (ps : Players) (f : Player → Player) : Players :=
  ⟨ps.P1.map f, ps.P2.map f⟩

@[simp] theorem get_set_self (ps : Players) (a : PlayerAssignment) (p : Option Player) :
    (ps.set a p).get a = p := by
  cases a <;> rfl

theorem get_set_of_ne (ps : Players) {a b : PlayerAssignment} (h : b ≠ a) (p : Option Player) :
    (ps.set a p).get b = ps.get b := by
  cases a <;> cases b <;> first | rfl | exact absurd rfl h

@[simp] theorem get_map (ps : Players) (f : Player → Player) (a : PlayerAssignment) :
    (ps.map f).get a = (ps.get a).map f := by
  cases a <;> rfl

@[simp] theorem get_modify_self (ps : Players) (a : PlayerAssignment) (f : Player → Player) :
    (ps.modify a f).get a = (ps.get a).map f := get_set_self _ _ _

theorem get_modify_of_ne (ps : Players) {a b : PlayerAssignment} (h : b ≠ a)
    (f : Player → Player) : (ps.modify a f).get b = ps.get b := get_set_of_ne _ h _

end Players

/-! ## Configuration and random draws -/

/-- `getRandomValueInRange`.  `draw` stands for what the random device supplies, and every
value of the range is returned for some `draw`. -/
def getRandomValueInRange (draw minInclusive maxInclusive : Nat)
    (h : minInclusive ≤ maxInclusive) :
    { n : Nat // minInclusive ≤ n ∧ n ≤ maxInclusive } :=
  ⟨minInclusive + draw % (maxInclusive - minInclusive + 1), by
    have := Nat.mod_lt draw (show 0 < maxInclusive - minInclusive + 1 by omega)
    omega⟩

theorem getRandomValueInRange_surjective {lo hi n : Nat} (h : lo ≤ hi) (hn : lo ≤ n ∧ n ≤ hi) :
    ∃ draw, (getRandomValueInRange draw lo hi h).1 = n := by
  refine ⟨n - lo, ?_⟩
  have hmod : (n - lo) % (hi - lo + 1) = n - lo := Nat.mod_eq_of_lt (by omega)
  simp only [getRandomValueInRange, hmod]
  omega

structure RoomConfig where
  difficulty : GameDifficulty
  secondsBeforeInputRequest : Int
  noInputTimeout : Int := 5
  onePlayerInputOnlyTimeout : Int := 1
deriving DecidableEq, Repr

/-- `RoomConfig{difficulty}`, whose delay before the input request is drawn. -/
def RoomConfig.ofDifficulty (difficulty : GameDifficulty) (draw : Nat) : RoomConfig where
  difficulty := difficulty
  secondsBeforeInputRequest := (getRandomValueInRange draw 5 10 (by decide)).1

/-! ## Rooms -/

structure Room where
  config : RoomConfig
  gameplayState : GameplayState := .waitingPlayers
  players : Players := ⟨none, none⟩
  expectedInput : GameplayInput := .north
  everyoneCanPlayAt : Option ChronoTimePoint := none
  readyForInputAt : Option ChronoTimePoint := none
deriving DecidableEq, Repr

/-- A call a room makes on its message broker.  Subscriptions pass the room itself as the
context. -/
inductive BrokerCall where
  | publishGameplayMessage (playerId : PlayerId) (message : GameplayMessage)
  | subscribeToPlayerActionMessages (playerId : PlayerId)
  | unsubscribeToPlayerActionMessages (playerId : PlayerId)
deriving DecidableEq, Repr

namespace Room

/-- `Room{messageBroker, config}` -/
def new (config : RoomConfig) : Room := { config := config }

/-! ## Queries -/

/-- `isFull()` and a test of both players, in that order. -/
def bothPlayers (room : Room) (test : Player → Bool) : Bool :=
  match room.players.P1, room.players.P2 with
  | some p1, some p2 => test p1 && test p2
  | _, _ => false

def isFull (room : Room) : Bool := room.players.P1.isSome && room.players.P2.isSome

def isEmpty (room : Room) : Bool := room.players.P1.isNone && room.players.P2.isNone

def isEveryoneReady (room : Room) : Bool := room.bothPlayers (·.isReady)

def everyoneCanPlay (room : Room) : Bool := room.bothPlayers (·.canPlay)

def everyonePlayed (room : Room) : Bool := room.bothPlayers (·.inputPressed.isSome)

def noOnePlayed (room : Room) : Bool := room.bothPlayers (!·.inputPressed.isSome)

def everyoneWantsToReplay (room : Room) : Bool := room.bothPlayers (·.isReadyToReplay)

def hasPlayerWithId (room : Room) (id : PlayerId) : Bool :=
  room.players.P1.any (·.id = id) || room.players.P2.any (·.id = id)

/-- The slot a player with this id is found in, `P1` before `P2`, and that player. -/
def getPlayerById (room : Room) (id : PlayerId) : Option (PlayerAssignment × Player) :=
  match room.players.P1.filter (·.id = id) with
  | some p => some (.P1, p)
  | none => (room.players.P2.filter (·.id = id)).map (fun p => (.P2, p))

def getAvailableAssignment (room : Room) : Option PlayerAssignment :=
  if room.players.P1.isNone then some .P1
  else if room.players.P2.isNone then some .P2
  else none

/-- One publication for each occupied slot, `P1` first. -/
def broadcastGameplayMessage (room : Room) (message : GameplayMessage) : List BrokerCall :=
  (room.players.P1.toList ++ room.players.P2.toList).map
    (fun p => .publishGameplayMessage p.id message)

/-! ## Joining and leaving -/

def addPlayer (room : Room) (id : PlayerId) (nickname : Bytes) : Room × List BrokerCall :=
  match room.getAvailableAssignment with
  | none => (room, [])
  | some assignment =>
    let player : Player := { id := id, nickname := nickname, assignment := assignment }
    let otherPlayer := room.players.get assignment.other
    ({ room with players := room.players.set assignment (some player) },
      .publishGameplayMessage id (.roomJoined assignment (otherPlayer.map Player.buildLobbyDTO)) ::
        (otherPlayer.toList.map fun other =>
          .publishGameplayMessage other.id (.playerJoinedRoom player.buildLobbyDTO)) ++
        [.subscribeToPlayerActionMessages id])

/-- The pointer to the leaving player is read once more after its slot is cleared; the id
and the assignment it then yields are the ones the player had. -/
def removePlayer (room : Room) (id : PlayerId) : Room × List BrokerCall :=
  match room.getPlayerById id with
  | none => (room, [])
  | some (_, player) =>
    let room' : Room :=
      { room with
        gameplayState := .waitingPlayers
        players := (room.players.map Player.resetToReplay).set player.assignment none
        expectedInput := .north
        everyoneCanPlayAt := none
        readyForInputAt := none }
    (room', .unsubscribeToPlayerActionMessages player.id ::
      room'.broadcastGameplayMessage (.playerLeftRoom player.assignment))

/-! ## Player action messages -/

/-- Write through the pointer to the player in slot `slot`. -/
def modifyPlayer (room : Room) (slot : PlayerAssignment) (f : Player → Player) : Room :=
  { room with players := room.players.modify slot f }

def handlePlayerSetReadyStateMessage (room : Room) (slot : PlayerAssignment) (player : Player)
    (isReady : Bool) : Room × List BrokerCall :=
  if room.gameplayState ≠ .waitingPlayers then (room, [])
  else
    let room' := room.modifyPlayer slot fun p => { p with isReady := isReady }
    (room', room'.broadcastGameplayMessage (.playerReadyStateChanged player.assignment isReady))

def handlePlayerNotifyCanPlayMessage (room : Room) (slot : PlayerAssignment) :
    Room × List BrokerCall :=
  let room' := room.modifyPlayer slot fun p => { p with canPlay := true }
  (room', [])

/-- `now` is the reading `getTimeNow` returns. -/
def handlePlayerInputMessage (room : Room) (slot : PlayerAssignment)
    (inputPressed : GameplayInput) (timeToPress : Int) (now : ChronoTimePoint) :
    Room × List BrokerCall :=
  let room' := room.modifyPlayer slot fun p =>
    { p with
      inputPressed := some inputPressed
      timeToPress := some timeToPress
      inputPressedAtServerTime := some now }
  (room', [])

def handlePlayerSetReplayReadyStateMessage (room : Room) (slot : PlayerAssignment)
    (player : Player) (isReadyToReplay : Bool) : Room × List BrokerCall :=
  let room' := room.modifyPlayer slot fun p => { p with isReadyToReplay := isReadyToReplay }
  (room', room'.broadcastGameplayMessage
    (.playerReplayReadyStateChanged player.assignment isReadyToReplay))

def handlePlayerLeaveGameMessage (room : Room) (player : Player) : Room × List BrokerCall :=
  room.removePlayer player.id

/-- A message of a player who is not in the room is dropped, and so is `joinGame`, which the
room does not handle. -/
def handlePlayerMessage (room : Room) (playerId : PlayerId) (message : PlayerActionMessage)
    (now : ChronoTimePoint) : Room × List BrokerCall :=
  match room.getPlayerById playerId with
  | none => (room, [])
  | some (slot, player) =>
    match message with
    | .setReadyState isReady => room.handlePlayerSetReadyStateMessage slot player isReady
    | .notifyCanPlay => room.handlePlayerNotifyCanPlayMessage slot
    | .playerInput inputPressed timeToPress =>
      room.handlePlayerInputMessage slot inputPressed timeToPress now
    | .setReplayReadyState isReadyToReplay =>
      room.handlePlayerSetReplayReadyStateMessage slot player isReadyToReplay
    | .leaveGame => room.handlePlayerLeaveGameMessage player
    | .joinGame _ _ => (room, [])

end Room

end SamuraiKirby
