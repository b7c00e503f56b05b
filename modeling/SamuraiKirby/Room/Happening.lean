/-
What an event does to a room, told by slots.

`happening` says what an event amounts to in the room that receives it: who
joins or leaves which slot, and in which slot the sender of a message sits.
`Change` and `TickCase` then say once what each happening does to the room and
what it publishes.  The results about whole games are case analyses over them.

A `Chronicle` is a history variable over happenings and the messages published
with them.  `Chronicle.accepts` is the rule by which such a result is proved.
-/
import SamuraiKirby.Room.Protocol
import SamuraiKirby.Transition.Moves

namespace SamuraiKirby

theorem PlayerAssignment.eq_or_eq_other (a b : PlayerAssignment) : b = a ∨ b = a.other := by
  cases a <;> cases b <;> simp [PlayerAssignment.other]

theorem PlayerAssignment.other_ne (a : PlayerAssignment) : a.other ≠ a := by
  cases a <;> decide

theorem PlayerAssignment.other_other (a : PlayerAssignment) : a.other.other = a := by
  cases a <;> rfl

namespace Room

open Transition

/-- An event seen from the slots.  What a room drops is `nothing`. -/
inductive Happening where
  | nothing
  | joins (slot : PlayerAssignment) (id : PlayerId) (nickname : Bytes)
  | leaves (slot : PlayerAssignment)
  | setsReady (slot : PlayerAssignment) (isReady : Bool)
  | canPlay (slot : PlayerAssignment)
  | presses (slot : PlayerAssignment) (inputPressed : GameplayInput) (timeToPress : Int)
      (now : ChronoTimePoint)
  | setsReplayReady (slot : PlayerAssignment) (isReadyToReplay : Bool)
  | ticks (clock : Readings) (draw : Nat)
deriving DecidableEq, Repr

/-- A message of the player in a slot. -/
def Happening.ofMessage (room : Room) (slot : PlayerAssignment) (now : ChronoTimePoint) :
    PlayerActionMessage → Happening
  | .joinGame _ _ => .nothing
  | .setReadyState isReady =>
    if room.gameplayState = .waitingPlayers then .setsReady slot isReady else .nothing
  | .notifyCanPlay => .canPlay slot
  | .playerInput inputPressed timeToPress => .presses slot inputPressed timeToPress now
  | .setReplayReadyState isReadyToReplay => .setsReplayReady slot isReadyToReplay
  | .leaveGame => .leaves slot

def happening (room : Room) : Event → Happening
  | .addPlayer id nickname =>
    match room.getAvailableAssignment with
    | none => .nothing
    | some slot => .joins slot id nickname
  | .removePlayer id =>
    match room.getPlayerById id with
    | none => .nothing
    | some (slot, _) => .leaves slot
  | .handlePlayerMessage id message now =>
    match room.getPlayerById id with
    | none => .nothing
    | some (slot, _) => .ofMessage room slot now message
  | .tick clock draw => .ticks clock draw

theorem of_happening_joins {room : Room} {e : Event} {slot : PlayerAssignment} {p : PlayerId}
    {nickname : Bytes} (h : room.happening e = .joins slot p nickname) :
    e = .addPlayer p nickname := by
  cases e with
  | addPlayer p' nickname' =>
    simp only [happening] at h
    split at h
    · cases h
    · cases h
      rfl
  | removePlayer p' =>
    simp only [happening] at h
    split at h <;> cases h
  | handlePlayerMessage p' m now =>
    simp only [happening] at h
    split at h
    · cases h
    · cases m <;> simp only [Happening.ofMessage] at h <;> (try split at h) <;> cases h
  | tick clock draw => cases h

theorem of_happening_presses {room : Room} {e : Event} {slot : PlayerAssignment}
    {i : GameplayInput} {t : Int} {now : ChronoTimePoint}
    (h : room.happening e = .presses slot i t now) :
    ∃ p player, e = .handlePlayerMessage p (.playerInput i t) now ∧
      room.getPlayerById p = some (slot, player) := by
  cases e with
  | handlePlayerMessage p m now' =>
    simp only [happening] at h
    split at h
    · cases h
    · next slot' player hg =>
      cases m with
      | playerInput i' t' =>
        cases h
        exact ⟨p, player, rfl, hg⟩
      | setReadyState isReady =>
        simp only [Happening.ofMessage] at h
        split at h <;> cases h
      | _ => cases h
  | tick clock draw => cases h
  | addPlayer p nickname | removePlayer p =>
    simp only [happening] at h
    split at h <;> cases h

/-- The condition that players have distinct ids: who joins is not in the room, or finds no
free slot. -/
def JoinsAbsent (room : Room) (e : Event) (_ : List Event) : Prop :=
  match e with
  | .addPlayer id _ => room.hasPlayerWithId id = true → room.isFull = true
  | _ => True

instance decidableJoinsAbsent (room : Room) (e : Event) (rest : List Event) :
    Decidable (JoinsAbsent room e rest) :=
  match e with
  | .addPlayer id _ =>
    inferInstanceAs (Decidable (room.hasPlayerWithId id = true → room.isFull = true))
  | .removePlayer _ | .handlePlayerMessage _ _ _ | .tick _ _ => isTrue trivial

/-! ## Joins, leaves and messages -/

/-- The room after a player has taken a slot. -/
def occupy (room : Room) (slot : PlayerAssignment) (id : PlayerId) (nickname : Bytes) : Room :=
  { room with
    players := room.players.set slot
      (some { id := id, nickname := nickname, assignment := slot }) }

/-- The room after the player of a slot has left. -/
def vacate (room : Room) (slot : PlayerAssignment) : Room :=
  { room with
    gameplayState := .waitingPlayers
    players := (room.players.map Player.resetToReplay).set slot none
    expectedInput := .north
    everyoneCanPlayAt := none
    readyForInputAt := none }

theorem get_new (config : RoomConfig) (a : PlayerAssignment) :
    (new config).players.get a = none := by
  cases a <;> rfl

section Slots

variable {room : Room} {slot a : PlayerAssignment} {id : PlayerId} {nickname : Bytes} {p : Player}
  {f : Player → Player}

theorem of_get_occupy (hp : (room.occupy slot id nickname).players.get a = some p) :
    (a = slot ∧ p = { id := id, nickname := nickname, assignment := slot }) ∨
      (a ≠ slot ∧ room.players.get a = some p) := by
  by_cases ha : a = slot
  · subst ha
    rw [occupy, Players.get_set_self] at hp
    exact Or.inl ⟨rfl, (Option.some.inj hp).symm⟩
  · rw [occupy, Players.get_set_of_ne _ ha] at hp
    exact Or.inr ⟨ha, hp⟩

theorem of_get_map (hp : (room.players.map f).get a = some p) :
    ∃ q, room.players.get a = some q ∧ p = f q := by
  rw [Players.get_map, Option.map_eq_some_iff] at hp
  obtain ⟨q, hq, rfl⟩ := hp
  exact ⟨q, hq, rfl⟩

theorem of_get_vacate (hp : (room.vacate slot).players.get a = some p) :
    a ≠ slot ∧ ∃ q, room.players.get a = some q ∧ p = q.resetToReplay := by
  by_cases ha : a = slot
  · subst ha
    rw [vacate, Players.get_set_self] at hp
    cases hp
  · rw [vacate, Players.get_set_of_ne _ ha] at hp
    exact ⟨ha, of_get_map hp⟩

theorem of_get_modifyPlayer (hp : (room.modifyPlayer slot f).players.get a = some p) :
    (a = slot ∧ ∃ q, room.players.get a = some q ∧ p = f q) ∨
      (a ≠ slot ∧ room.players.get a = some p) := by
  by_cases ha : a = slot
  · subst ha
    rw [modifyPlayer, Players.get_modify_self, Option.map_eq_some_iff] at hp
    obtain ⟨q, hq, rfl⟩ := hp
    exact Or.inl ⟨rfl, q, hq, rfl⟩
  · rw [modifyPlayer, Players.get_modify_of_ne _ ha] at hp
    exact Or.inr ⟨ha, hp⟩

/-- A field that a write leaves alone was there before. -/
theorem of_get_modifyPlayer_field {β : Type} (field : Player → β)
    (hf : ∀ p, field (f p) = field p)
    (hp : (room.modifyPlayer slot f).players.get a = some p) :
    ∃ q, room.players.get a = some q ∧ field p = field q := by
  rcases of_get_modifyPlayer hp with ⟨-, q, hq, rfl⟩ | ⟨-, hp⟩
  · exact ⟨q, hq, hf q⟩
  · exact ⟨p, hp, rfl⟩

/-- A test that both players pass is passed by the player in either slot. -/
theorem of_bothPlayers {test : Player → Bool} (htest : room.bothPlayers test = true)
    (hp : room.players.get a = some p) : test p = true := by
  obtain ⟨p1, p2, hplayers, h1, h2⟩ := bothPlayers_eq_true.1 htest
  rw [hplayers] at hp
  cases a with
  | P1 =>
    cases hp
    exact h1
  | P2 =>
    cases hp
    exact h2

/-- Both players pass a test only if both slots are occupied. -/
theorem exists_of_bothPlayers {test : Player → Bool} (htest : room.bothPlayers test = true)
    (a : PlayerAssignment) : ∃ p, room.players.get a = some p := by
  obtain ⟨p1, p2, hplayers, -, -⟩ := bothPlayers_eq_true.1 htest
  rw [hplayers]
  cases a with
  | P1 => exact ⟨p1, rfl⟩
  | P2 => exact ⟨p2, rfl⟩

end Slots

/-- What a happening other than a tick does, and what the room asks of its broker. -/
inductive Change (room : Room) : Happening → Room → List BrokerCall → Prop where
  | nothing : Change room .nothing room []
  | joins (slot : PlayerAssignment) (id : PlayerId) (nickname : Bytes)
      (hs : room.gameplayState = .waitingPlayers) (hfree : room.players.get slot = none) :
      Change room (.joins slot id nickname) (room.occupy slot id nickname)
        (.publishGameplayMessage id
            (.roomJoined slot ((room.players.get slot.other).map Player.buildLobbyDTO)) ::
          ((room.players.get slot.other).toList.map fun other =>
            .publishGameplayMessage other.id (.playerJoinedRoom ⟨nickname, slot, false⟩)) ++
          [.subscribeToPlayerActionMessages id])
  | leaves (slot : PlayerAssignment) (p : Player) (hp : room.players.get slot = some p) :
      Change room (.leaves slot) (room.vacate slot)
        (.unsubscribeToPlayerActionMessages p.id ::
          (room.vacate slot).broadcastGameplayMessage (.playerLeftRoom slot))
  | setsReady (slot : PlayerAssignment) (p : Player) (isReady : Bool)
      (hs : room.gameplayState = .waitingPlayers) (hp : room.players.get slot = some p) :
      Change room (.setsReady slot isReady)
        (room.modifyPlayer slot fun p => { p with isReady := isReady })
        ((room.modifyPlayer slot fun p => { p with isReady := isReady }).broadcastGameplayMessage
          (.playerReadyStateChanged slot isReady))
  | canPlay (slot : PlayerAssignment) (p : Player) (hp : room.players.get slot = some p) :
      Change room (.canPlay slot) (room.modifyPlayer slot fun p => { p with canPlay := true }) []
  | presses (slot : PlayerAssignment) (p : Player) (inputPressed : GameplayInput)
      (timeToPress : Int) (now : ChronoTimePoint) (hp : room.players.get slot = some p) :
      Change room (.presses slot inputPressed timeToPress now)
        (room.modifyPlayer slot fun p =>
          { p with
            inputPressed := some inputPressed
            timeToPress := some timeToPress
            inputPressedAtServerTime := some now }) []
  | setsReplayReady (slot : PlayerAssignment) (p : Player) (isReadyToReplay : Bool)
      (hp : room.players.get slot = some p) :
      Change room (.setsReplayReady slot isReadyToReplay)
        (room.modifyPlayer slot fun p => { p with isReadyToReplay := isReadyToReplay })
        ((room.modifyPlayer slot fun p =>
          { p with isReadyToReplay := isReadyToReplay }).broadcastGameplayMessage
          (.playerReplayReadyStateChanged slot isReadyToReplay))

variable {clock : Readings} {draw : Nat} {room room' : Room} {calls : List BrokerCall}
  {ms : List GameplayMessage}

/-- Only a room in the lobby has a free slot. -/
theorem waitingPlayers_of_free (h : WellFormed room) {slot : PlayerAssignment}
    (hfree : room.players.get slot = none) : room.gameplayState = .waitingPlayers := by
  by_cases hs : room.gameplayState = .waitingPlayers
  · exact hs
  · obtain ⟨p1, p2, hp⟩ := h.full hs
    rw [hp] at hfree
    cases slot <;> cases hfree

theorem addPlayer_change (h : WellFormed room) (id : PlayerId) (nickname : Bytes) :
    Change room (room.happening (.addPlayer id nickname)) (room.addPlayer id nickname).1
      (room.addPlayer id nickname).2 := by
  unfold happening addPlayer
  cases ha : room.getAvailableAssignment with
  | none => exact .nothing
  | some slot =>
    have hfree := getAvailableAssignment_eq_some ha
    exact .joins slot id nickname (waitingPlayers_of_free h hfree) hfree

theorem removePlayer_change (h : WellFormed room) {id : PlayerId} {slot : PlayerAssignment}
    {p : Player} (hg : room.getPlayerById id = some (slot, p)) :
    Change room (.leaves slot) (room.removePlayer id).1 (room.removePlayer id).2 := by
  have hp := (getPlayerById_eq_some hg).1
  have hslot := h.slot slot p hp
  have hcase := Change.leaves slot p hp
  rw [removePlayer, hg]
  simpa only [vacate, hslot] using hcase

theorem handlePlayerMessage_change (h : WellFormed room) (id : PlayerId)
    (message : PlayerActionMessage) (now : ChronoTimePoint) :
    Change room (room.happening (.handlePlayerMessage id message now))
      (room.handlePlayerMessage id message now).1 (room.handlePlayerMessage id message now).2 := by
  cases hg : room.getPlayerById id with
  | none =>
    simp only [happening, handlePlayerMessage, hg]
    exact .nothing
  | some found =>
    obtain ⟨slot, p⟩ := found
    simp only [happening, handlePlayerMessage, hg]
    obtain ⟨hp, hid⟩ := getPlayerById_eq_some hg
    have hslot := h.slot slot p hp
    cases message with
    | joinGame nickname gameDifficulty => exact .nothing
    | setReadyState isReady =>
      simp only [Happening.ofMessage, handlePlayerSetReadyStateMessage, hslot]
      by_cases hs : room.gameplayState = .waitingPlayers
      · rw [if_pos hs, if_neg (not_not.2 hs)]
        exact .setsReady slot p isReady hs hp
      · rw [if_neg hs, if_pos hs]
        exact .nothing
    | notifyCanPlay => exact .canPlay slot p hp
    | playerInput inputPressed timeToPress =>
      exact .presses slot p inputPressed timeToPress now hp
    | setReplayReadyState isReadyToReplay =>
      simp only [handlePlayerSetReplayReadyStateMessage, hslot]
      exact .setsReplayReady slot p isReadyToReplay hp
    | leaveGame =>
      simp only [handlePlayerLeaveGameMessage, hid]
      exact removePlayer_change h hg

/-! ## Ticks -/

/-- In `STARTED` two handlers can act in one tick, in the other phases only one. -/
inductive TickCase (clock : Readings) (draw : Nat) (room : Room) :
    Room → List GameplayMessage → Prop where
  | turn {handler : Handler} {room' : Room} {ms : List GameplayMessage}
      (h : Turn clock draw room handler room' ms) : TickCase clock draw room room' ms
  | twoTurns {room₁ room₂ : Room} {ms₁ ms₂ : List GameplayMessage}
      (first : Turn clock draw room .handleEveryoneCanPlay room₁ ms₁)
      (second : Turn clock draw room₁ .handleOnePlayerPlayed room₂ ms₂) :
      TickCase clock draw room room₂ (ms₁ ++ ms₂)

/-- Only the replay writes to the players. -/
theorem Turn.players {handler : Handler} (ht : Turn clock draw room handler room' ms)
    (hne : handler ≠ .handleReplay) : room'.players = room.players := by
  cases ht with
  | replay => exact absurd rfl hne
  | _ => rfl

theorem Turn.config {handler : Handler} (ht : Turn clock draw room handler room' ms) :
    room'.config = room.config := by
  cases ht <;> rfl

/-- Once the round is over only the replay acts. -/
theorem Turn.idle_of_over {handler : Handler} (ht : Turn clock draw room handler room' ms)
    (hs : room.gameplayState = .over) (hne : handler ≠ .handleReplay) :
    room' = room ∧ ms = [] := by
  cases ht with
  | idle => exact ⟨rfl, rfl⟩
  | replay => exact absurd rfl hne
  | _ => simp_all

/-- While an input is expected a turn is idle or ends the round. -/
theorem Turn.over_of_expectingInput {handler : Handler}
    (ht : Turn clock draw room handler room' ms) (hs : room.gameplayState = .expectingInput) :
    (room' = room ∧ ms = []) ∨ room'.gameplayState = .over := by
  cases ht with
  | idle => exact Or.inl ⟨rfl, rfl⟩
  | _ => simp_all

/-- A turn publishes only to rooms that have both players. -/
theorem Turn.isForBoth {handler : Handler} (ht : Turn clock draw room handler room' ms) :
    ∀ m ∈ ms, m.isForBoth = true := by
  intro m hm
  cases ht <;> simp only [List.mem_singleton, List.not_mem_nil] at hm <;> subst hm <;> rfl

theorem TickCase.isForBoth (ht : TickCase clock draw room room' ms) :
    ∀ m ∈ ms, m.isForBoth = true := by
  cases ht with
  | turn h => exact h.isForBoth
  | twoTurns first second =>
    intro m hm
    rcases List.mem_append.1 hm with hm | hm
    · exact first.isForBoth m hm
    · exact second.isForBoth m hm

theorem Turns.tickCase (ht : Turns clock draw room (tickHandlers room.gameplayState) room' ms) :
    TickCase clock draw room room' ms := by
  cases hs : room.gameplayState with
  | waitingPlayers =>
    rw [hs] at ht
    cases ht with
    | cons head tail =>
      cases tail
      simpa using TickCase.turn head
  | started =>
    rw [hs] at ht
    cases ht with
    | cons first tail =>
      cases tail with
      | cons second tail =>
        cases tail
        simpa using TickCase.twoTurns first second
  | expectingInput =>
    rw [hs] at ht
    cases ht with
    | cons first tail =>
      cases tail with
      | cons second tail =>
        cases tail with
        | cons third tail =>
          cases tail
          -- the first turn that is not idle leaves nothing to do to the others
          rcases first.over_of_expectingInput hs with ⟨rfl, rfl⟩ | hover
          · rcases second.over_of_expectingInput hs with ⟨rfl, rfl⟩ | hover
            · simpa using TickCase.turn third
            · obtain ⟨rfl, rfl⟩ := third.idle_of_over hover (by decide)
              simpa using TickCase.turn second
          · obtain ⟨rfl, rfl⟩ := second.idle_of_over hover (by decide)
            obtain ⟨rfl, rfl⟩ := third.idle_of_over hover (by decide)
            simpa using TickCase.turn first
  | _ =>
    -- the round is over
    rw [hs] at ht
    cases ht with
    | cons head tail =>
      cases tail
      simpa using TickCase.turn head

/-- What `handleOnePlayerPlayed` never broadcasts comes from a turn in the room of the tick. -/
theorem TickCase.exists_turn {m : GameplayMessage} (ht : TickCase clock draw room room' ms)
    (hm : m ∈ ms) (hone : ∀ {room₁ room₂ ms₂},
      Turn clock draw room₁ .handleOnePlayerPlayed room₂ ms₂ → m ∉ ms₂) :
    ∃ handler room₁ ms₁, Turn clock draw room handler room₁ ms₁ ∧ m ∈ ms₁ := by
  cases ht with
  | turn h => exact ⟨_, _, _, h, hm⟩
  | twoTurns first second =>
    rcases List.mem_append.1 hm with hm | hm
    · exact ⟨_, _, _, first, hm⟩
    · exact absurd hm (hone second)

/-- What every turn keeps, with what is read of its broadcasts, every tick keeps. -/
theorem TickCase.preserves {β : Type} {R : β → Room → Prop} {read : β → GameplayMessage → β}
    (hturn : ∀ {b room handler room' ms}, R b room → Turn clock draw room handler room' ms →
      R (ms.foldl read b) room') {b : β} (hR : R b room)
    (ht : TickCase clock draw room room' ms) : R (ms.foldl read b) room' := by
  cases ht with
  | turn h => exact hturn hR h
  | twoTurns first second =>
    rw [List.foldl_append]
    exact hturn (hturn hR first) second

theorem tick_cases (h : WellFormed room) (ht : room.tick clock draw = .ok (room', calls)) :
    ∃ ms, calls = room'.broadcastAll ms ∧ TickCase clock draw room room' ms ∧
      (ms ≠ [] → room'.recipients ≠ []) := by
  obtain ⟨room'', ms, heq, hturns⟩ := tick_turns h clock draw
  rw [ht] at heq
  cases heq
  refine ⟨ms, rfl, hturns.tickCase, fun hms hnil => ?_⟩
  have hlen := full_iff_recipients.1 (hturns.full h hms)
  rw [hnil] at hlen
  cases hlen

/-- A step is a tick or one of the changes. -/
theorem step_cases {e : Event} (h : WellFormed room) (hstep : room.step e = .ok (room', calls)) :
    (∃ clock draw, e = .tick clock draw ∧ room.tick clock draw = .ok (room', calls)) ∨
      Change room (room.happening e) room' calls := by
  cases e with
  | addPlayer id nickname =>
    right
    have hchange := addPlayer_change h id nickname
    rwa [Except.ok.inj hstep] at hchange
  | removePlayer id =>
    right
    cases hg : room.getPlayerById id with
    | none =>
      have hstep' : room.step (.removePlayer id) = .ok (room, []) := by
        simp only [step, removePlayer, hg]
      rw [hstep'] at hstep
      cases hstep
      simpa only [happening, hg] using Change.nothing
    | some found =>
      have hchange := removePlayer_change h hg
      rw [Except.ok.inj hstep] at hchange
      simpa only [happening, hg] using hchange
  | handlePlayerMessage id message now =>
    right
    have hchange := handlePlayerMessage_change h id message now
    rwa [Except.ok.inj hstep] at hchange
  | tick clock draw => exact Or.inl ⟨clock, draw, rfl, hstep⟩

/-- What every change and every turn keep, every run of a new room keeps. -/
theorem run_keeps {P : Room → Prop}
    (hchange : ∀ {room h room' calls}, P room → Change room h room' calls → P room')
    (hturn : ∀ {clock draw room handler room' ms}, P room →
      Turn clock draw room handler room' ms → P room')
    {config : RoomConfig} {events : List Event} (hnew : P (new config))
    (hrun : Transition.run step (new config) events = .ok (room, calls)) : P room := by
  have hboth : WellFormed room ∧ P room := by
    refine Transition.run_invariant (P := fun room => WellFormed room ∧ P room) ?_
      ⟨wellFormed_new config, hnew⟩ hrun
    rintro room e room' calls ⟨hw, hP⟩ hstep
    refine ⟨step_wellFormed hw hstep, ?_⟩
    rcases step_cases hw hstep with ⟨clock, draw, rfl, ht⟩ | hc
    · obtain ⟨ms, -, hcase, -⟩ := tick_cases hw ht
      exact @TickCase.preserves clock draw room room' ms Unit (fun _ room => P room)
        (fun b _ => b) (fun hP ht => hturn hP ht) () hP hcase
    · exact hchange hP hc
  exact hboth.2

theorem run_config {config : RoomConfig} {events : List Event}
    (hrun : Transition.run step (new config) events = .ok (room, calls)) :
    room.config = config := by
  refine run_keeps (P := fun room => room.config = config) (fun hroom hc => ?_)
    (fun hroom ht => ht.config.trans hroom) rfl hrun
  cases hc <;> exact hroom

/-! ## The lobby -/

/-- In the lobby nothing is left of a round but what the players carry. -/
def LobbyCleared (room : Room) : Prop :=
  room.gameplayState = .waitingPlayers →
    room.expectedInput = .north ∧ room.everyoneCanPlayAt = none ∧ room.readyForInputAt = none

theorem lobbyCleared_new (config : RoomConfig) : LobbyCleared (new config) :=
  fun _ => ⟨rfl, rfl, rfl⟩

theorem Change.lobbyCleared {h : Happening} (hlobby : LobbyCleared room)
    (hchange : Change room h room' calls) : LobbyCleared room' := by
  cases hchange with
  | leaves => exact fun _ => ⟨rfl, rfl, rfl⟩
  | _ => exact hlobby

theorem Turn.lobbyCleared {handler : Handler} (hlobby : LobbyCleared room)
    (ht : Turn clock draw room handler room' ms) : LobbyCleared room' := by
  cases ht with
  | idle => exact hlobby
  | firstCanPlay hs =>
    intro hs'
    cases hs.symm.trans hs'
  | _ => exact nofun

theorem run_lobbyCleared {config : RoomConfig} {events : List Event}
    (hrun : Transition.run step (new config) events = .ok (room, calls)) : LobbyCleared room :=
  run_keeps (fun hlobby hc => hc.lobbyCleared hlobby) (fun hlobby ht => ht.lobbyCleared hlobby)
    (lobbyCleared_new config) hrun

/-! ## Chronicles -/

/-- A history variable of a room and what it has to say about the messages of a tick. -/
structure Chronicle (β : Type) where
  start : β
  /-- What is remembered of a happening. -/
  happens : β → Happening → β
  /-- What is remembered of a message that a tick broadcasts. -/
  read : β → Happening → GameplayMessage → β
  /-- When a message may be broadcast, with the memory right before the messages of the tick. -/
  ok : β → Happening → GameplayMessage → Prop

namespace Chronicle

variable {β : Type}

def readCall (c : Chronicle β) (h : Happening) (b : β) : BrokerCall → β
  | .publishGameplayMessage _ m => c.read b h m
  | _ => b

/-- A step is judged by the messages it publishes, to whomever. -/
def monitor (c : Chronicle β) : Monitor β (Move Room Event BrokerCall) where
  next b move :=
    let h := move.before.happening move.input
    move.emitted.foldl (c.readCall h) (c.happens b h)
  ok b move :=
    let h := move.before.happening move.input
    ∀ id m, .publishGameplayMessage id m ∈ move.emitted → c.ok (c.happens b h) h m

/-- Every message of a run of a new room may be broadcast when it is. -/
def Accepts (c : Chronicle β) (config : RoomConfig) (events : List Event) : Prop :=
  c.monitor.Accepts c.start (moves step (new config) events)

/-- Besides, `Q` relates the memory and the room before every step. -/
def AcceptsUnder (c : Chronicle β) (Q : β → Room → Prop) (config : RoomConfig)
    (events : List Event) : Prop :=
  Monitor.Accepts ⟨c.monitor.next, fun b move => Q b move.before ∧ c.monitor.ok b move⟩ c.start
    (moves step (new config) events)

/-- What is remembered after a run of a new room. -/
def memory (c : Chronicle β) (config : RoomConfig) (events : List Event) : β :=
  c.monitor.after c.start (moves step (new config) events)

/-- A chronicle is about the messages of ticks, and two copies of one message are one. -/
structure Lawful (c : Chronicle β) : Prop where
  idem : ∀ b h m, c.read (c.read b h m) h m = c.read b h m
  read_quiet : ∀ b h m, m.isForBoth = false → c.read b h m = b
  ok_quiet : ∀ b h m, m.isForBoth = false → c.ok b h m

variable {c : Chronicle β}

/-- What an accepted run says about the messages of its last step. -/
theorem Accepts.last {config : RoomConfig} {events : List Event} {e : Event} {room room' : Room}
    {calls calls' : List BrokerCall} (h : c.Accepts config (events ++ [e]))
    (hrun : run step (new config) events = .ok (room, calls))
    (hstep : room.step e = .ok (room', calls')) {id : PlayerId} {m : GameplayMessage}
    (hm : .publishGameplayMessage id m ∈ calls') :
    c.ok (c.happens (c.memory config events) (room.happening e)) (room.happening e) m := by
  have hok := moves_accepts_last h hrun hstep
  exact hok id m hm

theorem foldl_broadcast (hc : c.Lawful) (h : Happening) (b : β) (hne : room.recipients ≠ [])
    (m : GameplayMessage) :
    (room.broadcastGameplayMessage m).foldl (c.readCall h) b = c.read b h m := by
  have hfix : ∀ ids : List PlayerId, (ids.map fun id => BrokerCall.publishGameplayMessage id m).foldl
      (c.readCall h) (c.read b h m) = c.read b h m := by
    intro ids
    induction ids with
    | nil => rfl
    | cons id ids ih =>
      rw [List.map_cons, List.foldl_cons]
      simpa only [readCall, hc.idem] using ih
  rw [broadcastGameplayMessage_eq]
  cases hids : room.recipients with
  | nil => exact absurd hids hne
  | cons id ids => exact hfix ids

theorem foldl_broadcastAll (hc : c.Lawful) (h : Happening) (b : β)
    (hne : ms ≠ [] → room.recipients ≠ []) :
    (room.broadcastAll ms).foldl (c.readCall h) b = ms.foldl (fun b m => c.read b h m) b := by
  induction ms generalizing b with
  | nil => rfl
  | cons m ms ih =>
    have hrec := hne (List.cons_ne_nil m ms)
    rw [broadcastAll, List.flatMap_cons, List.foldl_append, foldl_broadcast hc h b hrec,
      List.foldl_cons]
    exact ih (c.read b h m) fun _ => hrec

theorem mem_of_mem_broadcastAll {id : PlayerId} {m : GameplayMessage}
    (hm : .publishGameplayMessage id m ∈ room.broadcastAll ms) : m ∈ ms := by
  obtain ⟨m', hm', hc⟩ := List.mem_flatMap.1 hm
  rw [broadcastGameplayMessage_eq] at hc
  obtain ⟨id', -, heq⟩ := List.mem_map.1 hc
  cases heq
  exact hm'

end Chronicle

/-- Joins, leaves and messages publish nothing that only ticks broadcast. -/
theorem Change.quiet {h : Happening} (hchange : Change room h room' calls) {id : PlayerId}
    {m : GameplayMessage} (hm : .publishGameplayMessage id m ∈ calls) : m.isForBoth = false := by
  have hbroadcast : ∀ (r : Room) (m' : GameplayMessage), m'.isForBoth = false →
      .publishGameplayMessage id m ∈ r.broadcastGameplayMessage m' → m.isForBoth = false := by
    intro r m' hm' hmem
    rw [broadcastGameplayMessage_eq] at hmem
    obtain ⟨id', -, heq⟩ := List.mem_map.1 hmem
    cases heq
    exact hm'
  cases hchange with
  | nothing => cases hm
  | canPlay => cases hm
  | presses => cases hm
  | joins slot id' nickname =>
    simp only [List.cons_append, List.mem_cons, List.mem_append, List.mem_map,
      List.not_mem_nil, or_false, reduceCtorEq, BrokerCall.publishGameplayMessage.injEq] at hm
    rcases hm with ⟨-, rfl⟩ | ⟨q, -, -, rfl⟩ <;> rfl
  | leaves slot p =>
    rcases List.mem_cons.1 hm with heq | hm
    · cases heq
    · exact hbroadcast _ _ rfl hm
  | setsReady => exact hbroadcast _ _ rfl hm
  | setsReplayReady => exact hbroadcast _ _ rfl hm

namespace Chronicle

variable {β : Type} {c : Chronicle β}

theorem foldl_quiet (hc : c.Lawful) (h : Happening) (b : β)
    (hquiet : ∀ id m, .publishGameplayMessage id m ∈ calls → m.isForBoth = false) :
    calls.foldl (c.readCall h) b = b := by
  induction calls with
  | nil => rfl
  | cons call calls ih =>
    have hhead : c.readCall h b call = b := by
      cases call with
      | publishGameplayMessage id m =>
        exact hc.read_quiet b h m (hquiet id m (List.mem_cons_self ..))
      | _ => rfl
    rw [List.foldl_cons, hhead]
    exact ih fun id m hm => hquiet id m (List.mem_cons_of_mem _ hm)

/-- A run whose steps meet `C` keeps a chronicle when a relation between memory and room says
that its ticks may broadcast what they do, and every step that meets `C` keeps the relation. -/
theorem acceptsUnder (hc : c.Lawful) {C : Room → Event → List Event → Prop}
    {R : β → Room → List Event → Prop} {Q : β → Room → Prop}
    (hQ : ∀ {b room e rest}, R b room (e :: rest) → Q b room)
    (hchange : ∀ {b room e rest room' calls}, WellFormed room → C room e rest →
      R b room (e :: rest) → Change room (room.happening e) room' calls →
      R (c.happens b (room.happening e)) room' rest)
    (htick : ∀ {b room clock draw rest room' ms}, WellFormed room →
      C room (.tick clock draw) rest → R b room (.tick clock draw :: rest) →
      room.tick clock draw = .ok (room', room'.broadcastAll ms) →
      TickCase clock draw room room' ms →
      (∀ m ∈ ms, c.ok (c.happens b (.ticks clock draw)) (.ticks clock draw) m) ∧
        R (ms.foldl (fun b m => c.read b (.ticks clock draw) m)
          (c.happens b (.ticks clock draw))) room' rest)
    {config : RoomConfig} {events : List Event} (hstart : R c.start (new config) events)
    (hC : Along step C (new config) events) : c.AcceptsUnder Q config events := by
  refine moves_accepts
    (R := fun room b rest => WellFormed room ∧ R b room rest ∧ Along step C room rest)
    (fun room b e rest room' calls hR hstep => ?_) ⟨wellFormed_new config, hstart, hC⟩
  obtain ⟨hwf, hR, hC⟩ := hR
  have hwf' := step_wellFormed hwf hstep
  have hC' := hC.2 room' calls hstep
  rcases step_cases hwf hstep with ⟨clock, draw, rfl, ht⟩ | hcase
  · obtain ⟨ms, rfl, hcase, hne⟩ := tick_cases hwf ht
    obtain ⟨hok, hR'⟩ := htick hwf hC.1 hR ht hcase
    refine ⟨⟨hQ hR, fun id m hm => hok m (mem_of_mem_broadcastAll hm)⟩, hwf', ?_, hC'⟩
    simpa only [monitor, happening, foldl_broadcastAll hc _ _ hne] using hR'
  · refine ⟨⟨hQ hR, fun id m hm => hc.ok_quiet _ _ _ (hcase.quiet hm)⟩, hwf', ?_, hC'⟩
    simpa only [monitor, foldl_quiet hc _ _ fun id m hm => hcase.quiet hm] using
      hchange hwf hC.1 hR hcase

theorem accepts (hc : c.Lawful) {C : Room → Event → List Event → Prop}
    {R : β → Room → List Event → Prop}
    (hchange : ∀ {b room e rest room' calls}, WellFormed room → C room e rest →
      R b room (e :: rest) → Change room (room.happening e) room' calls →
      R (c.happens b (room.happening e)) room' rest)
    (htick : ∀ {b room clock draw rest room' ms}, WellFormed room →
      C room (.tick clock draw) rest → R b room (.tick clock draw :: rest) →
      room.tick clock draw = .ok (room', room'.broadcastAll ms) →
      TickCase clock draw room room' ms →
      (∀ m ∈ ms, c.ok (c.happens b (.ticks clock draw)) (.ticks clock draw) m) ∧
        R (ms.foldl (fun b m => c.read b (.ticks clock draw) m)
          (c.happens b (.ticks clock draw))) room' rest)
    {config : RoomConfig} {events : List Event} (hstart : R c.start (new config) events)
    (hC : Along step C (new config) events) : c.Accepts config events := by
  have hunder : c.AcceptsUnder (fun _ _ => True) config events :=
    acceptsUnder hc (fun _ => trivial) hchange htick hstart hC
  unfold AcceptsUnder at hunder
  refine hunder.imp ?_ ?_
  · rfl
  · exact fun _ _ hok => hok.2

end Chronicle

end Room
end SamuraiKirby
