/-
The sequence of round broadcasts of a room.

`protocol` is an automaton over messages whose states are the phases of a room.
`Rounds` reads the round broadcasts off a run: a step is explained by a list of
messages when its publications about the round are exactly these messages, each
sent to the slots occupied after the step.  `rounds_conform` puts the two
together for every run.
-/
import SamuraiKirby.Room.Round
import SamuraiKirby.Transition.Monitor

namespace SamuraiKirby

namespace GameplayMessage

/-- Messages that move a round along; the others announce who is in the lobby and who is ready. -/
def isRound : GameplayMessage → Bool
  | .roomJoined _ _ | .playerJoinedRoom _ | .playerReadyStateChanged _ _
  | .playerReplayReadyStateChanged _ _ => false
  | _ => true

/-- Round messages other than `playerLeftRoom`, which only reaches who stays. -/
def isForBoth (m : GameplayMessage) : Bool :=
  match m with
  | .playerLeftRoom _ => false
  | m => m.isRound

end GameplayMessage

def BrokerCall.isRound : BrokerCall → Bool
  | .publishGameplayMessage _ m => m.isRound
  | _ => false

namespace Room

open Transition

/-- The round automaton: where a message leads, and in which states it may be sent. -/
def protocol : Monitor GameplayState GameplayMessage where
  next state m :=
    match m with
    | .allReadyGameStarting | .allReplayReadyGameStarting => .started
    | .gameExpectingInput _ => .expectingInput
    | .gameOverEarlyInput _ | .gameOverWrongInput _ | .gameOverWin _ | .gameOverDraw _ => .over
    | .playerLeftRoom _ => .waitingPlayers
    | _ => state
  ok state m :=
    match m with
    | .allReadyGameStarting => state = .waitingPlayers
    | .gameExpectingInput _ | .gameOverEarlyInput _ => state = .started
    | .gameOverWrongInput _ | .gameOverWin _ | .gameOverDraw _ => state = .expectingInput
    | .allReplayReadyGameStarting => state = .over
    | _ => True

/-- `bs` lists the round broadcasts of a run in order, each with the room right after the step
that made it.  A room left empty broadcasts nothing. -/
inductive Rounds : Room → List Event → List (Room × GameplayMessage) → Room → Prop where
  | nil (room : Room) : Rounds room [] [] room
  | cons {room room' room'' : Room} {e : Event} {events : List Event} {calls : List BrokerCall}
      {ms : List GameplayMessage} {bs : List (Room × GameplayMessage)}
      (hstep : room.step e = .ok (room', calls))
      (hcalls : calls.filter BrokerCall.isRound = room'.broadcastAll ms)
      (hround : ∀ m ∈ ms, m.isRound = true) (hempty : room'.isEmpty = true → ms = [])
      (tail : Rounds room' events bs room'') :
      Rounds room (e :: events) (ms.map (room', ·) ++ bs) room''

/-- What one step of a well formed room contributes to the round. -/
def StepConforms (room : Room) (e : Event) : Prop :=
  ∃ room' calls ms, room.step e = .ok (room', calls) ∧
    calls.filter BrokerCall.isRound = room'.broadcastAll ms ∧
    (∀ m ∈ ms, m.isRound = true) ∧ (room'.isEmpty = true → ms = []) ∧
    protocol.Accepts room.gameplayState ms ∧
    protocol.after room.gameplayState ms = room'.gameplayState ∧
    ∀ m ∈ ms, m.isForBoth = true → ∃ p1 p2, room'.players = ⟨some p1, some p2⟩

/-! ## Ticks conform -/

variable {clock : Readings} {draw : Nat} {room room' : Room} {ms : List GameplayMessage}

theorem Turn.protocol {handler : Handler} (ht : Turn clock draw room handler room' ms) :
    protocol.Accepts room.gameplayState ms ∧
      protocol.after room.gameplayState ms = room'.gameplayState ∧
      ∀ m ∈ ms, m.isRound = true := by
  cases ht <;> simp_all [Room.protocol, GameplayMessage.isRound, Monitor.Accepts, Monitor.after]

theorem Turns.protocol {handlers : List Handler} (ht : Turns clock draw room handlers room' ms) :
    protocol.Accepts room.gameplayState ms ∧
      protocol.after room.gameplayState ms = room'.gameplayState ∧
      ∀ m ∈ ms, m.isRound = true := by
  induction ht with
  | nil => exact ⟨trivial, rfl, by simp⟩
  | @cons room room₁ room₂ handler handlers ms₁ ms₂ head tail ih =>
    obtain ⟨hacc, hafter, hround⟩ := head.protocol
    obtain ⟨hacc', hafter', hround'⟩ := ih
    rw [Monitor.accepts_append, Monitor.after_append, hafter]
    refine ⟨⟨hacc, hacc'⟩, hafter', fun m hm => ?_⟩
    rcases List.mem_append.1 hm with hm | hm
    · exact hround m hm
    · exact hround' m hm

/-- Only a full room takes a turn that broadcasts. -/
theorem Turn.full {handler : Handler} (h : WellFormed room)
    (ht : Turn clock draw room handler room' ms) (hms : ms ≠ []) :
    ∃ p1 p2, room.players = ⟨some p1, some p2⟩ := by
  by_cases hs : room.gameplayState = .waitingPlayers
  · cases ht with
    | allReady _ hr =>
      obtain ⟨p1, p2, hp, -, -⟩ := bothPlayers_eq_true.1 hr
      exact ⟨p1, p2, hp⟩
    | _ => simp_all
  · exact h.full hs

theorem full_iff_recipients : (∃ p1 p2, room.players = ⟨some p1, some p2⟩) ↔
    room.recipients.length = 2 := by
  unfold Room.recipients
  cases hp : room.players with
  | mk P1 P2 => cases P1 <;> cases P2 <;> simp

theorem Turns.full {handlers : List Handler} (h : WellFormed room)
    (ht : Turns clock draw room handlers room' ms) (hms : ms ≠ []) :
    ∃ p1 p2, room'.players = ⟨some p1, some p2⟩ := by
  induction ht with
  | nil => exact absurd rfl hms
  | @cons room room₁ room₂ handler handlers ms₁ ms₂ head tail ih =>
    by_cases hms₂ : ms₂ = []
    · have hms₁ : ms₁ ≠ [] := by
        intro hnil
        exact hms (by rw [hnil, hms₂]; rfl)
      rw [full_iff_recipients, tail.recipients, head.recipients, ← full_iff_recipients]
      exact head.full h hms₁
    · exact ih (head.wellFormed h) hms₂

theorem filter_isRound_broadcastAll (room : Room) (ms : List GameplayMessage)
    (h : ∀ m ∈ ms, m.isRound = true) :
    (room.broadcastAll ms).filter BrokerCall.isRound = room.broadcastAll ms := by
  apply List.filter_eq_self.2
  intro c hc
  obtain ⟨m, hm, hc⟩ := List.mem_flatMap.1 hc
  rw [broadcastGameplayMessage_eq] at hc
  obtain ⟨id, -, rfl⟩ := List.mem_map.1 hc
  exact h m hm

theorem tick_conforms (h : WellFormed room) (clock : Readings) (draw : Nat) :
    StepConforms room (.tick clock draw) := by
  obtain ⟨room', ms, htick, hturns⟩ := tick_turns h clock draw
  obtain ⟨hacc, hafter, hround⟩ := hturns.protocol
  refine ⟨room', _, ms, htick, filter_isRound_broadcastAll room' ms hround, hround, ?_, hacc,
    hafter, fun m hm _ => hturns.full h (List.ne_nil_of_mem hm)⟩
  intro hempty
  by_cases hms : ms = []
  · exact hms
  · obtain ⟨p1, p2, hp⟩ := hturns.full h hms
    rw [isEmpty, hp] at hempty
    cases hempty

/-! ## The other events conform -/

/-- The outcome stays in its phase of the round and publishes nothing about it. -/
structure Silent (room : Room) (outcome : Room × List BrokerCall) : Prop where
  gameplayState : outcome.1.gameplayState = room.gameplayState
  expectedInput : outcome.1.expectedInput = room.expectedInput
  calls : ∀ c ∈ outcome.2, c.isRound = false

theorem silent_unchanged (room : Room) : Silent room (room, []) :=
  ⟨rfl, rfl, by simp⟩

theorem silent_modifyPlayer (room : Room) (slot : PlayerAssignment) (f : Player → Player)
    {calls : List BrokerCall} (hcalls : ∀ c ∈ calls, c.isRound = false) :
    Silent room (room.modifyPlayer slot f, calls) :=
  ⟨rfl, rfl, hcalls⟩

theorem broadcast_not_isRound (room : Room) {m : GameplayMessage} (hm : m.isRound = false) :
    ∀ c ∈ room.broadcastGameplayMessage m, c.isRound = false := by
  intro c hc
  rw [broadcastGameplayMessage_eq] at hc
  obtain ⟨id, -, rfl⟩ := List.mem_map.1 hc
  exact hm

theorem addPlayer_silent (room : Room) (id : PlayerId) (nickname : Bytes) :
    Silent room (room.addPlayer id nickname) := by
  unfold addPlayer
  cases room.getAvailableAssignment with
  | none => exact silent_unchanged room
  | some a =>
    refine ⟨rfl, rfl, fun c hc => ?_⟩
    simp only [List.cons_append, List.mem_cons, List.mem_append, List.mem_map,
      List.not_mem_nil, or_false] at hc
    rcases hc with rfl | ⟨q, -, rfl⟩ | rfl <;> rfl

/-- A message is silent unless it makes its sender leave. -/
theorem handlePlayerMessage_silent_or_leaves (room : Room) (id : PlayerId)
    (message : PlayerActionMessage) (now : ChronoTimePoint) :
    Silent room (room.handlePlayerMessage id message now) ∨
      room.handlePlayerMessage id message now = room.removePlayer id := by
  unfold handlePlayerMessage
  cases hg : room.getPlayerById id with
  | none => exact Or.inl (silent_unchanged room)
  | some found =>
    obtain ⟨slot, player⟩ := found
    cases message with
    | setReadyState isReady =>
      left
      simp only [handlePlayerSetReadyStateMessage]
      by_cases hs : room.gameplayState = .waitingPlayers
      · rw [if_neg (not_not.2 hs)]
        exact silent_modifyPlayer room slot _ (broadcast_not_isRound _ rfl)
      · rw [if_pos hs]
        exact silent_unchanged room
    | notifyCanPlay => exact Or.inl (silent_modifyPlayer room slot _ (by simp))
    | playerInput inputPressed timeToPress =>
      exact Or.inl (silent_modifyPlayer room slot _ (by simp))
    | setReplayReadyState isReadyToReplay =>
      exact Or.inl (silent_modifyPlayer room slot _ (broadcast_not_isRound _ rfl))
    | leaveGame =>
      right
      have hid : player.id = id := (getPlayerById_eq_some hg).2
      simp only [handlePlayerLeaveGameMessage, hid]
    | joinGame nickname gameDifficulty => exact Or.inl (silent_unchanged room)

theorem stepConforms_of_silent {e : Event} {outcome : Room × List BrokerCall}
    (hstep : room.step e = .ok outcome) (h : Silent room outcome) : StepConforms room e := by
  refine ⟨outcome.1, outcome.2, [], hstep, ?_, by simp, fun _ => rfl, trivial,
    h.gameplayState.symm, by simp⟩
  rw [List.filter_eq_nil_iff.2 fun c hc => by simp [h.calls c hc]]
  rfl

theorem recipients_eq_nil_iff : room.recipients = [] ↔ room.isEmpty = true := by
  unfold Room.recipients isEmpty
  cases hp : room.players with
  | mk P1 P2 => cases P1 <;> cases P2 <;> simp

/-- Outside the lobby somebody stays behind when a player leaves. -/
theorem waitingPlayers_of_removePlayer_isEmpty (h : WellFormed room) {id : PlayerId}
    (hempty : (room.removePlayer id).1.isEmpty = true) :
    room.gameplayState = .waitingPlayers := by
  by_cases hs : room.gameplayState = .waitingPlayers
  · exact hs
  · obtain ⟨p1, p2, hp⟩ := h.full hs
    unfold removePlayer at hempty
    cases hg : room.getPlayerById id with
    | none => simp [hg, isEmpty, hp] at hempty
    | some found =>
      simp only [hg, isEmpty, hp, Players.map] at hempty
      cases ha : found.2.assignment <;> simp [ha, Players.set] at hempty

theorem removePlayer_conforms (h : WellFormed room) {e : Event} {id : PlayerId}
    (hstep : room.step e = .ok (room.removePlayer id)) : StepConforms room e := by
  cases hg : room.getPlayerById id with
  | none =>
    apply stepConforms_of_silent hstep
    rw [removePlayer, hg]
    exact silent_unchanged room
  | some found =>
    by_cases hempty : (room.removePlayer id).1.isEmpty = true
    · refine ⟨(room.removePlayer id).1, (room.removePlayer id).2, [], hstep, ?_, by simp,
        fun _ => rfl, trivial, ?_, by simp⟩
      · have hnil := recipients_eq_nil_iff.2 hempty
        simp only [removePlayer, hg] at hnil ⊢
        rw [broadcastGameplayMessage_eq, hnil]
        rfl
      · rw [Monitor.after_nil, waitingPlayers_of_removePlayer_isEmpty h hempty]
        simp [removePlayer, hg]
    · refine ⟨(room.removePlayer id).1, (room.removePlayer id).2,
        [.playerLeftRoom found.2.assignment], hstep, ?_, by simp [GameplayMessage.isRound],
        fun he => absurd he hempty, by simp [Room.protocol],
        by simp [Room.protocol, removePlayer, hg], by simp [GameplayMessage.isForBoth]⟩
      have hself := filter_isRound_broadcastAll (room.removePlayer id).1
        [.playerLeftRoom found.2.assignment] (by simp [GameplayMessage.isRound])
      simp only [removePlayer, hg, broadcastAll_singleton] at hself ⊢
      rw [List.filter_cons_of_neg (by simp [BrokerCall.isRound]), hself]

theorem step_conforms (h : WellFormed room) (e : Event) : StepConforms room e := by
  cases e with
  | addPlayer id nickname => exact stepConforms_of_silent rfl (addPlayer_silent room id nickname)
  | removePlayer id => exact removePlayer_conforms h rfl
  | handlePlayerMessage id message now =>
    rcases handlePlayerMessage_silent_or_leaves room id message now with hs | hl
    · exact stepConforms_of_silent rfl hs
    · exact removePlayer_conforms h (congrArg Except.ok hl)
  | tick clock draw => exact tick_conforms h clock draw

/-! ## Runs conform -/

theorem rounds_of_wellFormed (h : WellFormed room) (events : List Event) :
    ∃ bs room', Rounds room events bs room' ∧
      protocol.Accepts room.gameplayState (bs.map Prod.snd) ∧
      ∀ b ∈ bs, b.2.isForBoth = true → ∃ p1 p2, b.1.players = ⟨some p1, some p2⟩ := by
  induction events generalizing room with
  | nil => exact ⟨[], room, .nil room, trivial, by simp⟩
  | cons e events ih =>
    obtain ⟨room₁, calls, ms, hstep, hcalls, hround, hempty, hacc, hafter, hfull⟩ :=
      step_conforms h e
    obtain ⟨bs, room₂, hrounds, hacc', hfull'⟩ := ih (step_wellFormed h hstep)
    refine ⟨ms.map (room₁, ·) ++ bs, room₂, .cons hstep hcalls hround hempty hrounds, ?_, ?_⟩
    · have hsnd : (ms.map (room₁, ·)).map Prod.snd = ms := by
        rw [List.map_map]
        exact List.map_id ms
      rw [List.map_append, hsnd, Monitor.accepts_append, hafter]
      exact ⟨hacc, hacc'⟩
    · intro b hb hboth
      rcases List.mem_append.1 hb with hb | hb
      · obtain ⟨m, hm, rfl⟩ := List.mem_map.1 hb
        exact hfull m hm hboth
      · exact hfull' b hb hboth

/-- The round broadcasts of every run follow the automaton from the lobby on, and every start,
input request and game over is published once to each of the two occupied slots. -/
theorem rounds_conform (config : RoomConfig) (events : List Event) :
    ∃ bs room, Rounds (new config) events bs room ∧
      protocol.Accepts .waitingPlayers (bs.map Prod.snd) ∧
      ∀ b ∈ bs, b.2.isForBoth = true → ∃ p1 p2, b.1.players = ⟨some p1, some p2⟩ ∧
        b.1.broadcastGameplayMessage b.2 =
          [.publishGameplayMessage p1.id b.2, .publishGameplayMessage p2.id b.2] := by
  obtain ⟨bs, room, hrounds, hacc, hfull⟩ := rounds_of_wellFormed (wellFormed_new config) events
  refine ⟨bs, room, hrounds, hacc, fun b hb hboth => ?_⟩
  obtain ⟨p1, p2, hp⟩ := hfull b hb hboth
  exact ⟨p1, p2, hp, by simp [broadcastGameplayMessage, hp]⟩

end Room
end SamuraiKirby
