/-
What a lobby leaves to the round it starts.

Only `SET_READY_STATE` asks in which phase the room is.  An input or a
`NOTIFY_CAN_PLAY` handled in the lobby stays with its player, and the next round
finds it there.  The `residue` of a player is what a round can find, and
`lobby_isolated` says that a round depends on nothing else that came before its
start, and on all of that.
-/
import SamuraiKirby.Room.Observation

namespace SamuraiKirby

/-- What a player in the lobby brings into a round. -/
def Player.residue (p : Player) : Bool × Option (GameplayInput × Int × ChronoTimePoint) :=
  (p.canPlay, p.recordedPress)

namespace Room

open Transition

/-- The next tick broadcasts `ALL_READY_GAME_STARTING`. -/
def StartsRound (room : Room) : Prop :=
  room.gameplayState = .waitingPlayers ∧ room.isEveryoneReady = true

def SamePlayers (room room' : Room) : Prop :=
  ∀ a, (room'.players.get a).map (fun p => (p.id, p.nickname)) =
    (room.players.get a).map (fun p => (p.id, p.nickname))

def SameResidue (room room' : Room) : Prop :=
  ∀ a, (room'.players.get a).map Player.residue = (room.players.get a).map Player.residue

/-- The two rooms start rounds that show the same, whatever comes after the start. -/
def SameRound (room room' : Room) : Prop :=
  ∀ clock draw events, room.roundCalls (.tick clock draw :: events) =
    room'.roundCalls (.tick clock draw :: events)

variable {clock : Readings} {draw : Nat} {room room' : Room} {calls : List BrokerCall}
  {a : PlayerAssignment} {p q : Player}

/-! ## The start of a round -/

def started (room : Room) : Room := { room with gameplayState := .started }

theorem tick_starts (h : room.StartsRound) :
    room.step (.tick clock draw) =
      .ok (room.started, room.broadcastGameplayMessage .allReadyGameStarting) := by
  have hcall : room.handleEveryoneReady =
      .ok (room.started, room.broadcastGameplayMessage .allReadyGameStarting) := by
    simp [handleEveryoneReady, h.1, h.2, broadcastGameplayMessage, started]
  rw [step, tick, h.1]
  exact (run_singleton _ _).trans hcall

theorem roundCalls_start (h : room.StartsRound) (events : List Event) :
    room.roundCalls (.tick clock draw :: events) =
      room.broadcastGameplayMessage .allReadyGameStarting :: room.started.roundCalls events := by
  rw [roundCalls_cons (tick_starts h), if_pos (by simp [inRound, started])]

theorem StartsRound.exists_seated (h : room.StartsRound) (a : PlayerAssignment) :
    ∃ p q, room = room.seated a p q := by
  obtain ⟨p1, p2, hp, -, -⟩ := bothPlayers_eq_true.1 h.2
  exact Room.exists_seated hp a

theorem StartsRound.isReady (h : room.StartsRound) (hp : room.players.get a = some p) :
    p.isReady = true := of_bothPlayers h.2 hp

/-! ## The same residue -/

/-- Rooms about to start a round with the same players and residue are alike. -/
theorem alike_of_sameResidue (hw : WellFormed room) (hw' : WellFormed room')
    (hc : room'.config = room.config) (hl : LobbyCleared room) (hl' : LobbyCleared room')
    (h : room.StartsRound) (h' : room'.StartsRound) (hsame : SamePlayers room room')
    (hres : SameResidue room room') : Alike False room room' where
  rest := by
    obtain ⟨h1, h2, h3⟩ := hl h.1
    obtain ⟨h1', h2', h3'⟩ := hl' h'.1
    have hs := h.1
    have hs' := h'.1
    cases room
    cases room'
    simp_all
  players a := by
    obtain ⟨p, q, hseated⟩ := h.exists_seated a
    obtain ⟨p', q', hseated'⟩ := h'.exists_seated a
    have hp := (get_of_seated hseated).1
    have hp' := (get_of_seated hseated').1
    have hid := hsame a
    have hr := hres a
    rw [hp, hp'] at hid hr ⊢
    simp only [Option.map_some, Option.some.injEq, Prod.mk.injEq, Player.residue] at hid hr
    obtain ⟨hpress, htime, hhandled⟩ :=
      (hw.paired a p hp).eq_of_recordedPress_eq (hw'.paired a p' hp') hr.2
    exact .some
      { id := hid.1
        nickname := hid.2
        assignment := (hw'.slot a p' hp').trans (hw.slot a p hp).symm
        isReady := (h'.isReady hp').trans (h.isReady hp).symm
        canPlay := hr.1
        isReadyToReplay := False.elim
        inputPressed := hpress
        timeToPress := htime
        handled := hhandled }

/-! ## What a round tells -/

/-- The two ticks of a probe tell whether there is an input to judge. -/
theorem length_roundCalls_probe {reference now : ChronoTimePoint}
    (hs : room.gameplayState = .started)
    (hd : room.config.secondsBeforeInputRequest < 2147483648)
    (href : room.everyoneCanPlayAt.getD reference = reference) (hpair : p.Paired) :
    ((room.seated a p.notify (q.press .north 0 now).notify).roundCalls
      [.tick (.lateAfter reference) 0, .tick (.lateAfter reference) 0]).length =
        if p.recordedPress.isSome then 2 else 1 := by
  cases hr : p.recordedPress with
  | none =>
    have hi := hpair.inputPressed_eq_none_iff.2 hr
    obtain ⟨calls, hone⟩ := @roundCalls_unpressed room a p.notify (q.press .north 0 now).notify
      reference hs hd href rfl rfl hi rfl
    rw [hone]
    rfl
  | some r =>
    obtain ⟨i, t, s⟩ := r
    obtain ⟨hi, -, hs'⟩ := Player.recordedPress_eq_some_iff.1 hr
    rw [@roundCalls_pressed room a p.notify (q.press .north 0 now).notify reference i s now hi hs'
      .north hs hd href rfl rfl rfl rfl]
    rfl

section Told

variable {p' q' : Player} {reference : ChronoTimePoint} (hs : room.gameplayState = .started)
  (hs' : room'.gameplayState = .started)
  (hd : room.config.secondsBeforeInputRequest < 2147483648)
  (hd' : room'.config.secondsBeforeInputRequest < 2147483648)
  (href : room.everyoneCanPlayAt.getD reference = reference)
  (href' : room'.everyoneCanPlayAt.getD reference = reference) (hid : p.id ≠ q.id)
  (hp : p'.id = p.id) (hq : q'.id = q.id)
  (h : ∀ events, (room.seated a p q).roundCalls events = (room'.seated a p' q').roundCalls events)
include hs hs' hd hd' href href' hid hp hq h

/-- Rounds that show the same have the same answer to who can play. -/
theorem canPlay_eq_of_roundCalls : p'.canPlay = p.canPlay := by
  have hid' : p'.id ≠ q'.id := by rwa [hp, hq]
  have hprobe := h (playProbe p.id q.id reference)
  have htold := @roundCalls_playProbe room' a p' q' reference hs' hid' hd' href'
  rw [hp, hq] at htold
  rw [roundCalls_playProbe hs hid hd href, htold] at hprobe
  have hne : ∀ (r : Room) (p q : Player) (m : GameplayMessage),
      (r.seated a p q).broadcastGameplayMessage m ≠ [] := by
    intro r p q m
    cases a <;> simp [broadcastGameplayMessage, seated, Players.pair]
  cases hc : p.canPlay <;> cases hc' : p'.canPlay <;> simp [hc, hc', hne] at hprobe ⊢

theorem recordedPress_eq_of_roundCalls (hpair : p.Paired) (hpair' : p'.Paired) :
    p'.recordedPress = p.recordedPress := by
  have hid' : p'.id ≠ q'.id := by rwa [hp, hq]
  -- the probe, up to its two ticks
  have hprobe : ∀ now,
      (room.seated a p.notify (q.press .north 0 now).notify).roundCalls
          [.tick (.lateAfter reference) 0, .tick (.lateAfter reference) 0] =
        (room'.seated a p'.notify (q'.press .north 0 now).notify).roundCalls
          [.tick (.lateAfter reference) 0, .tick (.lateAfter reference) 0] := by
    intro now
    have htold := h (pressProbe p.id q.id reference now)
    have hshow := @roundCalls_pressProbe room' a p' q' reference now (by simp [inRound, hs']) hid'
    rw [hp, hq] at hshow
    rw [roundCalls_pressProbe (by simp [inRound, hs]) hid, hshow] at htold
    simpa using htold
  have hsome : p'.recordedPress.isSome = p.recordedPress.isSome := by
    have hlen := congrArg List.length (hprobe 0)
    rw [length_roundCalls_probe hs hd href hpair, length_roundCalls_probe hs' hd' href' hpair'] at hlen
    cases hr : p.recordedPress.isSome <;> cases hr' : p'.recordedPress.isSome <;>
      simp [hr, hr'] at hlen ⊢
  cases hr : p.recordedPress with
  | none =>
    rw [hr] at hsome
    exact Option.not_isSome_iff_eq_none.1 (by simp [hsome])
  | some r =>
    rw [hr] at hsome
    obtain ⟨r', hr'⟩ := Option.isSome_iff_exists.1 hsome
    obtain ⟨i, t, s⟩ := r
    obtain ⟨i', t', s'⟩ := r'
    obtain ⟨hi, -, hh⟩ := Player.recordedPress_eq_some_iff.1 hr
    obtain ⟨hi', -, hh'⟩ := Player.recordedPress_eq_some_iff.1 hr'
    -- the other player's input is handled at the same time as the first one of `p`
    have htie := hprobe s
    rw [@roundCalls_pressed room a p.notify (q.press .north 0 s).notify reference i s s hi hh
        .north hs hd href rfl rfl rfl rfl,
      @roundCalls_pressed room' a p'.notify (q'.press .north 0 s).notify reference i' s' s hi' hh'
        .north hs' hd' href' rfl rfl rfl rfl] at htie
    simp only [List.cons.injEq, and_true] at htie
    have hsame : p'.notify.recordedPress = p.notify.recordedPress :=
      recordedPress_eq_of_tie hr hr' htie.2
    exact hsame.trans hr

end Told

/-! ## Isolation -/

theorem sameResidue_of_sameRound (hw : WellFormed room) (hw' : WellFormed room')
    (hl : LobbyCleared room) (hl' : LobbyCleared room')
    (hd : room.config.secondsBeforeInputRequest < 2147483648)
    (hd' : room'.config.secondsBeforeInputRequest < 2147483648) (h : room.StartsRound)
    (h' : room'.StartsRound) (hids : DistinctIds room) (hsame : SamePlayers room room')
    (hround : SameRound room room') : SameResidue room room' := by
  intro a
  obtain ⟨p, q, hseated⟩ := h.exists_seated a
  obtain ⟨p', q', hseated'⟩ := h'.exists_seated a
  obtain ⟨hp, hq⟩ := get_of_seated hseated
  obtain ⟨hp', hq'⟩ := get_of_seated hseated'
  have hid := hsame a
  have hid' := hsame a.other
  rw [hp, hp'] at hid
  rw [hq, hq'] at hid'
  simp only [Option.map_some, Option.some.injEq, Prod.mk.injEq] at hid hid'
  have hstarted : room.started = room.started.seated a p q := congrArg started hseated
  have hstarted' : room'.started = room'.started.seated a p' q' := congrArg started hseated'
  have hshow : ∀ events, (room.started.seated a p q).roundCalls events =
      (room'.started.seated a p' q').roundCalls events := by
    intro events
    have hevents := hround (.const 0) 0 events
    rw [roundCalls_start h, roundCalls_start h', hstarted, hstarted'] at hevents
    exact (List.cons.inj hevents).2
  have hdelay : room.started.config.secondsBeforeInputRequest < 2147483648 := hd
  have hdelay' : room'.started.config.secondsBeforeInputRequest < 2147483648 := hd'
  have href : room.started.everyoneCanPlayAt.getD 0 = 0 := by
    rw [started, (hl h.1).2.1]
    rfl
  have href' : room'.started.everyoneCanPlayAt.getD 0 = 0 := by
    rw [started, (hl' h'.1).2.1]
    rfl
  have hplay : p'.canPlay = p.canPlay :=
    canPlay_eq_of_roundCalls rfl rfl hdelay hdelay' href href' (hids a p q hp hq) hid.1 hid'.1
      hshow
  have hpress : p'.recordedPress = p.recordedPress :=
    recordedPress_eq_of_roundCalls rfl rfl hdelay hdelay' href href' (hids a p q hp hq) hid.1
      hid'.1 hshow (hw.paired a p hp) (hw'.paired a p' hp')
  rw [hp, hp', Option.map_some, Option.map_some, Player.residue, Player.residue, hplay, hpress]

/-- The round that two lobbies with the same players start is the same whatever follows if they
leave the same residue, and if the two ids differ only then. -/
theorem lobby_isolated {config : RoomConfig} {events₁ events₂ : List Event} {room₁ room₂ : Room}
    {calls₁ calls₂ : List BrokerCall}
    (hrun₁ : run step (new config) events₁ = .ok (room₁, calls₁))
    (hrun₂ : run step (new config) events₂ = .ok (room₂, calls₂)) (h₁ : room₁.StartsRound)
    (h₂ : room₂.StartsRound) (hsame : SamePlayers room₁ room₂) :
    (SameResidue room₁ room₂ → SameRound room₁ room₂) ∧
      (DistinctIds room₁ → config.secondsBeforeInputRequest < 2147483648 →
        SameRound room₁ room₂ → SameResidue room₁ room₂) := by
  have hw₁ := run_wellFormed hrun₁
  have hw₂ := run_wellFormed hrun₂
  have hl₁ := run_lobbyCleared hrun₁
  have hl₂ := run_lobbyCleared hrun₂
  have hc₁ := run_config hrun₁
  have hc₂ := run_config hrun₂
  constructor
  · intro hres clock draw events
    refine (alike_of_sameResidue hw₁ hw₂ (hc₂.trans hc₁.symm) hl₁ hl₂ h₁ h₂ hsame
      hres).roundCalls hw₁ hw₂ ?_ _
    rw [h₁.1]
    decide
  · intro hids hd hround
    exact sameResidue_of_sameRound hw₁ hw₂ hl₁ hl₂ (by rwa [hc₁]) (by rwa [hc₂]) h₁ h₂ hids hsame
      hround

/-- Player 2 leaves a round, `stray` is handled in the lobby, and player 3 comes and is ready. -/
def rematch (stray : List Event) : List Event :=
  [.addPlayer 1 [], .addPlayer 2 [], .handlePlayerMessage 1 (.setReadyState true) 0,
    .handlePlayerMessage 2 (.setReadyState true) 0, .tick (.const 0) 0,
    .handlePlayerMessage 2 .leaveGame 1] ++ stray ++
  [.addPlayer 3 [], .handlePlayerMessage 3 (.setReadyState true) 3]

/-- Player 1 stayed, player 3 has come. -/
def rematchRoom (stayed : Player) : Room where
  config := quickConfig
  players := ⟨some stayed, some { id := 3, nickname := [], assignment := .P2, isReady := true }⟩

def stayed : Player := { id := 1, nickname := [], assignment := .P1, isReady := true }

/-- A wish to replay leaves nothing behind, an input does. -/
theorem lobby_isolated_rematch :
    SameRound (rematchRoom stayed) (rematchRoom { stayed with isReadyToReplay := true }) ∧
      ¬ SameRound (rematchRoom stayed) (rematchRoom (stayed.press .south 200 2)) := by
  have hrun : ∃ calls, run step (new quickConfig) (rematch []) =
      .ok (rematchRoom stayed, calls) := ⟨_, rfl⟩
  have hreplay : ∃ calls, run step (new quickConfig)
      (rematch [.handlePlayerMessage 1 (.setReplayReadyState true) 2]) =
        .ok (rematchRoom { stayed with isReadyToReplay := true }, calls) := ⟨_, rfl⟩
  have hpress : ∃ calls, run step (new quickConfig)
      (rematch [.handlePlayerMessage 1 (.playerInput .south 200) 2]) =
        .ok (rematchRoom (stayed.press .south 200 2), calls) := ⟨_, rfl⟩
  obtain ⟨calls₁, h₁⟩ := hrun
  obtain ⟨calls₂, h₂⟩ := hreplay
  obtain ⟨calls₃, h₃⟩ := hpress
  constructor
  · refine (lobby_isolated h₁ h₂ ⟨rfl, rfl⟩ ⟨rfl, rfl⟩ ?_).1 ?_
    · intro a
      cases a <;> rfl
    · intro a
      cases a <;> rfl
  · intro hround
    have hres : SameResidue (rematchRoom stayed) (rematchRoom (stayed.press .south 200 2)) := by
      refine (lobby_isolated h₁ h₃ ⟨rfl, rfl⟩ ⟨rfl, rfl⟩ ?_).2 ?_ (by decide) hround
      · intro a
        cases a <;> rfl
      · intro a p q hp hq
        cases a <;> cases hp <;> cases hq <;> decide
    exact absurd (hres .P1) (by decide)

/-- A message handled in the lobby although it belongs to a round. -/
def isStray (m : Move Room Event BrokerCall) : Bool :=
  decide (m.before.gameplayState = .waitingPlayers) &&
    match m.input with
    | .handlePlayerMessage _ .notifyCanPlay _ => true
    | .handlePlayerMessage _ (.playerInput _ _) _ => true
    | .handlePlayerMessage _ (.setReplayReadyState _) _ => true
    | _ => false

def withoutStrays (config : RoomConfig) (events : List Event) : List Event :=
  ((moves step (new config) events).filter fun m => !isStray m).map (·.input)

theorem in_flight_input_loses :
    ¬ ∀ (config : RoomConfig) (events₁ events₂ : List Event) (room₁ room₂ : Room)
        (calls₁ calls₂ : List BrokerCall),
      run step (new config) events₁ = .ok (room₁, calls₁) →
      run step (new config) events₂ = .ok (room₂, calls₂) →
      room₁.StartsRound → room₂.StartsRound → SamePlayers room₁ room₂ →
      withoutStrays config events₁ = withoutStrays config events₂ → SameRound room₁ room₂ := by
  intro hall
  have hround : SameRound (rematchRoom stayed) (rematchRoom (stayed.press .south 200 2)) :=
    hall quickConfig (rematch [])
      (rematch [.handlePlayerMessage 1 (.playerInput .south 200) 2]) _ _ _ _ rfl rfl ⟨rfl, rfl⟩
      ⟨rfl, rfl⟩ (by intro a; cases a <;> rfl) (by decide)
  exact absurd (hround (.const 4) 0 [.tick (.const 5) 0]) (by decide)

end Room
end SamuraiKirby
