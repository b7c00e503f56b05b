/-
What a round shows.

`roundCalls` is everything a room publishes until its round ends, and `verdict`
is when the round ends and with which game over.  They are what two rooms are
compared by: alike rooms show the same (`Alike.roundCalls`), and the probes at
the end of the file are events chosen so that a round shows what the room has
recorded of a player.
-/
import SamuraiKirby.Room.Alike

namespace SamuraiKirby

/-- The button, the declared time and the clock reading of the input recorded for a player. -/
def Player.recordedPress (p : Player) : Option (GameplayInput × Int × ChronoTimePoint) :=
  match p.inputPressed, p.timeToPress, p.inputPressedAtServerTime with
  | some i, some t, some s => some (i, t, s)
  | _, _, _ => none

namespace Player

variable {p : Player} {i : GameplayInput} {t : Int} {s : ChronoTimePoint}

theorem recordedPress_eq_some_iff : p.recordedPress = some (i, t, s) ↔
    p.inputPressed = some i ∧ p.timeToPress = some t ∧ p.inputPressedAtServerTime = some s := by
  unfold recordedPress
  cases p.inputPressed <;> cases p.timeToPress <;> cases p.inputPressedAtServerTime <;> simp

theorem Paired.recordedPress_isSome (h : p.Paired) :
    p.recordedPress.isSome = p.inputPressed.isSome := by
  have hd := h.declared
  have hh := h.handled
  unfold recordedPress
  cases hi : p.inputPressed <;> cases ht : p.timeToPress <;>
    cases hs : p.inputPressedAtServerTime <;> simp_all

theorem Paired.inputPressed_eq_none_iff (h : p.Paired) :
    p.inputPressed = none ↔ p.recordedPress = none := by
  rw [← Option.not_isSome_iff_eq_none, ← Option.not_isSome_iff_eq_none, h.recordedPress_isSome]

theorem Paired.timeToPress_eq_none (h : p.Paired) (hp : p.inputPressed = none) :
    p.timeToPress = none := by
  have hd := h.declared
  rw [hp] at hd
  simpa using hd

/-- Players with the same recorded input are alike as far as inputs go. -/
theorem Paired.eq_of_recordedPress_eq {q : Player} (hp : p.Paired) (hq : q.Paired)
    (h : q.recordedPress = p.recordedPress) :
    q.inputPressed = p.inputPressed ∧ q.timeToPress = p.timeToPress ∧
      (p.inputPressed.isSome → q.inputPressedAtServerTime = p.inputPressedAtServerTime) := by
  cases hr : p.recordedPress with
  | none =>
    have hi := hp.inputPressed_eq_none_iff.2 hr
    have hi' := hq.inputPressed_eq_none_iff.2 (h.trans hr)
    refine ⟨hi'.trans hi.symm, ?_, fun hsome => ?_⟩
    · rw [hp.timeToPress_eq_none hi, hq.timeToPress_eq_none hi']
    · rw [hi] at hsome
      cases hsome
  | some r =>
    obtain ⟨i, t, s⟩ := r
    obtain ⟨h1, h2, h3⟩ := recordedPress_eq_some_iff.1 hr
    obtain ⟨h1', h2', h3'⟩ := recordedPress_eq_some_iff.1 (h.trans hr)
    rw [h1, h2, h3, h1', h2', h3']
    exact ⟨rfl, rfl, fun _ => rfl⟩

/-- What `PLAYER_INPUT` writes to its sender. -/
def press (p : Player) (i : GameplayInput) (t : Int) (s : ChronoTimePoint) : Player :=
  { p with inputPressed := some i, timeToPress := some t, inputPressedAtServerTime := some s }

/-- What `NOTIFY_CAN_PLAY` writes to its sender. -/
def notify (p : Player) : Player := { p with canPlay := true }

@[simp] theorem press_id : (p.press i t s).id = p.id := rfl

end Player

/-- The two slots seen from one of them. -/
def Players.pair (a : PlayerAssignment) (p q : Player) : Players :=
  match a with
  | .P1 => ⟨some p, some q⟩
  | .P2 => ⟨some q, some p⟩

theorem Players.pair_other (a : PlayerAssignment) (p q : Player) :
    Players.pair a.other q p = Players.pair a p q := by
  cases a <;> rfl

@[simp] theorem Players.get_pair (a : PlayerAssignment) (p q : Player) :
    (Players.pair a p q).get a = some p := by
  cases a <;> rfl

@[simp] theorem Players.modify_pair (a : PlayerAssignment) (p q : Player) (f : Player → Player) :
    (Players.pair a p q).modify a f = Players.pair a (f p) q := by
  cases a <;> rfl

/-! ## The latest reading -/

/-- As late as `int` seconds can tell after a moment. -/
def Readings.lateAfter (reference : ChronoTimePoint) : Readings :=
  { everyoneCanPlay := reference
    beforeInputRequest := reference + 2147483647 * nanosecondsPerSecond
    readyForInput := reference
    onePlayerPlayed := reference
    timeout := reference }

theorem getSecondsSince_lateAfter (reference : ChronoTimePoint) :
    getSecondsSince (Readings.lateAfter reference).beforeInputRequest reference = 2147483647 := by
  have hdiff : (Readings.lateAfter reference).beforeInputRequest - reference =
      2147483647 * nanosecondsPerSecond := by
    rw [Readings.lateAfter, Int.add_comm, Int.add_sub_cancel]
  rw [getSecondsSince, hdiff]
  decide

def BrokerCall.isGameOver : BrokerCall → Bool
  | .publishGameplayMessage _ m => m.gameResult?.isSome
  | _ => false

namespace Room

open Transition

def inRound (room : Room) : Bool :=
  decide (room.gameplayState = .started ∨ room.gameplayState = .expectingInput)

/-- What is published with each event, up to the event with which the round ends. -/
def roundCalls : Room → List Event → List (List BrokerCall)
  | _, [] => []
  | room, e :: events =>
    match room.step e with
    | .error _ => []
    | .ok (room', calls) => calls :: if room'.inRound then roundCalls room' events else []

def Event.ticks : Event → Nat
  | .tick _ _ => 1
  | _ => 0

/-- How many ticks the round survives, and the game over it ends with. -/
def verdict : Room → List Event → Option (Nat × List BrokerCall)
  | _, [] => none
  | room, e :: events =>
    match room.step e with
    | .error _ => none
    | .ok (room', calls) =>
      if room'.inRound then (verdict room' events).map fun v => (v.1 + e.ticks, v.2)
      else some (0, calls.filter BrokerCall.isGameOver)

variable {clock : Readings} {draw : Nat} {room room' : Room} {e : Event} {events : List Event}
  {calls : List BrokerCall} {a : PlayerAssignment} {p q : Player}

theorem roundCalls_cons (h : room.step e = .ok (room', calls)) (events : List Event) :
    room.roundCalls (e :: events) =
      calls :: if room'.inRound then room'.roundCalls events else [] := by
  simp only [roundCalls, h]

theorem roundCalls_singleton (h : room.step e = .ok (room', calls)) :
    room.roundCalls [e] = [calls] := by
  rw [roundCalls_cons h, roundCalls, ite_self]

theorem verdict_cons (h : room.step e = .ok (room', calls)) (events : List Event) :
    room.verdict (e :: events) =
      if room'.inRound then (room'.verdict events).map fun v => (v.1 + e.ticks, v.2)
      else some (0, calls.filter BrokerCall.isGameOver) := by
  simp only [verdict, h]

theorem not_over_of_inRound (h : room.inRound = true) : room.gameplayState ≠ .over := by
  intro hs
  simp [inRound, hs] at h

/-- Rooms that agree on all but the wishes to replay show the same round. -/
theorem Alike.roundCalls (hw : WellFormed room) (hw' : WellFormed room')
    (h : Alike False room room') (hs : room.gameplayState ≠ .over) (events : List Event) :
    room.roundCalls events = room'.roundCalls events := by
  induction events generalizing room room' with
  | nil => rfl
  | cons e events ih =>
    have hlock := step_lockstep hw hw' h (fun hover => absurd hover hs) e
    obtain ⟨r, calls, hstep⟩ := step_ok hw e
    obtain ⟨r', calls', hstep'⟩ := step_ok hw' e
    rw [hstep, hstep'] at hlock
    cases hlock with
    | ok _ hr =>
      rw [roundCalls_cons hstep, roundCalls_cons hstep']
      have hround : r'.inRound = r.inRound := by rw [inRound, inRound, hr.gameplayState]
      rw [hround]
      by_cases hin : r.inRound = true
      · rw [if_pos hin, if_pos hin,
          ih (step_wellFormed hw hstep) (step_wellFormed hw' hstep') hr (not_over_of_inRound hin)]
      · rw [if_neg hin, if_neg hin]

/-! ## Full rooms seen from one slot -/

/-- The room with `p` in slot `a` and `q` in the other. -/
def seated (room : Room) (a : PlayerAssignment) (p q : Player) : Room :=
  { room with players := .pair a p q }

theorem seated_other (room : Room) (a : PlayerAssignment) (p q : Player) :
    room.seated a.other q p = room.seated a p q := by
  rw [seated, seated, Players.pair_other]

@[simp] theorem seated_gameplayState : (room.seated a p q).gameplayState = room.gameplayState := rfl

theorem bothPlayers_seated (test : Player → Bool) :
    (room.seated a p q).bothPlayers test = (test p && test q) := by
  cases a
  · rfl
  · exact Bool.and_comm ..

theorem exists_seated {p1 p2 : Player} (h : room.players = ⟨some p1, some p2⟩)
    (a : PlayerAssignment) : ∃ p q, room = room.seated a p q := by
  cases a with
  | P1 => exact ⟨p1, p2, by rw [seated, Players.pair, ← h]⟩
  | P2 => exact ⟨p2, p1, by rw [seated, Players.pair, ← h]⟩

theorem get_of_seated (h : room = room.seated a p q) :
    room.players.get a = some p ∧ room.players.get a.other = some q := by
  rw [h]
  refine ⟨Players.get_pair a p q, ?_⟩
  rw [seated, ← Players.pair_other]
  exact Players.get_pair a.other q p

def DistinctIds (room : Room) : Prop :=
  ∀ a p q, room.players.get a = some p → room.players.get a.other = some q → p.id ≠ q.id

theorem getPlayerById_seated (hid : p.id ≠ q.id) :
    (room.seated a p q).getPlayerById p.id = some (a, p) := by
  cases a with
  | P1 => simp [getPlayerById, seated, Players.pair, Option.filter]
  | P2 => simp [getPlayerById, seated, Players.pair, Option.filter, hid.symm]

theorem modifyPlayer_seated (f : Player → Player) :
    (room.seated a p q).modifyPlayer a f = room.seated a (f p) q := by
  simp only [modifyPlayer, seated, Players.modify_pair]

section Messages

variable (room : Room) (a : PlayerAssignment) (hid : p.id ≠ q.id)
include hid

theorem step_press (i : GameplayInput) (t : Int) (s : ChronoTimePoint) :
    (room.seated a p q).step (.handlePlayerMessage p.id (.playerInput i t) s) =
      .ok (room.seated a (p.press i t s) q, []) := by
  simp only [step, handlePlayerMessage, getPlayerById_seated hid]
  rw [handlePlayerInputMessage, modifyPlayer_seated]
  rfl

theorem step_notify (s : ChronoTimePoint) :
    (room.seated a p q).step (.handlePlayerMessage p.id .notifyCanPlay s) =
      .ok (room.seated a p.notify q, []) := by
  simp only [step, handlePlayerMessage, getPlayerById_seated hid]
  rw [handlePlayerNotifyCanPlayMessage, modifyPlayer_seated]
  rfl

theorem step_press_other (i : GameplayInput) (t : Int) (s : ChronoTimePoint) :
    (room.seated a p q).step (.handlePlayerMessage q.id (.playerInput i t) s) =
      .ok (room.seated a p (q.press i t s), []) := by
  have h := step_press room a.other hid.symm i t s
  rwa [seated_other, seated_other] at h

theorem step_notify_other (s : ChronoTimePoint) :
    (room.seated a p q).step (.handlePlayerMessage q.id .notifyCanPlay s) =
      .ok (room.seated a p q.notify, []) := by
  have h := step_notify room a.other hid.symm s
  rwa [seated_other, seated_other] at h

end Messages

/-! ## Ticks of full rooms -/

/-- The room that expects an input after a tick. -/
def requested (room : Room) (clock : Readings) (draw : Nat) : Room :=
  { room with
    gameplayState := .expectingInput
    everyoneCanPlayAt := some (room.everyoneCanPlayAt.getD clock.everyoneCanPlay)
    readyForInputAt := some clock.readyForInput
    expectedInput := room.getRandomGameplayInput draw }

theorem handleEveryoneCanPlay_requests (hs : room.gameplayState = .started)
    (hc : room.everyoneCanPlay = true)
    (hd : room.config.secondsBeforeInputRequest ≤
      getSecondsSince clock.beforeInputRequest
        (room.everyoneCanPlayAt.getD clock.everyoneCanPlay)) :
    room.handleEveryoneCanPlay clock draw =
      .ok (room.requested clock draw, (room.requested clock draw).broadcastGameplayMessage
        (.gameExpectingInput (room.getRandomGameplayInput draw))) := by
  unfold handleEveryoneCanPlay requested
  rw [if_neg (by simp [hs, hc])]
  cases hr : room.everyoneCanPlayAt with
  | none =>
    rw [hr, Option.getD_none] at hd
    simp only [Option.isNone_none, if_true, value_some, ok_bind, ge_iff_le, hd, pure_eq_ok]
    rfl
  | some reference =>
    rw [hr, Option.getD_some] at hd
    simp only [hr, Option.isNone_some, Bool.false_eq_true, if_false, value_some, ok_bind,
      ge_iff_le, hd, if_true, pure_eq_ok]
    rfl

section Delay

variable (hs : room.gameplayState = .started)
  (hd : room.config.secondsBeforeInputRequest ≤ getSecondsSince clock.beforeInputRequest
    (room.everyoneCanPlayAt.getD clock.everyoneCanPlay))
include hs

/-- With both inputs in, nothing happens before both players can play. -/
theorem tick_waits (hc : p.canPlay = false) (hp : p.inputPressed.isSome = true)
    (hq : q.inputPressed.isSome = true) :
    (room.seated a p q).step (.tick clock draw) = .ok (room.seated a p q, []) := by
  have hc' : (room.seated a p q).everyoneCanPlay = false := by
    rw [everyoneCanPlay, bothPlayers_seated, hc]
    rfl
  have he : (room.seated a p q).everyonePlayed = true := by
    rw [everyonePlayed, bothPlayers_seated, hp, hq]
    rfl
  have hwait : (room.seated a p q).handleEveryoneCanPlay clock draw = .ok (room.seated a p q, []) := by
    simp [handleEveryoneCanPlay, hc']
  have hone : (room.seated a p q).handleOnePlayerPlayed clock = .ok (room.seated a p q, []) := by
    simp [handleOnePlayerPlayed, he]
  rw [step, tick, seated_gameplayState, hs]
  refine run_cons_eq_ok.2 ⟨_, [], [], hwait, ?_, rfl⟩
  rw [run_singleton]
  exact hone

include hd

/-- With both inputs in, the tick that requests the input does nothing else. -/
theorem tick_requests (hcp : p.canPlay = true) (hcq : q.canPlay = true)
    (hp : p.inputPressed.isSome = true) (hq : q.inputPressed.isSome = true) :
    (room.seated a p q).step (.tick clock draw) =
      .ok ((room.requested clock draw).seated a p q, (room.seated a p q).broadcastGameplayMessage
        (.gameExpectingInput (room.getRandomGameplayInput draw))) := by
  have hc : (room.seated a p q).everyoneCanPlay = true := by
    rw [everyoneCanPlay, bothPlayers_seated, hcp, hcq]
    rfl
  have he : ((room.requested clock draw).seated a p q).everyonePlayed = true := by
    rw [everyonePlayed, bothPlayers_seated, hp, hq]
    rfl
  have hone : ((room.requested clock draw).seated a p q).handleOnePlayerPlayed clock =
      .ok ((room.requested clock draw).seated a p q, []) := by
    simp [handleOnePlayerPlayed, he]
  rw [step, tick, seated_gameplayState, hs]
  refine run_cons_eq_ok.2 ⟨_, _, [], handleEveryoneCanPlay_requests hs hc hd, ?_,
    (List.append_nil _).symm⟩
  rw [run_singleton]
  exact hone

end Delay

/-- One player has pressed, and it was not the right button. -/
theorem handleOnePlayerPlayed_wrong {p1 p2 : Player} (hs : room.gameplayState = .expectingInput)
    (hp : room.players = ⟨some p1, some p2⟩) (he : room.everyonePlayed = false)
    (hn : room.noOnePlayed = false)
    (hi : ∀ b p, room.players.get b = some p → p.inputPressed ≠ some room.expectedInput) :
    ∃ r, room.handleOnePlayerPlayed clock =
      .ok ({ room with gameplayState := .over },
        room.broadcastGameplayMessage (.gameOverWrongInput r)) := by
  obtain ⟨p, q, i, hone⟩ := exists_onlyPlayed hp he hn
  have hwrong : i ≠ room.expectedInput := by
    rintro rfl
    exact hi _ p hone.player hone.pressed
  have hp1 : room.players.P1 = some p1 := by rw [hp]
  unfold handleOnePlayerPlayed
  rw [if_neg (by simp [hs]), he, hn]
  simp only [hp1, value_some, ok_bind]
  generalize (if p1.inputPressed.isSome = true then PlayerAssignment.P1 else .P2) = a at hone ⊢
  exact ⟨_, by simp [hs, hone.player, hone.pressed, hwrong, buildGameResultDTO_of_full hp]; rfl⟩

theorem seated_players (room : Room) (a : PlayerAssignment) (p q : Player) :
    ∃ p1 p2, (room.seated a p q).players = ⟨some p1, some p2⟩ := by
  cases a with
  | P1 => exact ⟨p, q, rfl⟩
  | P2 => exact ⟨q, p, rfl⟩

theorem broadcast_seated {p' q' : Player} (hp : p'.id = p.id) (hq : q'.id = q.id)
    (m : GameplayMessage) : (room'.seated a p' q').broadcastGameplayMessage m =
      (room.seated a p q).broadcastGameplayMessage m := by
  cases a <;> simp [broadcastGameplayMessage, seated, Players.pair, hp, hq]

theorem of_get_seated {b : PlayerAssignment} {r : Player}
    (h : (room.seated a p q).players.get b = some r) : r = p ∨ r = q := by
  cases a <;> cases b <;> cases h
  · exact Or.inl rfl
  · exact Or.inr rfl
  · exact Or.inr rfl
  · exact Or.inl rfl

/-- With one wrong input in, the tick that requests the input ends the round. -/
theorem tick_requests_wrong {i : GameplayInput} (hs : room.gameplayState = .started)
    (hcp : p.canPlay = true) (hcq : q.canPlay = true) (hp : p.inputPressed = none)
    (hq : q.inputPressed = some i) (hi : i ≠ room.getRandomGameplayInput draw)
    (hd : room.config.secondsBeforeInputRequest ≤
      getSecondsSince clock.beforeInputRequest
        (room.everyoneCanPlayAt.getD clock.everyoneCanPlay)) :
    ∃ room' r, (room.seated a p q).step (.tick clock draw) =
      .ok (room', (room.seated a p q).broadcastGameplayMessage
          (.gameExpectingInput (room.getRandomGameplayInput draw)) ++
        (room.seated a p q).broadcastGameplayMessage (.gameOverWrongInput r)) ∧
      room'.inRound = false := by
  obtain ⟨p1, p2, hplayers⟩ := seated_players (room.requested clock draw) a p q
  have he : ((room.requested clock draw).seated a p q).everyonePlayed = false := by
    rw [everyonePlayed, bothPlayers_seated, hp]
    rfl
  have hn : ((room.requested clock draw).seated a p q).noOnePlayed = false := by
    rw [noOnePlayed, bothPlayers_seated, hq]
    exact Bool.and_false _
  obtain ⟨r, hone⟩ := @handleOnePlayerPlayed_wrong clock _ p1 p2 rfl hplayers he hn (by
    intro b p' hp'
    rcases of_get_seated hp' with rfl | rfl
    · simp [hp]
    · rw [hq]
      exact fun heq => hi (Option.some.inj heq))
  refine ⟨{ (room.seated a p q).requested clock draw with gameplayState := .over }, r, ?_, rfl⟩
  rw [step, tick, seated_gameplayState, hs]
  refine run_cons_eq_ok.2 ⟨_, _, _, handleEveryoneCanPlay_requests hs ?_ hd, ?_, rfl⟩
  · rw [everyoneCanPlay, bothPlayers_seated, hcp, hcq]
    rfl
  · rw [run_singleton]
    exact hone

/-- The game over of two inputs, seen from slot `a`: `p` there was handled at `t`, `q` at `u`. -/
def sentence (a : PlayerAssignment) (p q : Player) (t u : ChronoTimePoint) : GameplayMessage :=
  match a with
  | .P1 => earlierWins p q t u
  | .P2 => earlierWins q p u t

theorem tick_judges {i j : GameplayInput} {t u : ChronoTimePoint}
    (hs : room.gameplayState = .expectingInput) (hp : p.inputPressed = some i)
    (hpt : p.inputPressedAtServerTime = some t) (hq : q.inputPressed = some j)
    (hqt : q.inputPressedAtServerTime = some u) :
    (room.seated a p q).step (.tick clock draw) =
      .ok ({ room.seated a p q with gameplayState := .over },
        (room.seated a p q).broadcastGameplayMessage (sentence a p q t u)) := by
  have hs' : (room.seated a p q).gameplayState = .expectingInput := hs
  cases a with
  | P1 => exact tick_of_bothPlayed ⟨hs', rfl, hp, hq, hpt, hqt⟩ clock draw
  | P2 => exact tick_of_bothPlayed ⟨hs', rfl, hq, hp, hqt, hpt⟩ clock draw

theorem earlierWins_eq_draw_iff {p1 p2 : Player} {t1 t2 : Int} {d1 d2 : PlayerGameResultDTO} :
    earlierWins p1 p2 t1 t2 = .gameOverDraw ⟨none, d1, d2⟩ ↔
      t1 = t2 ∧ p1.buildGameoverDTO = d1 ∧ p2.buildGameoverDTO = d2 := by
  unfold earlierWins
  rcases Int.lt_trichotomy t1 t2 with ht | rfl | ht
  · simp [ht]
    omega
  · simp
  · have ht' : ¬ t1 < t2 := by omega
    simp [ht, ht']
    omega

/-- The game over of a tie tells both inputs and that they tie. -/
theorem eq_of_sentence_eq {p' q' : Player} {t t' : ChronoTimePoint}
    (h : sentence a p q t t = sentence a p' q' t' t) :
    t' = t ∧ p'.buildGameoverDTO = p.buildGameoverDTO := by
  cases a with
  | P1 =>
    have htie : earlierWins p q t t = .gameOverDraw ⟨none, p.buildGameoverDTO, q.buildGameoverDTO⟩ :=
      earlierWins_eq_draw_iff.2 ⟨rfl, rfl, rfl⟩
    simp only [sentence] at h
    rw [htie] at h
    obtain ⟨ht, hp, -⟩ := earlierWins_eq_draw_iff.1 h.symm
    exact ⟨ht, hp⟩
  | P2 =>
    have htie : earlierWins q p t t = .gameOverDraw ⟨none, q.buildGameoverDTO, p.buildGameoverDTO⟩ :=
      earlierWins_eq_draw_iff.2 ⟨rfl, rfl, rfl⟩
    simp only [sentence] at h
    rw [htie] at h
    obtain ⟨ht, -, hp⟩ := earlierWins_eq_draw_iff.1 h.symm
    exact ⟨ht.symm, hp⟩

theorem broadcast_seated_inj {b : PlayerAssignment} {p' q' : Player} {m m' : GameplayMessage}
    (h : (room.seated a p q).broadcastGameplayMessage m =
      (room'.seated b p' q').broadcastGameplayMessage m') : m = m' := by
  cases a <;> cases b <;>
    simp only [broadcastGameplayMessage, seated, Players.pair, Option.toList_some,
      List.map_cons, List.map_nil, List.cons_append, List.nil_append, List.cons.injEq,
      BrokerCall.publishGameplayMessage.injEq] at h <;> exact h.1.2

/-- A tie tells the input recorded for a player. -/
theorem recordedPress_eq_of_tie {p' q' : Player} {i i' : GameplayInput} {t t' : Int}
    {s s' : ChronoTimePoint} (hp : p.recordedPress = some (i, t, s))
    (hp' : p'.recordedPress = some (i', t', s'))
    (h : (room.seated a p q).broadcastGameplayMessage (sentence a p q s s) =
      (room'.seated a p' q').broadcastGameplayMessage (sentence a p' q' s' s)) :
    p'.recordedPress = p.recordedPress := by
  obtain ⟨hs, hdto⟩ := eq_of_sentence_eq (broadcast_seated_inj h)
  obtain ⟨hi, ht, -⟩ := Player.recordedPress_eq_some_iff.1 hp
  obtain ⟨hi', ht', -⟩ := Player.recordedPress_eq_some_iff.1 hp'
  simp only [Player.buildGameoverDTO, PlayerGameResultDTO.mk.injEq, hi, hi', ht, ht',
    Option.some.injEq] at hdto
  obtain ⟨-, hinput, htime⟩ := hdto
  rw [hp, hp', hinput, htime, hs]

/-! ## Probes -/

/-- Both players press, and the second says that it can play.  The tick then requests an input
if the first can play. -/
def playProbe (id otherId : PlayerId) (reference : ChronoTimePoint) : List Event :=
  [.handlePlayerMessage id (.playerInput .north 0) 0,
    .handlePlayerMessage otherId (.playerInput .north 0) 0,
    .handlePlayerMessage otherId .notifyCanPlay 0, .tick (.lateAfter reference) 0]

/-- The second player presses at `now` and both say that they can play.  Two ticks then judge
the input of the first. -/
def pressProbe (id otherId : PlayerId) (reference now : ChronoTimePoint) : List Event :=
  [.handlePlayerMessage otherId (.playerInput .north 0) now,
    .handlePlayerMessage id .notifyCanPlay 0, .handlePlayerMessage otherId .notifyCanPlay 0,
    .tick (.lateAfter reference) 0, .tick (.lateAfter reference) 0]

section Probes

variable {reference now : ChronoTimePoint}

theorem roundCalls_silent (hstep : room.step e = .ok (room', [])) (hround : room'.inRound = true) :
    room.roundCalls (e :: events) = [] :: room'.roundCalls events := by
  rw [roundCalls_cons hstep, if_pos hround]

theorem verdict_silent (hstep : room.step e = .ok (room', [])) (hround : room'.inRound = true)
    (hticks : e.ticks = 0) :
    room.verdict (e :: events) = room'.verdict events := by
  rw [verdict_cons hstep, if_pos hround, hticks]
  simp

theorem requests_late (hd : room.config.secondsBeforeInputRequest < 2147483648)
    (href : room.everyoneCanPlayAt.getD reference = reference) :
    room.config.secondsBeforeInputRequest ≤
      getSecondsSince (Readings.lateAfter reference).beforeInputRequest
        (room.everyoneCanPlayAt.getD (Readings.lateAfter reference).everyoneCanPlay) := by
  have hlate : room.everyoneCanPlayAt.getD (Readings.lateAfter reference).everyoneCanPlay =
      reference := href
  rw [hlate, getSecondsSince_lateAfter]
  omega

theorem roundCalls_playProbe (hs : room.gameplayState = .started) (hid : p.id ≠ q.id)
    (hd : room.config.secondsBeforeInputRequest < 2147483648)
    (href : room.everyoneCanPlayAt.getD reference = reference) :
    (room.seated a p q).roundCalls (playProbe p.id q.id reference) =
      [[], [], [], if p.canPlay then (room.seated a p q).broadcastGameplayMessage
        (.gameExpectingInput (room.getRandomGameplayInput 0)) else []] := by
  have hround : ∀ p q, (room.seated a p q).inRound = true := fun _ _ => by simp [inRound, hs]
  have hpress := step_press room a hid .north 0 0
  have hpress' := @step_press_other (p.press .north 0 0) q room a hid .north 0 0
  have hnotify := @step_notify_other (p.press .north 0 0) (q.press .north 0 0) room a hid 0
  rw [Player.press_id] at hnotify
  unfold playProbe
  rw [roundCalls_silent hpress (hround _ _), roundCalls_silent hpress' (hround _ _),
    roundCalls_silent hnotify (hround _ _)]
  cases hp : p.canPlay with
  | false =>
    have htick := @tick_waits (.lateAfter reference) 0 room a (p.press .north 0 0)
      (q.press .north 0 0).notify hs hp rfl rfl
    rw [roundCalls_singleton htick]
    rfl
  | true =>
    have htick := @tick_requests (.lateAfter reference) 0 room a (p.press .north 0 0)
      (q.press .north 0 0).notify hs (requests_late hd href) hp rfl rfl rfl
    have hsame := @broadcast_seated room room a p q (p.press .north 0 0)
      (q.press .north 0 0).notify rfl rfl
    rw [roundCalls_singleton htick, if_pos rfl, hsame]

/-- The messages of a probe are silent. -/
theorem pressProbe_steps (room : Room) (a : PlayerAssignment) (hid : p.id ≠ q.id)
    (now : ChronoTimePoint) :
    (room.seated a p q).step (.handlePlayerMessage q.id (.playerInput .north 0) now) =
        .ok (room.seated a p (q.press .north 0 now), []) ∧
      (room.seated a p (q.press .north 0 now)).step (.handlePlayerMessage p.id .notifyCanPlay 0) =
        .ok (room.seated a p.notify (q.press .north 0 now), []) ∧
      (room.seated a p.notify (q.press .north 0 now)).step
          (.handlePlayerMessage q.id .notifyCanPlay 0) =
        .ok (room.seated a p.notify (q.press .north 0 now).notify, []) :=
  ⟨step_press_other room a hid .north 0 now,
    @step_notify p (q.press .north 0 now) room a hid 0,
    @step_notify_other p.notify (q.press .north 0 now) room a hid 0⟩

theorem roundCalls_pressProbe (hround : room.inRound = true) (hid : p.id ≠ q.id) :
    (room.seated a p q).roundCalls (pressProbe p.id q.id reference now) =
      [] :: [] :: [] :: (room.seated a p.notify (q.press .north 0 now).notify).roundCalls
        [.tick (.lateAfter reference) 0, .tick (.lateAfter reference) 0] := by
  obtain ⟨hpress, hnotify, hnotify'⟩ := pressProbe_steps room a hid now
  unfold pressProbe
  rw [roundCalls_silent hpress hround, roundCalls_silent hnotify hround,
    roundCalls_silent hnotify' hround]

theorem verdict_pressProbe (hround : room.inRound = true) (hid : p.id ≠ q.id) :
    (room.seated a p q).verdict (pressProbe p.id q.id reference now) =
      (room.seated a p.notify (q.press .north 0 now).notify).verdict
        [.tick (.lateAfter reference) 0, .tick (.lateAfter reference) 0] := by
  obtain ⟨hpress, hnotify, hnotify'⟩ := pressProbe_steps room a hid now
  unfold pressProbe
  rw [verdict_silent hpress hround rfl, verdict_silent hnotify hround rfl,
    verdict_silent hnotify' hround rfl]

theorem getRandomGameplayInput_zero (room : Room) : room.getRandomGameplayInput 0 = .south := by
  unfold getRandomGameplayInput
  cases room.config.difficulty <;> rfl

/-- Without an input of the first player the probe ends with its first tick. -/
theorem roundCalls_unpressed (hs : room.gameplayState = .started)
    (hd : room.config.secondsBeforeInputRequest < 2147483648)
    (href : room.everyoneCanPlayAt.getD reference = reference) (hcp : p.canPlay = true)
    (hcq : q.canPlay = true) (hp : p.inputPressed = none) (hq : q.inputPressed = some .north) :
    ∃ calls, (room.seated a p q).roundCalls
      [.tick (.lateAfter reference) 0, .tick (.lateAfter reference) 0] = [calls] := by
  have hwrong : GameplayInput.north ≠ room.getRandomGameplayInput 0 := by
    rw [getRandomGameplayInput_zero]
    decide
  obtain ⟨room', r, htick, hround⟩ := @tick_requests_wrong (.lateAfter reference) 0 room a p q
    .north hs hcp hcq hp hq hwrong (requests_late hd href)
  have hended := roundCalls_cons htick [.tick (.lateAfter reference) 0]
  rw [hround] at hended
  exact ⟨_, hended⟩

theorem filter_sentence (p' q' : Player) (t u : ChronoTimePoint) :
    ((room.seated a p q).broadcastGameplayMessage (sentence a p' q' t u)).filter
        BrokerCall.isGameOver =
      (room.seated a p q).broadcastGameplayMessage (sentence a p' q' t u) := by
  have hover : (sentence a p' q' t u).gameResult?.isSome = true := by
    cases a <;> simp only [sentence, earlierWins] <;> split_ifs <;> rfl
  apply List.filter_eq_self.2
  intro c hc
  rw [broadcastGameplayMessage_eq] at hc
  obtain ⟨id, -, rfl⟩ := List.mem_map.1 hc
  exact hover

section Judged

variable {i : GameplayInput} {t u : ChronoTimePoint} (hp : p.inputPressed = some i)
  (hpt : p.inputPressedAtServerTime = some t)
include hp hpt

theorem roundCalls_pressed {j : GameplayInput} (hs : room.gameplayState = .started)
    (hd : room.config.secondsBeforeInputRequest < 2147483648)
    (href : room.everyoneCanPlayAt.getD reference = reference) (hcp : p.canPlay = true)
    (hcq : q.canPlay = true) (hq : q.inputPressed = some j)
    (hqt : q.inputPressedAtServerTime = some u) :
    (room.seated a p q).roundCalls [.tick (.lateAfter reference) 0, .tick (.lateAfter reference) 0] =
      [(room.seated a p q).broadcastGameplayMessage
          (.gameExpectingInput (room.getRandomGameplayInput 0)),
        (room.seated a p q).broadcastGameplayMessage (sentence a p q t u)] := by
  have hrequest := @tick_requests (.lateAfter reference) 0 room a p q hs (requests_late hd href)
    hcp hcq (by rw [hp]; rfl) (by rw [hq]; rfl)
  have hjudge := @tick_judges (.lateAfter reference) 0 (room.requested (.lateAfter reference) 0)
    a p q i j t u rfl hp hpt hq hqt
  have hround : ((room.requested (.lateAfter reference) 0).seated a p q).inRound = true := rfl
  rw [roundCalls_cons hrequest, if_pos hround, roundCalls_singleton hjudge]
  exact congrArg (fun calls => [_, calls]) (broadcast_seated (p := p) (q := q) rfl rfl _)

theorem verdict_pressed_started {j : GameplayInput} (hs : room.gameplayState = .started)
    (hd : room.config.secondsBeforeInputRequest < 2147483648)
    (href : room.everyoneCanPlayAt.getD reference = reference) (hcp : p.canPlay = true)
    (hcq : q.canPlay = true) (hq : q.inputPressed = some j)
    (hqt : q.inputPressedAtServerTime = some u) :
    (room.seated a p q).verdict [.tick (.lateAfter reference) 0, .tick (.lateAfter reference) 0] =
      some (1, (room.seated a p q).broadcastGameplayMessage (sentence a p q t u)) := by
  have hrequest := @tick_requests (.lateAfter reference) 0 room a p q hs (requests_late hd href)
    hcp hcq (by rw [hp]; rfl) (by rw [hq]; rfl)
  have hjudge := @tick_judges (.lateAfter reference) 0 (room.requested (.lateAfter reference) 0)
    a p q i j t u rfl hp hpt hq hqt
  have hround : ((room.requested (.lateAfter reference) 0).seated a p q).inRound = true := rfl
  rw [verdict_cons hrequest, if_pos hround, verdict_cons hjudge, if_neg (by simp [inRound]),
    filter_sentence]
  exact congrArg (fun calls => some (1, calls)) (broadcast_seated (p := p) (q := q) rfl rfl _)

theorem verdict_pressed_expectingInput {j : GameplayInput}
    (hs : room.gameplayState = .expectingInput) (hq : q.inputPressed = some j)
    (hqt : q.inputPressedAtServerTime = some u) (events : List Event) :
    (room.seated a p q).verdict (.tick clock draw :: events) =
      some (0, (room.seated a p q).broadcastGameplayMessage (sentence a p q t u)) := by
  have hjudge := @tick_judges clock draw room a p q i j t u hs hp hpt hq hqt
  rw [verdict_cons hjudge, if_neg (by simp [inRound]), filter_sentence]

end Judged

end Probes

end Room
end SamuraiKirby
