/-
Who wins a round in which both players have pressed.

`handleEveryonePlayed` compares the times at which the server handled the two
inputs and looks at nothing else.  `tick_of_bothPlayed` says so as an equation,
and the two results of this file measure it against what the game is meant to
do: the right button wins (`rightWins_iff_along`) and the declared reaction time
decides (`tick_isFair_iff`).
-/
import SamuraiKirby.Room.Protocol

namespace SamuraiKirby

namespace GameResultDTO

/-- The half of a result that is about one player. -/
def ofPlayer (r : GameResultDTO) : PlayerAssignment → PlayerGameResultDTO
  | .P1 => r.player1
  | .P2 => r.player2

end GameResultDTO

namespace GameplayMessage

/-- The result a game over carries. -/
def gameResult? : GameplayMessage → Option GameResultDTO
  | .gameOverEarlyInput r | .gameOverWrongInput r | .gameOverWin r | .gameOverDraw r => some r
  | _ => none

end GameplayMessage

namespace Room

open Transition

/-- An expected input with both slots played: `P1` pressed `i1`, handled at `t1`, and `P2`
pressed `i2`, handled at `t2`. -/
structure BothPlayed (room : Room) (p1 p2 : Player) (i1 i2 : GameplayInput)
    (t1 t2 : ChronoTimePoint) : Prop where
  state : room.gameplayState = .expectingInput
  players : room.players = ⟨some p1, some p2⟩
  pressed1 : p1.inputPressed = some i1
  pressed2 : p2.inputPressed = some i2
  handled1 : p1.inputPressedAtServerTime = some t1
  handled2 : p2.inputPressedAtServerTime = some t2

/-- The game over for the player with the smaller of two times, a draw when they are equal. -/
def earlierWins (p1 p2 : Player) (t1 t2 : Int) : GameplayMessage :=
  if t1 < t2 then .gameOverWin ⟨some .P1, p1.buildGameoverDTO, p2.buildGameoverDTO⟩
  else if t2 < t1 then .gameOverWin ⟨some .P2, p1.buildGameoverDTO, p2.buildGameoverDTO⟩
  else .gameOverDraw ⟨none, p1.buildGameoverDTO, p2.buildGameoverDTO⟩

variable {clock : Readings} {draw : Nat} {room room' : Room} {p1 p2 : Player}
  {i1 i2 : GameplayInput} {t1 t2 : ChronoTimePoint}

theorem BothPlayed.everyonePlayed (h : room.BothPlayed p1 p2 i1 i2 t1 t2) :
    room.everyonePlayed = true := by
  rw [Room.everyonePlayed, bothPlayers_of_full h.players, h.pressed1, h.pressed2]
  rfl

theorem BothPlayed.handleEveryonePlayed (h : room.BothPlayed p1 p2 i1 i2 t1 t2) :
    room.handleEveryonePlayed =
      .ok ({ room with gameplayState := .over },
        room.broadcastGameplayMessage (earlierWins p1 p2 t1 t2)) := by
  unfold Room.handleEveryonePlayed earlierWins
  simp only [h.state, h.everyonePlayed, h.players, h.handled1, h.handled2, ne_eq,
    not_true_eq_false, if_false, Bool.not_true, Bool.false_eq_true, value_some, ok_bind,
    buildGameResultDTO, pure_eq_ok]
  by_cases hlt : t1 < t2
  · simp [hlt, broadcastGameplayMessage, h.players]
  · by_cases hgt : t2 < t1
    · simp [hlt, hgt, broadcastGameplayMessage, h.players]
    · simp [hlt, hgt, broadcastGameplayMessage, h.players]

/-- With both inputs in, the tick ends the round in favour of the input handled first. -/
theorem tick_of_bothPlayed (h : room.BothPlayed p1 p2 i1 i2 t1 t2) (clock : Readings)
    (draw : Nat) :
    room.tick clock draw =
      .ok ({ room with gameplayState := .over },
        room.broadcastGameplayMessage (earlierWins p1 p2 t1 t2)) := by
  have hone : room.handleOnePlayerPlayed clock = .ok (room, []) := by
    simp [handleOnePlayerPlayed, h.state, h.everyonePlayed]
  have htimeout : handleTimeout { room with gameplayState := .over } clock =
      .ok ({ room with gameplayState := .over }, []) := by
    simp [handleTimeout]
  unfold tick
  rw [h.state]
  refine run_cons_eq_ok.2 ⟨room, [], _, hone, ?_, rfl⟩
  refine run_cons_eq_ok.2 ⟨_, _, [], h.handleEveryonePlayed, ?_, (List.append_nil _).symm⟩
  rw [run_singleton]
  exact htimeout

/-! ## The declared reaction time -/

/-- Two pairs of times give the same game over exactly when they are ordered alike. -/
theorem earlierWins_inj (p1 p2 : Player) (t1 t2 d1 d2 : Int) :
    earlierWins p1 p2 t1 t2 = earlierWins p1 p2 d1 d2 ↔
      ((d1 < d2 ↔ t1 < t2) ∧ (d2 < d1 ↔ t2 < t1)) := by
  unfold earlierWins
  rcases Int.lt_trichotomy t1 t2 with ht | rfl | ht
  · have ht' : ¬ t2 < t1 := by omega
    rcases Int.lt_trichotomy d1 d2 with hd | rfl | hd
    · have hd' : ¬ d2 < d1 := by omega
      simp [ht, ht', hd, hd']
    · simp [ht]
    · have hd' : ¬ d1 < d2 := by omega
      simp [ht, hd, hd']
  · rcases Int.lt_trichotomy d1 d2 with hd | rfl | hd
    · simp [hd]
    · simp
    · have hd' : ¬ d1 < d2 := by omega
      simp [hd, hd']
  · have ht' : ¬ t1 < t2 := by omega
    rcases Int.lt_trichotomy d1 d2 with hd | rfl | hd
    · simp [ht, ht', hd]
    · simp [ht, ht']
    · have hd' : ¬ d1 < d2 := by omega
      simp [ht, ht', hd, hd']

/-- The tick judges by declared reaction time exactly when the two inputs were handled in the
order of their declared times, equal times at the same reading. -/
theorem tick_isFair_iff (h : room.BothPlayed p1 p2 room.expectedInput room.expectedInput t1 t2)
    {d1 d2 : Int} (_hd1 : p1.timeToPress = some d1) (_hd2 : p2.timeToPress = some d2)
    (clock : Readings) (draw : Nat) :
    (∃ room', room.tick clock draw =
      .ok (room', room.broadcastGameplayMessage (earlierWins p1 p2 d1 d2))) ↔
      ((d1 < d2 ↔ t1 < t2) ∧ (d2 < d1 ↔ t2 < t1)) := by
  have hinj : ∀ m m', room.broadcastGameplayMessage m = room.broadcastGameplayMessage m' ↔
      m = m' := by
    intro m m'
    simp [broadcastGameplayMessage, h.players]
  rw [tick_of_bothPlayed h, ← earlierWins_inj p1 p2]
  simp only [Except.ok.injEq, Prod.mk.injEq, hinj, exists_eq_left']

/-- Players 1 and 2 join an easy room without delays, get ready and are asked for an input,
which is `south`. -/
def toExpectingInput : List Event :=
  [.addPlayer 1 [], .addPlayer 2 [], .handlePlayerMessage 1 (.setReadyState true) 0,
    .handlePlayerMessage 2 (.setReadyState true) 0, .tick (.const 0) 0,
    .handlePlayerMessage 1 .notifyCanPlay 0, .handlePlayerMessage 2 .notifyCanPlay 0,
    .tick (.const 0) 0]

def quickConfig : RoomConfig := ⟨.easy, 0, 0, 0⟩

/-- A player who pressed `south`, declared the time `declared` and was handled at `handled`. -/
def pressedSouth (id : PlayerId) (a : PlayerAssignment) (declared : Int)
    (handled : ChronoTimePoint) : Player where
  id := id
  nickname := []
  assignment := a
  isReady := true
  canPlay := true
  inputPressed := some .south
  timeToPress := some declared
  inputPressedAtServerTime := some handled

/-- Player 1 declared 200 and player 2 declared 300, handled at `t1` and `t2`. -/
def declaredRoom (t1 t2 : ChronoTimePoint) : Room where
  config := quickConfig
  gameplayState := .expectingInput
  players := ⟨some (pressedSouth 1 .P1 200 t1), some (pressedSouth 2 .P2 300 t2)⟩
  expectedInput := .south
  everyoneCanPlayAt := some 0
  readyForInputAt := some 0

theorem declaredRoom_bothPlayed (t1 t2 : ChronoTimePoint) :
    (declaredRoom t1 t2).BothPlayed (pressedSouth 1 .P1 200 t1) (pressedSouth 2 .P2 300 t2)
      .south .south t1 t2 :=
  ⟨rfl, rfl, rfl, rfl, rfl, rfl⟩

theorem tick_isFair_declaredRoom :
    ∃ room', (declaredRoom 1 2).tick (.const 3) 0 =
      .ok (room', (declaredRoom 1 2).broadcastGameplayMessage
        (earlierWins (pressedSouth 1 .P1 200 1) (pressedSouth 2 .P2 300 2) 200 300)) :=
  (tick_isFair_iff (declaredRoom_bothPlayed 1 2) rfl rfl (.const 3) 0).2 (by decide)

/-- The slower player wins when its input is handled first. -/
theorem slower_player_wins :
    ¬ ∀ (config : RoomConfig) (events : List Event) (room : Room) (calls : List BrokerCall)
      (p1 p2 : Player) (t1 t2 : ChronoTimePoint) (d1 d2 : Int) (clock : Readings) (draw : Nat),
      run step (new config) events = .ok (room, calls) →
      room.BothPlayed p1 p2 room.expectedInput room.expectedInput t1 t2 →
      p1.timeToPress = some d1 → p2.timeToPress = some d2 →
      ∃ room', room.tick clock draw =
        .ok (room', room.broadcastGameplayMessage (earlierWins p1 p2 d1 d2)) := by
  intro h
  have hrun : ∃ calls, run step (new quickConfig)
      (toExpectingInput ++ [.handlePlayerMessage 2 (.playerInput .south 300) 1,
        .handlePlayerMessage 1 (.playerInput .south 200) 2]) = .ok (declaredRoom 2 1, calls) :=
    ⟨_, rfl⟩
  obtain ⟨calls, hrun⟩ := hrun
  obtain ⟨room', htick⟩ := h _ _ _ _ _ _ _ _ 200 300 (.const 3) 0 hrun
    (declaredRoom_bothPlayed 2 1) rfl rfl
  have hcalls : ((declaredRoom 2 1).tick (.const 3) 0).map Prod.snd =
      .ok ((declaredRoom 2 1).broadcastGameplayMessage
        (earlierWins (pressedSouth 1 .P1 200 2) (pressedSouth 2 .P2 300 1) 200 300)) := by
    rw [htick]
    rfl
  exact absurd hcalls (by decide)

/-! ## The right button -/

/-- The button announced for the round in progress. -/
def announce (announced : Option GameplayInput) : GameplayMessage → Option GameplayInput
  | .gameExpectingInput expectedInput => some expectedInput
  | .allReadyGameStarting | .allReplayReadyGameStarting | .playerLeftRoom _ => none
  | _ => announced

/-- Who wins a round must have pressed the announced button, and a player who alone pressed it
must win. -/
structure RightWins (announced : Option GameplayInput) (m : GameplayMessage) : Prop where
  winner : ∀ r, m = .gameOverWin r → ∃ a i, r.winningPlayer = some a ∧
    (r.ofPlayer a).inputPressed = some i ∧ announced = some i
  onlyRight : ∀ r a i j, m.gameResult? = some r → (r.ofPlayer a).inputPressed = some i →
    (r.ofPlayer a.other).inputPressed = some j → announced = some i → j ≠ i →
    m = .gameOverWin r ∧ r.winningPlayer = some a

def rightWins : Monitor (Option GameplayInput) BrokerCall where
  next announced call :=
    match call with
    | .publishGameplayMessage _ m => announce announced m
    | _ => announced
  ok announced call :=
    match call with
    | .publishGameplayMessage _ m => RightWins announced m
    | _ => True

/-- With both inputs in, the inputs handled first are the right ones. -/
structure RightFirst (expected i1 i2 : GameplayInput) (t1 t2 : ChronoTimePoint) : Prop where
  bothWrong : i1 ≠ expected → i2 ≠ expected → t1 = t2
  onlyFirst : i1 = expected → i2 ≠ expected → t1 < t2
  onlySecond : i2 = expected → i1 ≠ expected → t2 < t1

/-- The condition on a step: a tick that finds both inputs finds the right ones first. -/
def JudgesRight (room : Room) (e : Event) (_ : List Event) : Prop :=
  match e with
  | .tick _ _ => ∀ p1 p2 i1 i2 t1 t2, room.BothPlayed p1 p2 i1 i2 t1 t2 →
      RightFirst room.expectedInput i1 i2 t1 t2
  | _ => True

/-- Messages that carry no result are judged good. -/
theorem rightWins_of_no_result {announced : Option GameplayInput} {m : GameplayMessage}
    (h : m.gameResult? = none) : RightWins announced m where
  winner := by
    intro r hr
    rw [hr] at h
    cases h
  onlyRight := by
    intro r a i j hr
    rw [h] at hr
    cases hr

/-- A result in which a player pressed nothing raises no question about the other one. -/
theorem rightWins_of_not_both {announced : Option GameplayInput} {m : GameplayMessage}
    {r : GameResultDTO} (hm : m.gameResult? = some r) (hw : ∀ r, m ≠ .gameOverWin r)
    {a : PlayerAssignment} (ha : (r.ofPlayer a).inputPressed = none) :
    RightWins announced m where
  winner := by
    intro r' hr
    exact absurd hr (hw r')
  onlyRight := by
    intro r' b i j hr hi hj
    rw [hm] at hr
    cases hr
    cases a <;> cases b <;> simp_all [PlayerAssignment.other]

/-! ### Reading a broadcast -/

theorem announce_idem (announced : Option GameplayInput) (m : GameplayMessage) :
    announce (announce announced m) m = announce announced m := by
  cases m <;> rfl

variable {announced : Option GameplayInput} {m : GameplayMessage}

theorem after_broadcast (hne : room.recipients ≠ []) :
    rightWins.after announced (room.broadcastGameplayMessage m) = announce announced m := by
  have hfix : ∀ ids : List PlayerId, rightWins.after (announce announced m)
      (ids.map fun id => BrokerCall.publishGameplayMessage id m) = announce announced m := by
    intro ids
    induction ids with
    | nil => rfl
    | cons id ids ih =>
      rw [List.map_cons, Monitor.after_cons]
      simpa only [rightWins, announce_idem] using ih
  rw [broadcastGameplayMessage_eq]
  cases hids : room.recipients with
  | nil => exact absurd hids hne
  | cons id ids => exact hfix ids

/-- A broadcast that announces nothing is judged once for each copy, by the same memory. -/
theorem accepts_broadcast_iff (hne : room.recipients ≠ [])
    (hm : announce announced m = announced) :
    rightWins.Accepts announced (room.broadcastGameplayMessage m) ↔ RightWins announced m := by
  have hall : ∀ ids : List PlayerId, RightWins announced m → rightWins.Accepts announced
      (ids.map fun id => BrokerCall.publishGameplayMessage id m) := by
    intro ids h
    induction ids with
    | nil => trivial
    | cons id ids ih =>
      refine ⟨h, ?_⟩
      simpa only [rightWins, hm] using ih
  rw [broadcastGameplayMessage_eq]
  cases hids : room.recipients with
  | nil => exact absurd hids hne
  | cons id ids => exact ⟨fun h => h.1, fun h => hall (id :: ids) h⟩

theorem accepts_broadcast_of_no_result (room : Room) (h : m.gameResult? = none) :
    rightWins.Accepts announced (room.broadcastGameplayMessage m) := by
  rw [broadcastGameplayMessage_eq]
  generalize room.recipients = ids
  induction ids generalizing announced with
  | nil => trivial
  | cons id ids ih => exact ⟨rightWins_of_no_result h, ih⟩

theorem accepts_of_not_isRound (announced : Option GameplayInput) {calls : List BrokerCall}
    (h : ∀ c ∈ calls, c.isRound = false) :
    rightWins.Accepts announced calls ∧ rightWins.after announced calls = announced := by
  induction calls with
  | nil => exact ⟨trivial, rfl⟩
  | cons c calls ih =>
    have hc := h c (List.mem_cons_self ..)
    have htail := ih fun c' hc' => h c' (List.mem_cons_of_mem c hc')
    have hnext : rightWins.next announced c = announced := by
      cases c with
      | publishGameplayMessage id m =>
        cases m <;> first | rfl | cases hc
      | _ => rfl
    rw [Monitor.accepts_cons, Monitor.after_cons, hnext]
    refine ⟨⟨?_, htail.1⟩, htail.2⟩
    cases c with
    | publishGameplayMessage id m =>
      apply rightWins_of_no_result
      cases m <;> first | rfl | cases hc
    | _ => trivial

/-! ### One tick -/

/-- While an input is expected the monitor remembers which one. -/
def Announced (room : Room) (announced : Option GameplayInput) : Prop :=
  room.gameplayState = .expectingInput → announced = some room.expectedInput

theorem buildGameResultDTO_eq_ok {w : Option PlayerAssignment} {r : GameResultDTO}
    (h : room.buildGameResultDTO w = .ok r) :
    r.winningPlayer = w ∧ ∀ a p, room.players.get a = some p →
      (r.ofPlayer a).inputPressed = p.inputPressed := by
  unfold buildGameResultDTO at h
  cases h1 : room.players.P1 with
  | none => simp [h1] at h
  | some p1 =>
    cases h2 : room.players.P2 with
    | none => simp [h1, h2] at h
    | some p2 =>
      simp only [h1, h2, value_some, ok_bind, pure_eq_ok, Except.ok.injEq] at h
      subst h
      refine ⟨rfl, fun a p hp => ?_⟩
      cases a with
      | P1 =>
        rw [Players.get, h1] at hp
        cases hp
        rfl
      | P2 =>
        rw [Players.get, h2] at hp
        cases hp
        rfl

/-- Every turn but the judgement of two inputs is judged good. -/
theorem Turn.judged {handler : Handler} {ms : List GameplayMessage} (h : WellFormed room)
    (hann : Announced room announced) (ht : Turn clock draw room handler room' ms)
    (hne : handler = .handleEveryonePlayed → room.gameplayState = .expectingInput →
      room.everyonePlayed = false) :
    rightWins.Accepts announced (room'.broadcastAll ms) ∧
      Announced room' (rightWins.after announced (room'.broadcastAll ms)) := by
  by_cases hms : ms = []
  · subst hms
    refine ⟨trivial, fun hs => ?_⟩
    cases ht with
    | idle => exact hann hs
    | firstCanPlay hst =>
      rw [show room.gameplayState = .expectingInput from hs] at hst
      cases hst
  have hrec : room'.recipients ≠ [] := by
    have hlen := full_iff_recipients.1 (ht.full h hms)
    rw [← ht.recipients] at hlen
    intro hnil
    rw [hnil] at hlen
    cases hlen
  have hover : ∀ m, (RightWins announced m ∧ announce announced m = announced) →
      room'.gameplayState = .over → ms = [m] →
      rightWins.Accepts announced (room'.broadcastAll ms) ∧
        Announced room' (rightWins.after announced (room'.broadcastAll ms)) := by
    intro m hm hs hms
    subst hms
    rw [broadcastAll_singleton]
    refine ⟨(accepts_broadcast_iff hrec hm.2).2 hm.1, fun hs' => ?_⟩
    rw [hs] at hs'
    cases hs'
  cases ht with
  | idle => exact absurd rfl hms
  | firstCanPlay => exact absurd rfl hms
  | allReady =>
    rw [broadcastAll_singleton]
    exact ⟨accepts_broadcast_of_no_result _ rfl, fun hs => by cases hs⟩
  | replay =>
    rw [broadcastAll_singleton]
    exact ⟨accepts_broadcast_of_no_result _ rfl, fun hs => by cases hs⟩
  | expectingInput =>
    rw [broadcastAll_singleton]
    exact ⟨accepts_broadcast_of_no_result _ rfl, fun _ => after_broadcast hrec⟩
  | earlyInput a p q i r hs hp hr =>
    have hother := (buildGameResultDTO_eq_ok hr).2 a.other q hp.other
    exact hover _ ⟨rightWins_of_not_both rfl (by simp) (hother.trans hp.notPressed), rfl⟩ rfl rfl
  | wrongInput a p q i r hs hp hi hr =>
    have hother := (buildGameResultDTO_eq_ok hr).2 a.other q hp.other
    exact hover _ ⟨rightWins_of_not_both rfl (by simp) (hother.trans hp.notPressed), rfl⟩ rfl rfl
  | winAlone a p q i r t hs hp hi ht hd hr =>
    obtain ⟨hw, hinputs⟩ := buildGameResultDTO_eq_ok hr
    have hpressed := (hinputs a p hp.player).trans hp.pressed
    have hother := (hinputs a.other q hp.other).trans hp.notPressed
    refine hover _ ⟨⟨fun r' hr' => ?_, fun r' b j k hr' hj hk => ?_⟩, rfl⟩ rfl rfl
    · cases hr'
      exact ⟨a, i, hw, hpressed, by rw [hann hs, hi]⟩
    · cases hr'
      cases a <;> cases b <;> simp_all [PlayerAssignment.other]
  | winFirst a p q t t' r hs he =>
    rw [hne rfl hs] at he
    cases he
  | drawTie p1 p2 t r hs he =>
    rw [hne rfl hs] at he
    cases he
  | drawTimeout reference r hs hn href hd hr =>
    obtain ⟨p1, p2, hp, h1, -⟩ := bothPlayers_eq_true.1 hn
    have hpressed := (buildGameResultDTO_eq_ok hr).2 .P1 p1 (by rw [hp]; rfl)
    refine hover _ ⟨rightWins_of_not_both rfl (by simp) (hpressed.trans ?_), rfl⟩ rfl rfl
    simpa using h1

/-- The win of one of two players who pressed is right exactly when that player's button is. -/
theorem rightWins_gameOverWin_iff {expected : GameplayInput} {r : GameResultDTO}
    {a : PlayerAssignment} {i j : GameplayInput} (hw : r.winningPlayer = some a)
    (hi : (r.ofPlayer a).inputPressed = some i)
    (hj : (r.ofPlayer a.other).inputPressed = some j) :
    RightWins (some expected) (.gameOverWin r) ↔ i = expected := by
  constructor
  · intro h
    obtain ⟨b, k, hb, hk, he⟩ := h.winner r rfl
    rw [hw] at hb
    cases hb
    rw [hi] at hk
    cases hk
    exact (Option.some.inj he).symm
  · intro he
    subst he
    refine ⟨fun r' hr' => ?_, fun r' b i' j' hr' hi' hj' he' hne => ?_⟩
    · cases hr'
      exact ⟨a, i, hw, hi, rfl⟩
    · cases hr'
      refine ⟨rfl, ?_⟩
      -- the other player pressed something else, so `b` is the winner
      by_cases hb : b = a
      · rw [hb, hw]
      · have hother : b.other = a := by
          cases a <;> cases b <;> first | rfl | exact absurd rfl hb
        rw [hother, hi] at hj'
        cases hj'
        exact absurd (Option.some.inj he') hne

/-- A draw between two players who pressed is right exactly when both buttons are or none is. -/
theorem rightWins_gameOverDraw_iff {expected : GameplayInput} {r : GameResultDTO}
    {i j : GameplayInput} (hi : (r.ofPlayer .P1).inputPressed = some i)
    (hj : (r.ofPlayer .P2).inputPressed = some j) :
    RightWins (some expected) (.gameOverDraw r) ↔ (i = expected ↔ j = expected) := by
  constructor
  · intro h
    constructor
    · intro he
      by_cases hne : j = expected
      · exact hne
      · cases (h.onlyRight r .P1 i j rfl hi hj (by rw [he]) (by rw [he]; exact hne)).1
    · intro he
      by_cases hne : i = expected
      · exact hne
      · cases (h.onlyRight r .P2 j i rfl hj hi (by rw [he]) (by rw [he]; exact hne)).1
  · intro he
    refine ⟨fun r' hr' => (by cases hr'), fun r' b i' j' hr' hi' hj' he' hne => ?_⟩
    cases hr'
    cases Option.some.inj he'
    cases b with
    | P1 =>
      rw [hi] at hi'
      rw [PlayerAssignment.other, hj] at hj'
      cases hi'
      cases hj'
      exact absurd (he.1 rfl) hne
    | P2 =>
      rw [hj] at hi'
      rw [PlayerAssignment.other, hi] at hj'
      cases hi'
      cases hj'
      exact absurd (he.2 rfl) hne

theorem rightWins_earlierWins_iff (h : room.BothPlayed p1 p2 i1 i2 t1 t2) :
    RightWins (some room.expectedInput) (earlierWins p1 p2 t1 t2) ↔
      RightFirst room.expectedInput i1 i2 t1 t2 := by
  have hpressed1 : p1.buildGameoverDTO.inputPressed = some i1 := h.pressed1
  have hpressed2 : p2.buildGameoverDTO.inputPressed = some i2 := h.pressed2
  unfold earlierWins
  rcases Int.lt_trichotomy t1 t2 with hlt | heq | hgt
  · have hne : t1 ≠ t2 := Int.ne_of_lt hlt
    have hnlt : ¬ t2 < t1 := Int.lt_asymm hlt
    rw [if_pos hlt, rightWins_gameOverWin_iff (a := .P1)
      (r := ⟨some .P1, p1.buildGameoverDTO, p2.buildGameoverDTO⟩) rfl hpressed1 hpressed2]
    constructor
    · intro hi
      exact ⟨fun h1 _ => absurd hi h1, fun _ _ => hlt, fun _ h1 => absurd hi h1⟩
    · intro hf
      by_cases hi : i1 = room.expectedInput
      · exact hi
      · by_cases hj : i2 = room.expectedInput
        · exact absurd (hf.onlySecond hj hi) hnlt
        · exact absurd (hf.bothWrong hi hj) hne
  · subst heq
    rw [if_neg (Int.lt_irrefl t1), if_neg (Int.lt_irrefl t1),
      rightWins_gameOverDraw_iff (r := ⟨none, p1.buildGameoverDTO, p2.buildGameoverDTO⟩)
        hpressed1 hpressed2]
    constructor
    · intro hij
      exact ⟨fun _ _ => rfl, fun hi hj => absurd (hij.1 hi) hj,
        fun hj hi => absurd (hij.2 hj) hi⟩
    · intro hf
      constructor
      · intro hi
        by_cases hj : i2 = room.expectedInput
        · exact hj
        · exact absurd (hf.onlyFirst hi hj) (Int.lt_irrefl t1)
      · intro hj
        by_cases hi : i1 = room.expectedInput
        · exact hi
        · exact absurd (hf.onlySecond hj hi) (Int.lt_irrefl t1)
  · have hne : t1 ≠ t2 := Int.ne_of_gt hgt
    have hnlt : ¬ t1 < t2 := Int.lt_asymm hgt
    rw [if_neg hnlt, if_pos hgt, rightWins_gameOverWin_iff (a := .P2)
      (r := ⟨some .P2, p1.buildGameoverDTO, p2.buildGameoverDTO⟩) rfl hpressed2 hpressed1]
    constructor
    · intro hj
      exact ⟨fun _ h2 => absurd hj h2, fun _ h2 => absurd hj h2, fun _ _ => hgt⟩
    · intro hf
      by_cases hj : i2 = room.expectedInput
      · exact hj
      · by_cases hi : i1 = room.expectedInput
        · exact absurd (hf.onlyFirst hi hj) hnlt
        · exact absurd (hf.bothWrong hi hj) hne

theorem announce_earlierWins (announced : Option GameplayInput) (p1 p2 : Player)
    (t1 t2 : ChronoTimePoint) : announce announced (earlierWins p1 p2 t1 t2) = announced := by
  unfold earlierWins
  by_cases hlt : t1 < t2
  · rw [if_pos hlt]
    rfl
  · rw [if_neg hlt]
    by_cases hgt : t2 < t1
    · rw [if_pos hgt]
      rfl
    · rw [if_neg hgt]
      rfl

/-- Two inputs are in: the tick judges right exactly when the right ones were handled first. -/
theorem BothPlayed.judged (h : room.BothPlayed p1 p2 i1 i2 t1 t2) (hann : Announced room announced)
    {calls : List BrokerCall} (ht : room.tick clock draw = .ok (room', calls)) :
    (rightWins.Accepts announced calls ↔ RightFirst room.expectedInput i1 i2 t1 t2) ∧
      Announced room' (rightWins.after announced calls) := by
  rw [tick_of_bothPlayed h] at ht
  cases ht
  have hrec : room.recipients ≠ [] := by
    simp [Room.recipients, h.players]
  rw [accepts_broadcast_iff hrec (announce_earlierWins ..), hann h.state,
    rightWins_earlierWins_iff h]
  exact ⟨Iff.rfl, fun hs => by cases hs⟩

/-- Not both inputs are in. -/
def Pending (room : Room) : Prop :=
  room.gameplayState = .expectingInput → room.everyonePlayed = false

theorem Turn.pending {handler : Handler} {ms : List GameplayMessage} (h : Pending room)
    (ht : Turn clock draw room handler room' ms) (hne : handler ≠ .handleEveryoneCanPlay) :
    Pending room' := by
  cases ht with
  | idle => exact h
  | firstCanPlay => exact absurd rfl hne
  | expectingInput => exact absurd rfl hne
  | _ =>
    intro hs
    cases hs

theorem Turns.judged {handlers : List Handler} {ms : List GameplayMessage} (h : WellFormed room)
    (hann : Announced room announced) (ht : Turns clock draw room handlers room' ms)
    (hne : .handleEveryonePlayed ∈ handlers →
      Pending room ∧ .handleEveryoneCanPlay ∉ handlers) :
    rightWins.Accepts announced (room'.broadcastAll ms) ∧
      Announced room' (rightWins.after announced (room'.broadcastAll ms)) := by
  induction ht generalizing announced with
  | nil => exact ⟨trivial, hann⟩
  | @cons room room₁ room₂ handler handlers ms₁ ms₂ head tail ih =>
    have hhead := head.judged h hann fun hh =>
      (hne (by rw [hh]; exact List.mem_cons_self ..)).1
    have htail := ih (head.wellFormed h) hhead.2 fun hmem => by
      obtain ⟨hpending, hnot⟩ := hne (List.mem_cons_of_mem _ hmem)
      exact ⟨head.pending hpending fun hh => hnot (by rw [hh]; exact List.mem_cons_self ..),
        fun hmem' => hnot (List.mem_cons_of_mem _ hmem')⟩
    rw [← broadcastAll_congr tail.recipients ms₁] at hhead htail
    rw [broadcastAll, List.flatMap_append, Monitor.accepts_append, Monitor.after_append]
    exact ⟨⟨hhead.1, htail.1⟩, htail.2⟩

theorem bothPlayed_of_everyonePlayed (h : WellFormed room)
    (hs : room.gameplayState = .expectingInput) (he : room.everyonePlayed = true) :
    ∃ p1 p2 i1 i2 t1 t2, room.BothPlayed p1 p2 i1 i2 t1 t2 := by
  obtain ⟨p1, p2, hp, h1, h2⟩ := bothPlayers_eq_true.1 he
  have hp1 : room.players.get .P1 = some p1 := by rw [hp]; rfl
  have hp2 : room.players.get .P2 = some p2 := by rw [hp]; rfl
  obtain ⟨i1, hi1⟩ := Option.isSome_iff_exists.1 h1
  obtain ⟨i2, hi2⟩ := Option.isSome_iff_exists.1 h2
  obtain ⟨t1, ht1⟩ := Option.isSome_iff_exists.1 ((h.paired .P1 p1 hp1).handled h1)
  obtain ⟨t2, ht2⟩ := Option.isSome_iff_exists.1 ((h.paired .P2 p2 hp2).handled h2)
  exact ⟨p1, p2, i1, i2, t1, t2, hs, hp, hi1, hi2, ht1, ht2⟩

theorem BothPlayed.unique {q1 q2 : Player} {j1 j2 : GameplayInput} {u1 u2 : ChronoTimePoint}
    (h : room.BothPlayed p1 p2 i1 i2 t1 t2) (h' : room.BothPlayed q1 q2 j1 j2 u1 u2) :
    i1 = j1 ∧ i2 = j2 ∧ t1 = u1 ∧ t2 = u2 := by
  have hplayers := h.players.symm.trans h'.players
  simp only [Players.mk.injEq, Option.some.injEq] at hplayers
  obtain ⟨rfl, rfl⟩ := hplayers
  exact ⟨Option.some.inj (h.pressed1.symm.trans h'.pressed1),
    Option.some.inj (h.pressed2.symm.trans h'.pressed2),
    Option.some.inj (h.handled1.symm.trans h'.handled1),
    Option.some.inj (h.handled2.symm.trans h'.handled2)⟩

theorem tick_judged (h : WellFormed room) (hann : Announced room announced)
    {calls : List BrokerCall} (ht : room.tick clock draw = .ok (room', calls))
    (events : List Event) :
    (rightWins.Accepts announced calls ↔ JudgesRight room (.tick clock draw) events) ∧
      Announced room' (rightWins.after announced calls) := by
  by_cases hboth : ∃ p1 p2 i1 i2 t1 t2, room.BothPlayed p1 p2 i1 i2 t1 t2
  · obtain ⟨p1, p2, i1, i2, t1, t2, hboth⟩ := hboth
    obtain ⟨hiff, hann'⟩ := hboth.judged hann ht
    refine ⟨hiff.trans ⟨fun hf q1 q2 j1 j2 u1 u2 h' => ?_, fun hf => hf _ _ _ _ _ _ hboth⟩, hann'⟩
    obtain ⟨rfl, rfl, rfl, rfl⟩ := hboth.unique h'
    exact hf
  · have hpending : Pending room := by
      intro hs
      cases he : room.everyonePlayed with
      | false => rfl
      | true => exact absurd (bothPlayed_of_everyonePlayed h hs he) hboth
    obtain ⟨room'', ms, htick, hturns⟩ := tick_turns h clock draw
    rw [ht] at htick
    cases htick
    have hjudged := hturns.judged h hann fun hmem => ⟨hpending, by
      cases hs : room.gameplayState <;> rw [hs] at hmem <;>
        simp [tickHandlers] at hmem ⊢⟩
    refine ⟨⟨fun _ p1 p2 i1 i2 t1 t2 h' => ?_, fun _ => hjudged.1⟩, hjudged.2⟩
    exact absurd ⟨p1, p2, i1, i2, t1, t2, h'⟩ hboth

/-! ### Every run -/

theorem Silent.judged {outcome : Room × List BrokerCall} (hann : Announced room announced)
    (h : Silent room outcome) :
    rightWins.Accepts announced outcome.2 ∧
      Announced outcome.1 (rightWins.after announced outcome.2) := by
  obtain ⟨hacc, hafter⟩ := accepts_of_not_isRound announced h.calls
  refine ⟨hacc, fun hs => ?_⟩
  rw [hafter, h.expectedInput]
  exact hann (h.gameplayState ▸ hs)

theorem removePlayer_judged (hann : Announced room announced) (id : PlayerId) :
    rightWins.Accepts announced (room.removePlayer id).2 ∧
      Announced (room.removePlayer id).1
        (rightWins.after announced (room.removePlayer id).2) := by
  unfold removePlayer
  cases room.getPlayerById id with
  | none => exact ⟨trivial, hann⟩
  | some found =>
    exact ⟨⟨trivial, accepts_broadcast_of_no_result _ rfl⟩, fun hs => by cases hs⟩

theorem step_judged {e : Event} {calls : List BrokerCall} (h : WellFormed room)
    (hann : Announced room announced) (hs : room.step e = .ok (room', calls))
    (events : List Event) :
    (rightWins.Accepts announced calls ↔ JudgesRight room e events) ∧
      Announced room' (rightWins.after announced calls) := by
  have of_judged : ∀ outcome : Room × List BrokerCall, outcome = (room', calls) →
      rightWins.Accepts announced outcome.2 ∧
        Announced outcome.1 (rightWins.after announced outcome.2) →
      (rightWins.Accepts announced calls ↔ True) ∧
        Announced room' (rightWins.after announced calls) := by
    rintro outcome rfl hj
    exact ⟨iff_true_intro hj.1, hj.2⟩
  cases e with
  | addPlayer id nickname =>
    exact of_judged _ (Except.ok.inj hs) ((addPlayer_silent room id nickname).judged hann)
  | removePlayer id => exact of_judged _ (Except.ok.inj hs) (removePlayer_judged hann id)
  | handlePlayerMessage id message now =>
    apply of_judged _ (Except.ok.inj hs)
    rcases handlePlayerMessage_silent_or_leaves room id message now with hsilent | hleave
    · exact hsilent.judged hann
    · rw [hleave]
      exact removePlayer_judged hann id
  | tick clock draw => exact tick_judged h hann hs events

/-- The right button wins in every round of a run exactly when every tick that finds both
inputs finds the right ones handled first. -/
theorem rightWins_iff_along (config : RoomConfig) (events : List Event) :
    ∃ room calls, run step (new config) events = .ok (room, calls) ∧
      (rightWins.Accepts none calls ↔ Along step JudgesRight (new config) events) := by
  obtain ⟨room, calls, hrun⟩ := run_ok config events
  refine ⟨room, calls, hrun, ?_⟩
  refine run_accepts_iff_along (R := fun room announced => WellFormed room ∧
    Announced room announced) (fun r b e es r' os hR hs => ?_)
    ⟨wellFormed_new config, fun hs => by cases hs⟩ hrun
  obtain ⟨hiff, hann⟩ := step_judged hR.1 hR.2 hs es
  exact ⟨hiff, step_wellFormed hR.1 hs, hann⟩

/-- `south` is asked for, player 1 presses `west` and is handled before player 2, who presses
`south`.  Player 1 wins. -/
theorem wrong_button_wins :
    ¬ ∀ (config : RoomConfig) (events : List Event) (room : Room) (calls : List BrokerCall),
      run step (new config) events = .ok (room, calls) → rightWins.Accepts none calls := by
  intro h
  let result : GameResultDTO :=
    ⟨some .P1, ⟨.P1, some .west, some 300⟩, ⟨.P2, some .south, some 200⟩⟩
  have hrun : ∃ room pre post, run step (new quickConfig)
      (toExpectingInput ++ [.handlePlayerMessage 1 (.playerInput .west 300) 1,
        .handlePlayerMessage 2 (.playerInput .south 200) 2, .tick (.const 3) 0]) =
        .ok (room, pre ++ .publishGameplayMessage 1 (.gameOverWin result) :: post) ∧
      rightWins.after none pre = some .south := by
    let pre := (run step (new quickConfig) toExpectingInput).toOption.elim [] Prod.snd
    exact ⟨_, pre, [.publishGameplayMessage 2 (.gameOverWin result)], rfl, rfl⟩
  obtain ⟨room, pre, post, hrun, hafter⟩ := hrun
  have hok := (Monitor.accepts_iff_split _ _).1 (h _ _ _ _ hrun) pre _ post rfl
  rw [hafter] at hok
  obtain ⟨a, i, ha, hi, hannounced⟩ := hok.winner result rfl
  cases ha
  cases hi
  cases hannounced

end Room
end SamuraiKirby
