/-
Whether it matters when a room is polled.

Between two presses the loop of the server may tick a room or not.  A tick that
finds one input applies the rules for one player, and a tick that finds both
compares the times at which they were handled.  `tick_between_iff` says when the
two sets of rules agree on the winner.
-/
import SamuraiKirby.Room.Observation

namespace SamuraiKirby

/-- The result that a published game over carries. -/
def BrokerCall.gameResult? : BrokerCall → Option GameResultDTO
  | .publishGameplayMessage _ m => m.gameResult?
  | _ => none

namespace Room

open Transition

/-- The events make the room publish a game over, and every game over that it publishes names
this winner, or none. -/
def DecidedFor (room : Room) (events : List Event) (winner : Option PlayerAssignment) : Prop :=
  ∃ room' calls, run step room events = .ok (room', calls) ∧
    calls.filterMap BrokerCall.gameResult? ≠ [] ∧
    ∀ r ∈ calls.filterMap BrokerCall.gameResult?, r.winningPlayer = winner

/-- The result of a room with `p` in slot `a` and `q` in the other. -/
def resultOf (a : PlayerAssignment) (p q : Player) (winner : Option PlayerAssignment) :
    GameResultDTO :=
  match a with
  | .P1 => ⟨winner, p.buildGameoverDTO, q.buildGameoverDTO⟩
  | .P2 => ⟨winner, q.buildGameoverDTO, p.buildGameoverDTO⟩

theorem winningPlayer_resultOf (a : PlayerAssignment) (p q : Player)
    (winner : Option PlayerAssignment) : (resultOf a p q winner).winningPlayer = winner := by
  cases a <;> rfl

variable {clock clock' : Readings} {draw draw' : Nat} {room room' : Room} {a : PlayerAssignment}
  {p q : Player} {i j : GameplayInput} {s u : ChronoTimePoint} {events : List Event}
  {calls : List BrokerCall} {winner winner' : Option PlayerAssignment}

/-! ## The winner of a run -/

theorem DecidedFor.unique (h : room.DecidedFor events winner)
    (h' : room.DecidedFor events winner') : winner = winner' := by
  obtain ⟨room₁, calls₁, hrun, hne, hall⟩ := h
  obtain ⟨room₂, calls₂, hrun', -, hall'⟩ := h'
  rw [hrun] at hrun'
  cases hrun'
  obtain ⟨r, hr⟩ := List.exists_mem_of_ne_nil _ hne
  exact (hall r hr).symm.trans (hall' r hr)

/-- A silent event decides nothing. -/
theorem decidedFor_cons_silent {e : Event} (hstep : room.step e = .ok (room', [])) :
    room.DecidedFor (e :: events) winner ↔ room'.DecidedFor events winner := by
  have hrun : run step room (e :: events) = run step room' events := by
    rw [run_cons, hstep, seq_ok_nil]
  rw [DecidedFor, DecidedFor, hrun]

theorem filterMap_broadcast_seated (m : GameplayMessage) :
    ((room.seated a p q).broadcastGameplayMessage m).filterMap BrokerCall.gameResult? =
      m.gameResult?.toList ++ m.gameResult?.toList := by
  cases a <;> cases hm : m.gameResult? <;>
    simp [broadcastGameplayMessage, seated, Players.pair, BrokerCall.gameResult?, hm]

/-- An event publishes a game over, and those after it publish none. -/
theorem decidedFor_cons {e : Event} {m : GameplayMessage} {r : GameResultDTO} {room'' : Room}
    (hstep : room.step e = .ok (room', (room.seated a p q).broadcastGameplayMessage m))
    (hm : m.gameResult? = some r) (hrun : run step room' events = .ok (room'', calls))
    (hsilent : calls.filterMap BrokerCall.gameResult? = []) :
    room.DecidedFor (e :: events) r.winningPlayer := by
  refine ⟨room'', _, run_cons_eq_ok.2 ⟨_, _, _, hstep, hrun, rfl⟩, ?_⟩
  rw [List.filterMap_append, filterMap_broadcast_seated, hsilent, hm]
  refine ⟨by simp, fun r' hr' => ?_⟩
  simp only [Option.toList_some, List.cons_append, List.nil_append, List.append_nil, List.mem_cons,
    List.not_mem_nil, or_false, or_self] at hr'
  rw [hr']

/-- The winner of two inputs, handled at `s` in slot `a` and at `u` in the other. -/
def firstHandled (a : PlayerAssignment) (s u : ChronoTimePoint) : Option PlayerAssignment :=
  if s < u then some a else if u < s then some a.other else none

theorem gameResult?_sentence (a : PlayerAssignment) (p q : Player) (s u : ChronoTimePoint) :
    (sentence a p q s u).gameResult? = some (resultOf a p q (firstHandled a s u)) := by
  unfold firstHandled
  cases a with
  | P1 =>
    unfold sentence earlierWins
    split_ifs <;> rfl
  | P2 =>
    unfold sentence earlierWins
    split_ifs <;> first | rfl | omega

/-! ## A tick between the presses -/

section Between

variable (hs : room.gameplayState = .expectingInput) (hp : p.inputPressed = some i)
  (hq : q.inputPressed = none)
include hs hp hq

theorem handleOnePlayerPlayed_waits (hi : i = room.expectedInput)
    (ht : p.inputPressedAtServerTime = some s)
    (hd : getSecondsSince clock.onePlayerPlayed s < room.config.onePlayerInputOnlyTimeout) :
    (room.seated a p q).handleOnePlayerPlayed clock = .ok (room.seated a p q, []) := by
  have hd' : ¬ room.config.onePlayerInputOnlyTimeout ≤ getSecondsSince clock.onePlayerPlayed s :=
    Int.not_le.2 hd
  cases a <;>
    simp [handleOnePlayerPlayed, everyonePlayed, noOnePlayed, bothPlayers, seated, Players.pair,
      Players.get, hs, hp, hq, hi, ht, hd']

theorem handleOnePlayerPlayed_fails (hi : i ≠ room.expectedInput) :
    (room.seated a p q).handleOnePlayerPlayed clock =
      .ok ({ room.seated a p q with gameplayState := .over },
        (room.seated a p q).broadcastGameplayMessage
          (.gameOverWrongInput (resultOf a p q (some a.other)))) := by
  cases a <;>
    simp [handleOnePlayerPlayed, everyonePlayed, noOnePlayed, bothPlayers, seated, Players.pair,
      Players.get, hs, hp, hq, hi, buildGameResultDTO, resultOf, broadcastGameplayMessage,
      PlayerAssignment.other]

/-- One right input within its time is no news. -/
theorem tick_between_right (hi : i = room.expectedInput)
    (ht : p.inputPressedAtServerTime = some s)
    (hd : getSecondsSince clock.onePlayerPlayed s < room.config.onePlayerInputOnlyTimeout) :
    (room.seated a p q).step (.tick clock draw) = .ok (room.seated a p q, []) := by
  have heveryone : (room.seated a p q).everyonePlayed = false := by
    rw [everyonePlayed, bothPlayers_seated, hq]
    exact Bool.and_false _
  have hnoOne : (room.seated a p q).noOnePlayed = false := by
    rw [noOnePlayed, bothPlayers_seated, hp]
    rfl
  rw [step, tick, seated_gameplayState, hs]
  refine run_cons_eq_ok.2 ⟨_, [], [], handleOnePlayerPlayed_waits hs hp hq hi ht hd, ?_, rfl⟩
  refine run_cons_eq_ok.2 ⟨room.seated a p q, [], [], ?_, ?_, rfl⟩
  · simp [Handler.call, handleEveryonePlayed, heveryone]
  · rw [run_singleton]
    simp [Handler.call, handleTimeout, hnoOne]

/-- One wrong input loses. -/
theorem tick_between_wrong (hi : i ≠ room.expectedInput) :
    (room.seated a p q).step (.tick clock draw) =
      .ok ({ room.seated a p q with gameplayState := .over },
        (room.seated a p q).broadcastGameplayMessage
          (.gameOverWrongInput (resultOf a p q (some a.other)))) := by
  rw [step, tick, seated_gameplayState, hs]
  refine run_cons_eq_ok.2 ⟨_, _, [], handleOnePlayerPlayed_fails hs hp hq hi, ?_,
    (List.append_nil _).symm⟩
  refine run_cons_eq_ok.2 ⟨{ room.seated a p q with gameplayState := .over }, [], [], ?_, ?_, rfl⟩
  · simp [Handler.call, handleEveryonePlayed]
  · rw [run_singleton]
    simp [Handler.call, handleTimeout]

end Between

/-- After a round a tick only starts the replay. -/
theorem filterMap_tick_over (h : WellFormed room) (hs : room.gameplayState = .over)
    (hstep : room.step (.tick clock draw) = .ok (room', calls)) :
    calls.filterMap BrokerCall.gameResult? = [] := by
  obtain ⟨ms, rfl, hcase, -⟩ := tick_cases h hstep
  have hsilent : ∀ m ∈ ms, m.gameResult? = none := by
    have hturn : ∀ {handler room₁ ms₁}, Turn clock draw room handler room₁ ms₁ →
        ∀ m ∈ ms₁, m.gameResult? = none := by
      intro handler room₁ ms₁ ht m hm
      cases ht with
      | idle => cases hm
      | replay =>
        rw [List.mem_singleton.1 hm]
        rfl
      | _ => simp_all
    cases hcase with
    | turn ht => exact hturn ht
    | twoTurns first second =>
      obtain ⟨rfl, rfl⟩ := first.idle_of_over hs (by decide)
      exact hturn second
  rw [List.filterMap_eq_nil_iff]
  intro c hc
  obtain ⟨m, hm, hc⟩ := List.mem_flatMap.1 hc
  rw [broadcastGameplayMessage_eq] at hc
  obtain ⟨id, -, rfl⟩ := List.mem_map.1 hc
  exact hsilent m hm

/-- The players of two slots have different ids if messages reach both. -/
theorem seated_of_getPlayerById {id id' : PlayerId} (hg : room.getPlayerById id = some (a, p))
    (hg' : room.getPlayerById id' = some (a.other, q)) :
    room = room.seated a p q ∧ p.id = id ∧ q.id = id' ∧ p.id ≠ q.id := by
  obtain ⟨hp, hid⟩ := getPlayerById_eq_some hg
  obtain ⟨hq, hid'⟩ := getPlayerById_eq_some hg'
  refine ⟨?_, hid, hid', fun heq => ?_⟩
  · cases room with
    | mk config state players input at' ready =>
      cases a <;> cases players <;>
        simp_all [seated, Players.pair, Players.get, PlayerAssignment.other]
  · rw [hid, hid'] at heq
    rw [heq, hg'] at hg
    exact PlayerAssignment.other_ne a (Prod.mk.inj (Option.some.inj hg)).1

theorem getSecondsSince_lt {now reference : ChronoTimePoint} {seconds : Int}
    (hle : reference ≤ now) (h : now - reference < seconds * nanosecondsPerSecond) :
    getSecondsSince now reference < seconds := by
  have hnonneg : 0 ≤ now - reference := Int.sub_nonneg.2 hle
  have hwhole : Int.tdiv (now - reference) nanosecondsPerSecond < seconds := by
    rw [Int.tdiv_eq_ediv_of_nonneg hnonneg]
    exact Int.ediv_lt_of_lt_mul (by decide) h
  have hnarrow : ∀ n : Int, 0 ≤ n → Int.bmod n wordSize ≤ n := by
    intro n hn
    unfold wordSize
    rw [Int.bmod_def]
    split <;> omega
  refine Int.lt_of_le_of_lt (hnarrow _ ?_) hwhole
  rw [Int.tdiv_eq_ediv_of_nonneg hnonneg]
  exact Int.ediv_nonneg hnonneg (by decide)

/-! ## Polling -/

/-- An input of each of two players, handled one after the other. -/
structure InputPair where
  id : PlayerId
  button : GameplayInput
  declared : Int
  handled : ChronoTimePoint
  otherId : PlayerId
  otherButton : GameplayInput
  otherDeclared : Int
  otherHandled : ChronoTimePoint

namespace InputPair

def first (presses : InputPair) : Event :=
  .handlePlayerMessage presses.id (.playerInput presses.button presses.declared) presses.handled

def second (presses : InputPair) : Event :=
  .handlePlayerMessage presses.otherId
    (.playerInput presses.otherButton presses.otherDeclared) presses.otherHandled

/-- No tick comes between the inputs. -/
def unpolled (presses : InputPair) (last : Readings) (draw : Nat) : List Event :=
  [presses.first, presses.second, .tick last draw]

/-- A tick comes between the inputs. -/
def polled (presses : InputPair) (between last : Readings) (draw draw' : Nat) : List Event :=
  [presses.first, .tick between draw, presses.second, .tick last draw']

end InputPair

section Polling

variable {presses : InputPair} {between last : Readings}

theorem decidedFor_unpolled (hs : room.gameplayState = .expectingInput) (hid : p.id ≠ q.id)
    (hp : p.id = presses.id) (hq : q.id = presses.otherId) :
    (room.seated a p q).DecidedFor (presses.unpolled last draw)
      (firstHandled a presses.handled presses.otherHandled) := by
  have hfirst := step_press room a hid presses.button presses.declared presses.handled
  have hsecond := @step_press_other (p.press presses.button presses.declared presses.handled) q
    room a hid presses.otherButton presses.otherDeclared presses.otherHandled
  rw [hp] at hfirst
  rw [hq] at hsecond
  rw [InputPair.unpolled, InputPair.first, InputPair.second, decidedFor_cons_silent hfirst,
    decidedFor_cons_silent hsecond]
  have hjudge := @tick_judges last draw room a
    (p.press presses.button presses.declared presses.handled)
    (q.press presses.otherButton presses.otherDeclared presses.otherHandled)
    presses.button presses.otherButton presses.handled presses.otherHandled hs rfl rfl rfl rfl
  have hdecided := decidedFor_cons hjudge (gameResult?_sentence ..) (run_nil _) rfl
  rwa [winningPlayer_resultOf] at hdecided

/-- With a right first input the tick between the inputs might as well not be there. -/
theorem decidedFor_polled_right (hs : room.gameplayState = .expectingInput) (hid : p.id ≠ q.id)
    (hp : p.id = presses.id) (hno : q.inputPressed = none)
    (hright : presses.button = room.expectedInput)
    (hd : getSecondsSince between.onePlayerPlayed presses.handled <
      room.config.onePlayerInputOnlyTimeout) :
    (room.seated a p q).DecidedFor (presses.polled between last draw draw') winner ↔
      (room.seated a p q).DecidedFor (presses.unpolled last draw') winner := by
  have hfirst := step_press room a hid presses.button presses.declared presses.handled
  have htick := @tick_between_right between draw room a
    (p.press presses.button presses.declared presses.handled) q presses.button presses.handled
    hs rfl hno hright rfl hd
  rw [hp] at hfirst
  rw [InputPair.polled, InputPair.unpolled, InputPair.first, decidedFor_cons_silent hfirst,
    decidedFor_cons_silent htick, decidedFor_cons_silent hfirst]

/-- With a wrong first input the tick between the inputs decides for the other player. -/
theorem decidedFor_polled_wrong (hw : WellFormed (room.seated a p q))
    (hs : room.gameplayState = .expectingInput) (hid : p.id ≠ q.id) (hp : p.id = presses.id)
    (hq : q.id = presses.otherId) (hno : q.inputPressed = none)
    (hwrong : presses.button ≠ room.expectedInput) :
    (room.seated a p q).DecidedFor (presses.polled between last draw draw') (some a.other) := by
  have hfirst := step_press room a hid presses.button presses.declared presses.handled
  have htick := @tick_between_wrong between draw room a
    (p.press presses.button presses.declared presses.handled) q presses.button hs rfl hno hwrong
  have hsecond := @step_press_other (p.press presses.button presses.declared presses.handled) q
    { room with gameplayState := .over } a hid presses.otherButton presses.otherDeclared
    presses.otherHandled
  have hw' := step_wellFormed (step_wellFormed (step_wellFormed hw hfirst) htick) hsecond
  obtain ⟨room', calls, hlast⟩ := step_ok hw' (.tick last draw')
  rw [hp] at hfirst
  rw [hq] at hsecond
  rw [InputPair.polled, InputPair.first, InputPair.second, decidedFor_cons_silent hfirst]
  have hdecided := decidedFor_cons htick rfl
    (run_cons_eq_ok.2 ⟨_, [], _, hsecond, (run_singleton _ _).trans hlast, rfl⟩)
    (filterMap_tick_over hw' rfl hlast)
  rwa [winningPlayer_resultOf] at hdecided

/-- In a room that expects an input and has none, let both players press within the time that one
input alone waits.  Whether the room is polled between the two inputs makes no difference to
the winner exactly if the input that is handled first is the right one. -/
theorem tick_between_iff {config : RoomConfig} {before : List Event} {room : Room}
    {calls₀ : List BrokerCall} (hrun : run step (new config) before = .ok (room, calls₀))
    (hs : room.gameplayState = .expectingInput) (hno : room.noOnePlayed = true)
    {a : PlayerAssignment} {p q : Player} {presses : InputPair}
    (hfirst : room.getPlayerById presses.id = some (a, p))
    (hsecond : room.getPlayerById presses.otherId = some (a.other, q))
    (htime : presses.otherHandled - presses.handled <
      room.config.onePlayerInputOnlyTimeout * nanosecondsPerSecond) {between : Readings}
    (hbetween : presses.handled ≤ between.onePlayerPlayed ∧
      between.onePlayerPlayed ≤ presses.otherHandled) (last : Readings) (draw draw' : Nat) :
    (∃ winner, room.DecidedFor (presses.unpolled last draw') winner ∧
      room.DecidedFor (presses.polled between last draw draw') winner) ↔
        presses.button = room.expectedInput := by
  have hw := run_wellFormed hrun
  obtain ⟨hseated, hp, hq, hid⟩ := seated_of_getPlayerById hfirst hsecond
  have hnone : q.inputPressed = none := by
    have hq' := of_bothPlayers hno (getPlayerById_eq_some hsecond).1
    simpa using hq'
  have hunpolled : room.DecidedFor (presses.unpolled last draw')
      (firstHandled a presses.handled presses.otherHandled) := by
    rw [hseated]
    exact decidedFor_unpolled hs hid hp hq
  constructor
  · rintro ⟨winner, hwinner, hpolled⟩
    refine Decidable.by_contra fun hwrong => ?_
    have hother : room.DecidedFor (presses.polled between last draw draw') (some a.other) := by
      rw [hseated]
      exact decidedFor_polled_wrong (hseated ▸ hw) hs hid hp hq hnone hwrong
    have hsame := (hunpolled.unique hwinner).trans (hpolled.unique hother)
    -- the input handled first does not lose when both are judged together
    have hle : presses.handled ≤ presses.otherHandled := Int.le_trans hbetween.1 hbetween.2
    unfold firstHandled at hsame
    split_ifs at hsame with hlt hgt
    · exact PlayerAssignment.other_ne a (Option.some.inj hsame).symm
    · exact absurd hgt (Int.not_lt.2 hle)
  · intro hright
    refine ⟨_, hunpolled, ?_⟩
    rw [hseated] at hunpolled ⊢
    refine (decidedFor_polled_right hs hid hp hnone hright ?_).2 hunpolled
    exact getSecondsSince_lt hbetween.1
      (Int.lt_of_le_of_lt (Int.sub_le_sub_right hbetween.2 _) htime)

/-- Players 1 and 2 press a moment apart, player 1 first. -/
def pressesOf (button : GameplayInput) : InputPair := ⟨1, button, 200, 1, 2, .south, 200, 2⟩

/-- Players 1 and 2 are asked for `south`, and an input waits a second for the other. -/
def patientRoom : Room where
  config := ⟨.easy, 0, 5, 1⟩
  gameplayState := .expectingInput
  players := ⟨some ⟨1, [], .P1, true, true, false, none, none, none⟩,
    some ⟨2, [], .P2, true, true, false, none, none, none⟩⟩
  expectedInput := .south
  everyoneCanPlayAt := some 0
  readyForInputAt := some 0

theorem tick_between_iff_south :
    ∃ winner, patientRoom.DecidedFor ((pressesOf .south).unpolled (.const 3) 0) winner ∧
      patientRoom.DecidedFor ((pressesOf .south).polled (.const 1) (.const 3) 0 0) winner :=
  (@tick_between_iff ⟨.easy, 0, 5, 1⟩ toExpectingInput patientRoom _ rfl rfl rfl .P1 _ _
    (pressesOf .south) rfl rfl (by decide) (.const 1) (by decide) (.const 3) 0 0).2 rfl

theorem polling_changes_winner :
    ¬ ∀ (config : RoomConfig) (before : List Event) (room : Room) (calls : List BrokerCall)
        (a : PlayerAssignment) (p q : Player) (presses : InputPair) (between last : Readings)
        (draw draw' : Nat),
      run step (new config) before = .ok (room, calls) → room.gameplayState = .expectingInput →
      room.noOnePlayed = true → room.getPlayerById presses.id = some (a, p) →
      room.getPlayerById presses.otherId = some (a.other, q) →
      presses.otherHandled - presses.handled <
        room.config.onePlayerInputOnlyTimeout * nanosecondsPerSecond →
      (∀ requested, room.readyForInputAt = some requested →
        presses.otherHandled - requested < room.config.noInputTimeout * nanosecondsPerSecond) →
      presses.handled ≤ between.onePlayerPlayed ∧
        between.onePlayerPlayed ≤ presses.otherHandled →
      ∃ winner, room.DecidedFor (presses.unpolled last draw') winner ∧
        room.DecidedFor (presses.polled between last draw draw') winner := by
  intro hall
  obtain ⟨winner, hunpolled, hpolled⟩ := hall ⟨.easy, 0, 5, 1⟩ toExpectingInput patientRoom _ .P1
    _ _ (pressesOf .north) (.const 1) (.const 3) 0 0 rfl rfl rfl rfl rfl (by decide)
    (fun requested h => by cases h; decide) (by decide)
  obtain ⟨room₁, calls₁, hrun₁, -, hall₁⟩ := hunpolled
  obtain ⟨room₂, calls₂, hrun₂, -, hall₂⟩ := hpolled
  cases hrun₁
  cases hrun₂
  -- player 1 was handled first, but a tick finds the wrong button
  have hfirst : some PlayerAssignment.P1 = winner := hall₁ _ (List.mem_cons_self ..)
  have hsecond : some PlayerAssignment.P2 = winner := hall₂ _ (List.mem_cons_self ..)
  cases hfirst.trans hsecond.symm

end Polling

end Room
end SamuraiKirby
