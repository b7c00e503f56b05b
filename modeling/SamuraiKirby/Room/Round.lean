/-
The round automaton, and that the tick of a well formed room follows it.

`Turn` lists what a handler can do to a room: stay idle, or take one of the
transitions of a round and broadcast its message.  A constructor names the
transition and carries the facts the handler has checked.  `Handler.call_turn`
proves that every handler takes a turn, which is also the proof that no
`.value()` in it meets an empty optional.
-/
import SamuraiKirby.Room.Invariant

namespace SamuraiKirby
namespace Room

/-- Broadcast a list of messages one after the other. -/
def broadcastAll (room : Room) (ms : List GameplayMessage) : List BrokerCall :=
  ms.flatMap room.broadcastGameplayMessage

/-- Slot `a` holds `p`, who pressed `i`, and the other slot holds `q`, who pressed nothing. -/
structure OnlyPlayed (room : Room) (a : PlayerAssignment) (p q : Player)
    (i : GameplayInput) : Prop where
  player : room.players.get a = some p
  other : room.players.get a.other = some q
  pressed : p.inputPressed = some i
  notPressed : q.inputPressed = none

/-- The transitions of a round, by the handler that takes them. -/
inductive Turn (clock : Readings) (draw : Nat) (room : Room) :
    Handler → Room → List GameplayMessage → Prop where
  | idle (handler : Handler) : Turn clock draw room handler room []
  | allReady (hs : room.gameplayState = .waitingPlayers) (hr : room.isEveryoneReady = true) :
      Turn clock draw room .handleEveryoneReady { room with gameplayState := .started }
        [.allReadyGameStarting]
  | firstCanPlay (hs : room.gameplayState = .started) (hc : room.everyoneCanPlay = true)
      (hn : room.everyoneCanPlayAt = none) :
      Turn clock draw room .handleEveryoneCanPlay
        { room with everyoneCanPlayAt := some clock.everyoneCanPlay } []
  | expectingInput (reference : ChronoTimePoint) (hs : room.gameplayState = .started)
      (hc : room.everyoneCanPlay = true)
      (hr : room.everyoneCanPlayAt.getD clock.everyoneCanPlay = reference)
      (hd : room.config.secondsBeforeInputRequest ≤
        getSecondsSince clock.beforeInputRequest reference) :
      Turn clock draw room .handleEveryoneCanPlay
        { room with
          gameplayState := .expectingInput
          everyoneCanPlayAt := some reference
          readyForInputAt := some clock.readyForInput
          expectedInput := room.getRandomGameplayInput draw }
        [.gameExpectingInput (room.getRandomGameplayInput draw)]
  | earlyInput (a : PlayerAssignment) (p q : Player) (i : GameplayInput) (r : GameResultDTO)
      (hs : room.gameplayState = .started) (hp : room.OnlyPlayed a p q i)
      (hr : room.buildGameResultDTO (some a.other) = .ok r) :
      Turn clock draw room .handleOnePlayerPlayed { room with gameplayState := .over }
        [.gameOverEarlyInput r]
  | wrongInput (a : PlayerAssignment) (p q : Player) (i : GameplayInput) (r : GameResultDTO)
      (hs : room.gameplayState = .expectingInput) (hp : room.OnlyPlayed a p q i)
      (hi : i ≠ room.expectedInput)
      (hr : room.buildGameResultDTO (some a.other) = .ok r) :
      Turn clock draw room .handleOnePlayerPlayed { room with gameplayState := .over }
        [.gameOverWrongInput r]
  | winAlone (a : PlayerAssignment) (p q : Player) (i : GameplayInput) (r : GameResultDTO)
      (pressedAt : ChronoTimePoint)
      (hs : room.gameplayState = .expectingInput) (hp : room.OnlyPlayed a p q i)
      (hi : i = room.expectedInput) (ht : p.inputPressedAtServerTime = some pressedAt)
      (hd : room.config.onePlayerInputOnlyTimeout ≤
        getSecondsSince clock.onePlayerPlayed pressedAt)
      (hr : room.buildGameResultDTO (some a) = .ok r) :
      Turn clock draw room .handleOnePlayerPlayed { room with gameplayState := .over }
        [.gameOverWin r]
  | winFirst (a : PlayerAssignment) (p q : Player) (pressedAt otherPressedAt : ChronoTimePoint)
      (r : GameResultDTO) (hs : room.gameplayState = .expectingInput)
      (he : room.everyonePlayed = true)
      (hp : room.players.get a = some p) (hq : room.players.get a.other = some q)
      (ht : p.inputPressedAtServerTime = some pressedAt)
      (ht' : q.inputPressedAtServerTime = some otherPressedAt)
      (hlt : pressedAt < otherPressedAt)
      (hr : room.buildGameResultDTO (some a) = .ok r) :
      Turn clock draw room .handleEveryonePlayed { room with gameplayState := .over }
        [.gameOverWin r]
  | drawTie (p1 p2 : Player) (pressedAt : ChronoTimePoint) (r : GameResultDTO)
      (hs : room.gameplayState = .expectingInput) (he : room.everyonePlayed = true)
      (hp : room.players.P1 = some p1) (hq : room.players.P2 = some p2)
      (ht : p1.inputPressedAtServerTime = some pressedAt)
      (ht' : p2.inputPressedAtServerTime = some pressedAt)
      (hr : room.buildGameResultDTO none = .ok r) :
      Turn clock draw room .handleEveryonePlayed { room with gameplayState := .over }
        [.gameOverDraw r]
  | drawTimeout (reference : ChronoTimePoint) (r : GameResultDTO)
      (hs : room.gameplayState = .expectingInput) (hn : room.noOnePlayed = true)
      (href : room.readyForInputAt = some reference)
      (hd : room.config.noInputTimeout ≤ getSecondsSince clock.timeout reference)
      (hr : room.buildGameResultDTO none = .ok r) :
      Turn clock draw room .handleTimeout { room with gameplayState := .over }
        [.gameOverDraw r]
  | replay (hs : room.gameplayState = .over) (hw : room.everyoneWantsToReplay = true) :
      Turn clock draw room .handleReplay
        { room with
          gameplayState := .started
          players := room.players.map Player.resetToReplay
          expectedInput := .north
          everyoneCanPlayAt := none
          readyForInputAt := none }
        [.allReplayReadyGameStarting]

/-! ## Full rooms -/

theorem bothPlayers_eq_true {room : Room} {test : Player → Bool} :
    room.bothPlayers test = true ↔
      ∃ p1 p2, room.players = ⟨some p1, some p2⟩ ∧ test p1 = true ∧ test p2 = true := by
  unfold bothPlayers
  cases hp : room.players with
  | mk P1 P2 => cases P1 <;> cases P2 <;> simp

theorem bothPlayers_of_full {room : Room} {p1 p2 : Player}
    (hp : room.players = ⟨some p1, some p2⟩) (test : Player → Bool) :
    room.bothPlayers test = (test p1 && test p2) := by
  simp [bothPlayers, hp]

theorem buildGameResultDTO_of_full {room : Room} {p1 p2 : Player}
    (hp : room.players = ⟨some p1, some p2⟩) (w : Option PlayerAssignment) :
    room.buildGameResultDTO w = .ok ⟨w, p1.buildGameoverDTO, p2.buildGameoverDTO⟩ := by
  simp [buildGameResultDTO, hp]

@[simp] theorem buildGameResultDTO_withState (room : Room) (s : GameplayState)
    (w : Option PlayerAssignment) :
    buildGameResultDTO { room with gameplayState := s } w = room.buildGameResultDTO w := rfl

/-- In a full room where the presses are neither both present nor both absent, the slot the
source takes for the one who played did play, and the other slot did not. -/
theorem exists_onlyPlayed {room : Room} {p1 p2 : Player}
    (hp : room.players = ⟨some p1, some p2⟩) (he : room.everyonePlayed = false)
    (hn : room.noOnePlayed = false) :
    ∃ p q i, room.OnlyPlayed (if p1.inputPressed.isSome then .P1 else .P2) p q i := by
  rw [everyonePlayed, bothPlayers_of_full hp] at he
  rw [noOnePlayed, bothPlayers_of_full hp] at hn
  cases h1 : p1.inputPressed with
  | none =>
    cases h2 : p2.inputPressed with
    | none => simp [h1, h2] at hn
    | some i =>
      refine ⟨p2, p1, i, ?_, ?_, h2, h1⟩
      · simp [hp, Players.get]
      · simp [hp, Players.get, PlayerAssignment.other]
  | some i =>
    cases h2 : p2.inputPressed with
    | none =>
      refine ⟨p1, p2, i, ?_, ?_, h1, h2⟩
      · simp [hp, Players.get]
      · simp [hp, Players.get, PlayerAssignment.other]
    | some j => simp [h1, h2] at he

/-! ## Every handler takes a turn -/

/-- What it takes for a handler to follow the automaton in a room. -/
def TakesTurn (clock : Readings) (draw : Nat) (room : Room) (handler : Handler)
    (outcome : Except BadOptionalAccess (Room × List BrokerCall)) : Prop :=
  ∃ room' ms, outcome = .ok (room', room'.broadcastAll ms) ∧
    Turn clock draw room handler room' ms

variable {clock : Readings} {draw : Nat} {room : Room}

theorem takesTurn_idle (handler : Handler) :
    TakesTurn clock draw room handler (.ok (room, [])) :=
  ⟨room, [], rfl, .idle handler⟩

theorem broadcastAll_singleton (room : Room) (m : GameplayMessage) :
    room.broadcastAll [m] = room.broadcastGameplayMessage m := by
  simp [broadcastAll]

theorem handleEveryoneReady_turn :
    TakesTurn clock draw room .handleEveryoneReady room.handleEveryoneReady := by
  unfold handleEveryoneReady
  by_cases hg : room.gameplayState ≠ .waitingPlayers ∨ !room.isEveryoneReady
  · rw [if_pos hg]
    exact takesTurn_idle _
  · rw [if_neg hg]
    simp only [not_or, not_not, Bool.not_eq_true', Bool.not_eq_false] at hg
    exact ⟨_, _, by rw [broadcastAll_singleton]; rfl, .allReady hg.1 hg.2⟩

theorem handleEveryoneCanPlay_turn :
    TakesTurn clock draw room .handleEveryoneCanPlay (room.handleEveryoneCanPlay clock draw) := by
  unfold handleEveryoneCanPlay
  by_cases hg : room.gameplayState ≠ .started ∨ !room.everyoneCanPlay
  · rw [if_pos hg]
    exact takesTurn_idle _
  · rw [if_neg hg]
    simp only [not_or, not_not, Bool.not_eq_true', Bool.not_eq_false] at hg
    cases hn : room.everyoneCanPlayAt with
    | none =>
      by_cases hd : room.config.secondsBeforeInputRequest ≤
          getSecondsSince clock.beforeInputRequest clock.everyoneCanPlay
      · refine ⟨_, _, ?_, .expectingInput clock.everyoneCanPlay hg.1 hg.2 (by rw [hn]; rfl) hd⟩
        simp only [hd, Option.isNone_none, if_true, value_some, ok_bind, ge_iff_le, pure_eq_ok,
          broadcastAll_singleton]
        rfl
      · refine ⟨_, _, ?_, .firstCanPlay hg.1 hg.2 hn⟩
        simp [hd, broadcastAll]
    | some reference =>
      by_cases hd : room.config.secondsBeforeInputRequest ≤
          getSecondsSince clock.beforeInputRequest reference
      · refine ⟨_, _, ?_, .expectingInput reference hg.1 hg.2 (by rw [hn]; rfl) hd⟩
        simp only [hn, hd, Option.isNone_some, Bool.false_eq_true, if_true, if_false, value_some,
          ok_bind, ge_iff_le, pure_eq_ok, broadcastAll_singleton]
      · simp only [hn, hd, Option.isNone_some, Bool.false_eq_true, if_false, value_some, ok_bind,
          ge_iff_le, pure_eq_ok]
        exact takesTurn_idle _

theorem handleOnePlayerPlayed_turn (h : WellFormed room) :
    TakesTurn clock draw room .handleOnePlayerPlayed (room.handleOnePlayerPlayed clock) := by
  unfold handleOnePlayerPlayed
  by_cases hg : room.gameplayState ≠ .started ∧ room.gameplayState ≠ .expectingInput
  · rw [if_pos hg]
    exact takesTurn_idle _
  rw [if_neg hg]
  have hlobby : room.gameplayState ≠ .waitingPlayers := by
    intro hs
    exact hg (by rw [hs]; decide)
  obtain ⟨p1, p2, hp⟩ := h.full hlobby
  by_cases hb : (room.everyonePlayed || room.noOnePlayed) = true
  · rw [if_pos hb]
    exact takesTurn_idle _
  rw [if_neg hb]
  simp only [Bool.or_eq_true, not_or, Bool.not_eq_true] at hb
  obtain ⟨p, q, i, hone⟩ := exists_onlyPlayed hp hb.1 hb.2
  have hp1 : room.players.P1 = some p1 := by rw [hp]
  simp only [hp1, value_some, ok_bind]
  -- from here on the slot is `whoPlayed`, whichever it is
  generalize (if p1.inputPressed.isSome = true then PlayerAssignment.P1 else .P2) = a at hone ⊢
  by_cases hs : room.gameplayState = .expectingInput
  · obtain ⟨pressedAt, ht⟩ := Option.isSome_iff_exists.1
      ((h.paired a p hone.player).handled (by rw [hone.pressed]; rfl))
    by_cases hi : i = room.expectedInput
    · by_cases hd : room.config.onePlayerInputOnlyTimeout ≤
          getSecondsSince clock.onePlayerPlayed pressedAt
      · refine ⟨_, _, ?_, .winAlone a p q i _ pressedAt hs hone hi ht hd
          (buildGameResultDTO_of_full hp _)⟩
        simp [hs, hone.player, hone.pressed, hi, ht, hd, broadcastAll_singleton,
          buildGameResultDTO_of_full hp]
      · simp only [hs, hone.player, hone.pressed, hi, ht, hd, value_some, ok_bind, ne_eq,
          not_true_eq_false, if_false, ge_iff_le, pure_eq_ok]
        exact takesTurn_idle _
    · refine ⟨_, _, ?_, .wrongInput a p q i _ hs hone hi (buildGameResultDTO_of_full hp _)⟩
      simp [hs, hone.player, hone.pressed, hi, broadcastAll_singleton,
        buildGameResultDTO_of_full hp]
  · have hst : room.gameplayState = .started := by
      by_cases hst : room.gameplayState = .started
      · exact hst
      · exact absurd ⟨hst, hs⟩ hg
    refine ⟨_, _, ?_, .earlyInput a p q i _ hst hone (buildGameResultDTO_of_full hp _)⟩
    simp [hs, broadcastAll_singleton, buildGameResultDTO_of_full hp]

theorem handleEveryonePlayed_turn (h : WellFormed room) :
    TakesTurn clock draw room .handleEveryonePlayed room.handleEveryonePlayed := by
  unfold handleEveryonePlayed
  by_cases hs : room.gameplayState = .expectingInput
  · by_cases he : room.everyonePlayed = true
    · obtain ⟨p1, p2, hp, h1, h2⟩ := bothPlayers_eq_true.1 he
      have hp1 : room.players.get .P1 = some p1 := by rw [hp]; rfl
      have hp2 : room.players.get .P2 = some p2 := by rw [hp]; rfl
      obtain ⟨t1, ht1⟩ := Option.isSome_iff_exists.1 ((h.paired .P1 p1 hp1).handled h1)
      obtain ⟨t2, ht2⟩ := Option.isSome_iff_exists.1 ((h.paired .P2 p2 hp2).handled h2)
      rcases Int.lt_trichotomy t1 t2 with hlt | heq | hgt
      · refine ⟨_, _, ?_, .winFirst .P1 p1 p2 t1 t2 _ hs he hp1 hp2 ht1 ht2 hlt
          (buildGameResultDTO_of_full hp _)⟩
        simp [hs, he, hp, ht1, ht2, hlt, broadcastAll_singleton, buildGameResultDTO]
      · subst heq
        refine ⟨_, _, ?_, .drawTie p1 p2 t1 _ hs he hp1 hp2 ht1 ht2
          (buildGameResultDTO_of_full hp _)⟩
        simp [hs, he, hp, ht1, ht2, broadcastAll_singleton, buildGameResultDTO]
      · have hnlt : ¬ t1 < t2 := Int.lt_asymm hgt
        refine ⟨_, _, ?_, .winFirst .P2 p2 p1 t2 t1 _ hs he hp2 hp1 ht2 ht1 hgt
          (buildGameResultDTO_of_full hp _)⟩
        simp [hs, he, hp, ht1, ht2, hnlt, hgt, broadcastAll_singleton, buildGameResultDTO]
    · simp only [hs, he, ne_eq, not_true_eq_false, if_false, Bool.not_false, if_true]
      exact takesTurn_idle _
  · rw [if_pos hs]
    exact takesTurn_idle _

theorem handleTimeout_turn (h : WellFormed room) :
    TakesTurn clock draw room .handleTimeout (room.handleTimeout clock) := by
  unfold handleTimeout
  by_cases hs : room.gameplayState = .expectingInput
  · by_cases hn : room.noOnePlayed = true
    · obtain ⟨p1, p2, hp, -, -⟩ := bothPlayers_eq_true.1 hn
      obtain ⟨reference, href⟩ := Option.isSome_iff_exists.1 (h.readyForInput hs)
      by_cases hd : room.config.noInputTimeout ≤ getSecondsSince clock.timeout reference
      · refine ⟨_, _, ?_, .drawTimeout reference _ hs hn href hd (buildGameResultDTO_of_full hp _)⟩
        simp [hs, hn, href, hd, broadcastAll_singleton, buildGameResultDTO_of_full hp,
          broadcastGameplayMessage]
      · simp only [hs, hn, href, hd, ne_eq, not_true_eq_false, if_false, Bool.not_true,
          Bool.false_eq_true, value_some, ok_bind, ge_iff_le, pure_eq_ok]
        exact takesTurn_idle _
    · simp only [hs, hn, ne_eq, not_true_eq_false, if_false, Bool.not_false, if_true]
      exact takesTurn_idle _
  · rw [if_pos hs]
    exact takesTurn_idle _

theorem handleReplay_turn : TakesTurn clock draw room .handleReplay room.handleReplay := by
  unfold handleReplay
  by_cases hg : room.gameplayState ≠ .over ∨ !room.everyoneWantsToReplay
  · rw [if_pos hg]
    exact takesTurn_idle _
  · rw [if_neg hg]
    simp only [not_or, not_not, Bool.not_eq_true', Bool.not_eq_false] at hg
    obtain ⟨p1, p2, hp, -, -⟩ := bothPlayers_eq_true.1 hg.2
    refine ⟨_, _, ?_, .replay hg.1 hg.2⟩
    simp [hp, Players.map, broadcastAll_singleton, broadcastGameplayMessage]

/-- In a well formed room every handler returns, and what it did is a transition of the round
automaton whose message it broadcast. -/
theorem Handler.call_turn (h : WellFormed room) (handler : Handler) :
    TakesTurn clock draw room handler (handler.call clock draw room) := by
  cases handler with
  | handleEveryoneReady => exact handleEveryoneReady_turn
  | handleEveryoneCanPlay => exact handleEveryoneCanPlay_turn
  | handleOnePlayerPlayed => exact handleOnePlayerPlayed_turn h
  | handleEveryonePlayed => exact handleEveryonePlayed_turn h
  | handleTimeout => exact handleTimeout_turn h
  | handleReplay => exact handleReplay_turn

/-! ## The invariant is kept -/

/-- A transition out of the lobby leaves a full room. -/
theorem Turn.wellFormed {room' : Room} {handler : Handler} {ms : List GameplayMessage}
    (h : WellFormed room) (ht : Turn clock draw room handler room' ms) : WellFormed room' := by
  cases ht with
  | idle => exact h
  | allReady hs hr =>
    obtain ⟨p1, p2, hp, -, -⟩ := bothPlayers_eq_true.1 hr
    exact ⟨h.slot, h.paired, fun _ => ⟨p1, p2, hp⟩, fun hs => by cases hs⟩
  | firstCanPlay hs =>
    exact ⟨h.slot, h.paired, h.full, h.readyForInput⟩
  | expectingInput reference hs =>
    exact ⟨h.slot, h.paired, fun _ => h.full (by rw [hs]; decide), fun _ => rfl⟩
  | earlyInput a p q i r hs =>
    exact ⟨h.slot, h.paired, fun _ => h.full (by rw [hs]; decide), fun hs => by cases hs⟩
  | wrongInput a p q i r hs =>
    exact ⟨h.slot, h.paired, fun _ => h.full (by rw [hs]; decide), fun hs => by cases hs⟩
  | winAlone a p q i r t hs =>
    exact ⟨h.slot, h.paired, fun _ => h.full (by rw [hs]; decide), fun hs => by cases hs⟩
  | winFirst a p q t t' r hs =>
    exact ⟨h.slot, h.paired, fun _ => h.full (by rw [hs]; decide), fun hs => by cases hs⟩
  | drawTie p1 p2 t r hs =>
    exact ⟨h.slot, h.paired, fun _ => h.full (by rw [hs]; decide), fun hs => by cases hs⟩
  | drawTimeout reference r hs =>
    exact ⟨h.slot, h.paired, fun _ => h.full (by rw [hs]; decide), fun hs => by cases hs⟩
  | replay hs hw =>
    obtain ⟨p1, p2, hp, -, -⟩ := bothPlayers_eq_true.1 hw
    refine ⟨?_, ?_, fun _ => ⟨p1.resetToReplay, p2.resetToReplay, by simp [hp, Players.map]⟩,
      fun hs => by cases hs⟩
    · intro a p ha
      rw [Players.get_map, Option.map_eq_some_iff] at ha
      obtain ⟨q, hq, rfl⟩ := ha
      exact h.slot a q hq
    · intro a p ha
      rw [Players.get_map, Option.map_eq_some_iff] at ha
      obtain ⟨q, hq, rfl⟩ := ha
      exact (h.paired a q hq).resetToReplay

/-! ## Ticks are sequences of turns -/

/-- The handlers take their turns one after the other and broadcast `ms` in all. -/
inductive Turns (clock : Readings) (draw : Nat) :
    Room → List Handler → Room → List GameplayMessage → Prop where
  | nil (room : Room) : Turns clock draw room [] room []
  | cons {room room' room'' : Room} {handler : Handler} {handlers : List Handler}
      {ms ms' : List GameplayMessage} (head : Turn clock draw room handler room' ms)
      (tail : Turns clock draw room' handlers room'' ms') :
      Turns clock draw room (handler :: handlers) room'' (ms ++ ms')

/-- The ids a broadcast reaches, `P1` first. -/
def recipients (room : Room) : List PlayerId :=
  (room.players.P1.toList ++ room.players.P2.toList).map (·.id)

theorem broadcastGameplayMessage_eq (room : Room) (m : GameplayMessage) :
    room.broadcastGameplayMessage m =
      room.recipients.map fun id => .publishGameplayMessage id m := by
  unfold broadcastGameplayMessage recipients
  rw [List.map_map]
  rfl

theorem broadcastAll_congr {room room' : Room} (h : room'.recipients = room.recipients)
    (ms : List GameplayMessage) : room'.broadcastAll ms = room.broadcastAll ms := by
  unfold broadcastAll
  exact congrArg (fun f => ms.flatMap f)
    (funext fun m => by rw [broadcastGameplayMessage_eq, broadcastGameplayMessage_eq, h])

theorem Turn.recipients {room' : Room} {handler : Handler} {ms : List GameplayMessage}
    (ht : Turn clock draw room handler room' ms) : room'.recipients = room.recipients := by
  cases ht with
  | replay hs hw =>
    obtain ⟨p1, p2, hp, -, -⟩ := bothPlayers_eq_true.1 hw
    simp [Room.recipients, hp, Players.map]
  | _ => rfl

theorem Turns.recipients {room' : Room} {handlers : List Handler} {ms : List GameplayMessage}
    (ht : Turns clock draw room handlers room' ms) : room'.recipients = room.recipients := by
  induction ht with
  | nil => rfl
  | cons head tail ih => exact ih.trans head.recipients

theorem Turns.wellFormed {room' : Room} {handlers : List Handler} {ms : List GameplayMessage}
    (h : WellFormed room) (ht : Turns clock draw room handlers room' ms) : WellFormed room' := by
  induction ht with
  | nil => exact h
  | cons head tail ih => exact ih (head.wellFormed h)

theorem handlers_turns (h : WellFormed room) (handlers : List Handler) :
    ∃ room' ms,
      Transition.run (Handler.call clock draw) room handlers = .ok (room', room'.broadcastAll ms) ∧
        Turns clock draw room handlers room' ms := by
  induction handlers generalizing room with
  | nil => exact ⟨room, [], rfl, .nil room⟩
  | cons handler handlers ih =>
    obtain ⟨room₁, ms₁, hcall, hturn⟩ := Handler.call_turn h handler
    obtain ⟨room₂, ms₂, hrun, hturns⟩ := ih (hturn.wellFormed h)
    refine ⟨room₂, ms₁ ++ ms₂, ?_, .cons hturn hturns⟩
    refine Transition.run_cons_eq_ok.2 ⟨room₁, _, _, hcall, hrun, ?_⟩
    rw [broadcastAll, List.flatMap_append, ← broadcastAll_congr hturns.recipients ms₁]
    rfl

/-- A tick of a well formed room returns.  Its handlers take their turns in the order of the
phase, and what it publishes is the broadcasts of these turns. -/
theorem tick_turns (h : WellFormed room) (clock : Readings) (draw : Nat) :
    ∃ room' ms, room.tick clock draw = .ok (room', room'.broadcastAll ms) ∧
      Turns clock draw room (tickHandlers room.gameplayState) room' ms :=
  handlers_turns h _

theorem tick_ok (h : WellFormed room) (clock : Readings) (draw : Nat) :
    ∃ room' calls, room.tick clock draw = .ok (room', calls) := by
  obtain ⟨room', ms, ht, -⟩ := tick_turns h clock draw
  exact ⟨room', _, ht⟩

theorem tick_wellFormed {room' : Room} {calls : List BrokerCall} (h : WellFormed room)
    (ht : room.tick clock draw = .ok (room', calls)) : WellFormed room' := by
  obtain ⟨room'', ms, heq, hturns⟩ := tick_turns h clock draw
  rw [ht] at heq
  cases heq
  exact hturns.wellFormed h

theorem step_wellFormed {room' : Room} {e : Event} {calls : List BrokerCall}
    (h : WellFormed room) (hs : room.step e = .ok (room', calls)) : WellFormed room' := by
  cases e with
  | addPlayer id nickname =>
    have heq : (room.addPlayer id nickname).1 = room' := congrArg Prod.fst (Except.ok.inj hs)
    exact heq ▸ h.addPlayer id nickname
  | removePlayer id =>
    have heq : (room.removePlayer id).1 = room' := congrArg Prod.fst (Except.ok.inj hs)
    exact heq ▸ h.removePlayer id
  | handlePlayerMessage id message now =>
    have heq : (room.handlePlayerMessage id message now).1 = room' :=
      congrArg Prod.fst (Except.ok.inj hs)
    exact heq ▸ h.handlePlayerMessage id message now
  | tick clock draw => exact tick_wellFormed h hs

theorem step_ok (h : WellFormed room) (e : Event) :
    ∃ room' calls, room.step e = .ok (room', calls) := by
  cases e with
  | addPlayer id nickname => exact ⟨_, _, rfl⟩
  | removePlayer id => exact ⟨_, _, rfl⟩
  | handlePlayerMessage id message now => exact ⟨_, _, rfl⟩
  | tick clock draw => exact tick_ok h clock draw

/-- Every state a room reaches is well formed. -/
theorem run_wellFormed {config : RoomConfig} {events : List Event} {room : Room}
    {calls : List BrokerCall}
    (hrun : Transition.run step (new config) events = .ok (room, calls)) : WellFormed room :=
  Transition.run_invariant (fun _ _ _ _ h hs => step_wellFormed h hs) (wellFormed_new config) hrun

theorem run_ok (config : RoomConfig) (events : List Event) :
    ∃ room calls, Transition.run step (new config) events = .ok (room, calls) :=
  Transition.run_total (fun _ e hr => step_ok hr e)
    (fun _ _ _ _ h hs => step_wellFormed h hs) (wellFormed_new config) events

/-- No tick ends in `bad_optional_access`: whatever joins, leaves, is received and is read from
the clock, every run of a room completes, and so does every tick after it. -/
theorem tick_never_throws (config : RoomConfig) (events : List Event) :
    ∃ room calls, Transition.run step (new config) events = .ok (room, calls) ∧
      ∀ clock draw, ∃ room' calls', room.tick clock draw = .ok (room', calls') := by
  obtain ⟨room, calls, hrun⟩ := run_ok config events
  exact ⟨room, calls, hrun, fun clock draw => tick_ok (run_wellFormed hrun) clock draw⟩

end Room
end SamuraiKirby
