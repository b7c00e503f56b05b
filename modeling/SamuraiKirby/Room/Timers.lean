/-
The timers of a round never fire early.

A tick compares three pairs of times: the delay before the input request, the
wait for the other player's input and the wait for any input.  The chronicle
`timers` remembers from the outside when these waits of the current round began,
and judges the messages by it.

`RoundStamps` is the invariant behind it: the time stamps a room compares are
those of the round in progress.  The results are about clocks that do not go
back, as `getSecondsSince` truncates toward zero, and about waits whose whole
seconds fit an `int`.
-/
import SamuraiKirby.Room.Happening
import SamuraiKirby.Room.Verdict
import Mathlib.Logic.Function.Basic
import Mathlib.Data.List.Pairwise

namespace SamuraiKirby

/-! ## Elapsed seconds -/

/-- The whole seconds between two times fit an `int`. -/
def ElapsedFits (now reference : ChronoTimePoint) : Prop :=
  Int.tdiv (now - reference) nanosecondsPerSecond < 2147483648

instance decidableElapsedFits (now reference : ChronoTimePoint) :
    Decidable (ElapsedFits now reference) :=
  inferInstanceAs (Decidable (Int.tdiv (now - reference) nanosecondsPerSecond < 2147483648))

/-- The readings of a tick in program order. -/
def Readings.toList (clock : Readings) : List ChronoTimePoint :=
  [clock.everyoneCanPlay, clock.beforeInputRequest, clock.readyForInput, clock.onePlayerPlayed,
    clock.timeout]

namespace Room

open Transition

variable {clock : Readings} {draw : Nat} {room room' : Room} {handler : Handler}
  {calls : List BrokerCall} {ms : List GameplayMessage}

/-! ## Clocks -/

/-- The readings of an event in program order.  A tick does not take all of its readings, and
those it does not take may be anything that fits in between. -/
def Event.readings : Event → List ChronoTimePoint
  | .handlePlayerMessage _ (.playerInput _ _) now => [now]
  | .tick clock _ => clock.toList
  | _ => []

/-- No reading of these events is before `t`. -/
def Later (t : ChronoTimePoint) (events : List Event) : Prop :=
  ∀ now ∈ events.flatMap Event.readings, t ≤ now

theorem Later.tail {t : ChronoTimePoint} {e : Event} {events : List Event}
    (h : Later t (e :: events)) : Later t events :=
  fun now hnow => h now (List.mem_append_right _ hnow)

theorem Later.head {t now : ChronoTimePoint} {e : Event} {events : List Event}
    (h : Later t (e :: events)) (hnow : now ∈ e.readings) : t ≤ now :=
  h now (List.mem_append_left _ hnow)

/-- The clock does not go back. -/
def ForwardClock (events : List Event) : Prop :=
  (events.flatMap Event.readings).Pairwise (· ≤ ·)

instance decidableForwardClock (events : List Event) : Decidable (ForwardClock events) :=
  inferInstanceAs (Decidable ((events.flatMap Event.readings).Pairwise (· ≤ ·)))

theorem ForwardClock.tail {e : Event} {events : List Event} (h : ForwardClock (e :: events)) :
    ForwardClock events :=
  (List.pairwise_append.1 h).2.1

theorem ForwardClock.head {e : Event} {events : List Event} (h : ForwardClock (e :: events)) :
    e.readings.Pairwise (· ≤ ·) :=
  (List.pairwise_append.1 h).1

/-- The pairs of times a tick may compare, each with the reading first. -/
def comparisons (room : Room) (clock : Readings) : List (ChronoTimePoint × ChronoTimePoint) :=
  let presses := (room.players.P1.toList ++ room.players.P2.toList).filterMap fun p =>
    if p.inputPressed.isSome then p.inputPressedAtServerTime.map (clock.onePlayerPlayed, ·)
    else none
  match room.gameplayState with
  | .started =>
    (clock.beforeInputRequest, room.everyoneCanPlayAt.getD clock.everyoneCanPlay) :: presses
  | .expectingInput => room.readyForInputAt.toList.map (clock.timeout, ·) ++ presses
  | _ => []

/-- The condition on a step: no wait that a tick may measure is too long for an `int`. -/
def WaitsFit (room : Room) (e : Event) (_ : List Event) : Prop :=
  match e with
  | .tick clock _ => ∀ c ∈ room.comparisons clock, ElapsedFits c.1 c.2
  | _ => True

instance decidableWaitsFit (room : Room) (e : Event) (rest : List Event) :
    Decidable (WaitsFit room e rest) :=
  match e with
  | .tick clock _ =>
    List.decidableBAll (fun c : ChronoTimePoint × ChronoTimePoint => ElapsedFits c.1 c.2)
      (room.comparisons clock)
  | .addPlayer _ _ | .removePlayer _ | .handlePlayerMessage _ _ _ => isTrue trivial

/-! ## The waits of a round -/

/-- What is remembered of the current round: whether it waits for its players, who has said that
they can play, and when its waits began. -/
structure Waits where
  playing : Bool
  notified : PlayerAssignment → Bool
  couldPlayAt : Option ChronoTimePoint
  requestedAt : Option ChronoTimePoint
  pressedAt : PlayerAssignment → Option ChronoTimePoint

def Waits.reset : Waits := ⟨false, fun _ => false, none, none, fun _ => none⟩

/-- The delay starts with the first tick of the round at which both players can play. -/
def Waits.canPlay (w : Waits) (clock : Readings) : Waits :=
  if w.playing && w.notified .P1 && w.notified .P2 then
    { w with couldPlayAt := some (w.couldPlayAt.getD clock.everyoneCanPlay) }
  else w

/-- When a round message may be broadcast by a tick with these readings. -/
structure NotEarly (config : RoomConfig) (w : Waits) (clock : Readings) (m : GameplayMessage) :
    Prop where
  request : ∀ i, m = .gameExpectingInput i → (∀ a, w.notified a = true) ∧
    ∃ t, w.couldPlayAt = some t ∧
      config.secondsBeforeInputRequest * nanosecondsPerSecond ≤ clock.beforeInputRequest - t
  noInput : ∀ r, m = .gameOverDraw r → (∀ a, (r.ofPlayer a).inputPressed = none) →
    ∃ t, w.requestedAt = some t ∧
      config.noInputTimeout * nanosecondsPerSecond ≤ clock.timeout - t
  oneInput : ∀ r a, m = .gameOverWin r → r.winningPlayer = some a →
    (r.ofPlayer a.other).inputPressed = none →
    ∃ t, w.pressedAt a = some t ∧
      config.onePlayerInputOnlyTimeout * nanosecondsPerSecond ≤ clock.onePlayerPlayed - t

def timers (config : RoomConfig) : Chronicle Waits where
  start := .reset
  happens w h :=
    match h with
    | .joins slot _ _ =>
      { w with
        notified := Function.update w.notified slot false
        pressedAt := Function.update w.pressedAt slot none }
    | .leaves _ => .reset
    | .canPlay slot => { w with notified := Function.update w.notified slot true }
    | .presses slot _ _ now => { w with pressedAt := Function.update w.pressedAt slot (some now) }
    | .ticks clock _ => w.canPlay clock
    | _ => w
  read w h m :=
    match m, h with
    | .allReadyGameStarting, _ =>
      { w with playing := true, couldPlayAt := none, requestedAt := none }
    | .allReplayReadyGameStarting, _ => { Waits.reset with playing := true }
    | .gameExpectingInput _, .ticks clock _ =>
      { w with playing := false, requestedAt := some clock.readyForInput }
    | .gameOverEarlyInput _, _ | .gameOverWrongInput _, _ | .gameOverWin _, _
    | .gameOverDraw _, _ => { w with playing := false }
    | _, _ => w
  ok w h m := ∀ clock draw, h = .ticks clock draw → NotEarly config w clock m

/-- When both players can play, the tick keeps or sets the start of the delay. -/
theorem handleEveryoneCanPlay_everyoneCanPlayAt (hs : room.gameplayState = .started)
    (hc : room.everyoneCanPlay = true)
    (h : room.handleEveryoneCanPlay clock draw = .ok (room', calls)) :
    room'.everyoneCanPlayAt = some (room.everyoneCanPlayAt.getD clock.everyoneCanPlay) := by
  unfold handleEveryoneCanPlay at h
  rw [if_neg (by simp [hs, hc])] at h
  cases hn : room.everyoneCanPlayAt with
  | none =>
    simp only [hn, Option.isNone_none, if_true, value_some, ok_bind, pure_eq_ok] at h
    split at h <;> cases h <;> rfl
  | some reference =>
    simp only [hn, Option.isNone_some, Bool.false_eq_true, if_false, value_some, ok_bind,
      pure_eq_ok] at h
    split at h <;> cases h
    · rfl
    · exact hn

theorem Turn.everyoneCanPlayAt (ht : Turn clock draw room handler room' ms)
    (hs : room'.gameplayState = .started) (hne : handler = .handleEveryoneCanPlay →
      room.everyoneCanPlay = false) (hne' : handler ≠ .handleReplay) :
    room'.everyoneCanPlayAt = room.everyoneCanPlayAt := by
  cases ht with
  | firstCanPlay _ hc =>
    rw [hne rfl] at hc
    cases hc
  | expectingInput => cases hs
  | replay => exact absurd rfl hne'
  | _ => rfl

theorem tick_everyoneCanPlayAt (h : WellFormed room) (hs : room.gameplayState = .started)
    (ht : room.tick clock draw = .ok (room', calls)) (hs' : room'.gameplayState = .started) :
    room'.everyoneCanPlayAt = if room.everyoneCanPlay then
      some (room.everyoneCanPlayAt.getD clock.everyoneCanPlay) else room.everyoneCanPlayAt := by
  unfold tick at ht
  rw [hs] at ht
  obtain ⟨room₁, os₁, os₂, h₁, h₂, -⟩ := run_cons_eq_ok.1 ht
  rw [run_singleton] at h₂
  obtain ⟨r₁, ms₁, heq₁, hturn₁⟩ :=
    @Handler.call_turn clock draw room h .handleEveryoneCanPlay
  rw [heq₁] at h₁
  cases h₁
  obtain ⟨r₂, ms₂, heq₂, hturn₂⟩ :=
    @Handler.call_turn clock draw _ (hturn₁.wellFormed h) .handleOnePlayerPlayed
  rw [heq₂] at h₂
  cases h₂
  rw [hturn₂.everyoneCanPlayAt hs' (by simp) (by simp)]
  by_cases hc : room.everyoneCanPlay = true
  · rw [if_pos hc]
    exact handleEveryoneCanPlay_everyoneCanPlayAt hs hc heq₁
  · rw [if_neg hc]
    cases hturn₁ with
    | idle => rfl
    | firstCanPlay _ hc' => exact absurd hc' hc
    | expectingInput _ _ hc' => exact absurd hc' hc

/-! ## The room keeps the waits of the round -/

/-- The room agrees with what is remembered of the round, whatever the delay. -/
structure Follows (config : RoomConfig) (w : Waits) (room : Room) : Prop where
  config : room.config = config
  playing : w.playing = true ↔ room.gameplayState = .started
  notified : ∀ a p, room.players.get a = some p → w.notified a = p.canPlay
  readyForInput : room.gameplayState = .expectingInput → room.readyForInputAt = w.requestedAt
  pressed : ∀ a p, room.players.get a = some p → p.inputPressed.isSome = true →
    p.inputPressedAtServerTime = w.pressedAt a
  lobby : LobbyCleared room

variable {config : RoomConfig} {w : Waits}

/-! ### Changes -/

theorem Follows.modifyPlayer (hw : Follows config w room) (slot : PlayerAssignment)
    {f : Player → Player} (hf : ∀ p, (f p).canPlay = p.canPlay)
    (hf' : ∀ p, ((f p).inputPressed, (f p).inputPressedAtServerTime) =
      (p.inputPressed, p.inputPressedAtServerTime)) :
    Follows config w (room.modifyPlayer slot f) := by
  refine ⟨hw.config, hw.playing, fun a p hp => ?_, hw.readyForInput, fun a p hp hpressed => ?_,
    hw.lobby⟩
  · obtain ⟨q, hq, heq⟩ := of_get_modifyPlayer_field (·.canPlay) hf hp
    exact (hw.notified a q hq).trans heq.symm
  · obtain ⟨q, hq, heq⟩ := of_get_modifyPlayer_field
      (fun p => (p.inputPressed, p.inputPressedAtServerTime)) hf' hp
    obtain ⟨hinput, htime⟩ := Prod.mk.inj heq
    exact htime.trans (hw.pressed a q hq (hinput ▸ hpressed))

theorem Change.follows {h : Happening} (hw : Follows config w room)
    (hchange : Change room h room' calls) : Follows config ((timers config).happens w h) room' := by
  have hlobby := hchange.lobbyCleared hw.lobby
  cases hchange with
  | nothing => exact hw
  | joins slot id nickname =>
    refine ⟨hw.config, hw.playing, fun a p hp => ?_, hw.readyForInput, fun a p hp hpressed => ?_,
      hlobby⟩
    · rcases of_get_occupy hp with ⟨rfl, rfl⟩ | ⟨ha, hp⟩
      · exact Function.update_self ..
      · exact (Function.update_of_ne ha _ _).trans (hw.notified a p hp)
    · rcases of_get_occupy hp with ⟨rfl, rfl⟩ | ⟨ha, hp⟩
      · cases hpressed
      · exact (hw.pressed a p hp hpressed).trans (Function.update_of_ne ha _ _).symm
  | leaves slot =>
    refine ⟨hw.config, by simp [timers, Waits.reset, vacate], fun a p hp => ?_, nofun,
      fun a p hp hpressed => ?_, hlobby⟩
    · obtain ⟨-, q, -, rfl⟩ := of_get_vacate hp
      rfl
    · obtain ⟨-, q, -, rfl⟩ := of_get_vacate hp
      cases hpressed
  | setsReady slot => exact hw.modifyPlayer slot (fun _ => rfl) fun _ => rfl
  | setsReplayReady slot => exact hw.modifyPlayer slot (fun _ => rfl) fun _ => rfl
  | canPlay slot =>
    refine ⟨hw.config, hw.playing, fun a p hp => ?_, hw.readyForInput, fun a p hp hpressed => ?_,
      hlobby⟩
    · rcases of_get_modifyPlayer hp with ⟨rfl, q, hq, rfl⟩ | ⟨ha, hp⟩
      · exact Function.update_self ..
      · exact (Function.update_of_ne ha _ _).trans (hw.notified a p hp)
    · rcases of_get_modifyPlayer hp with ⟨rfl, q, hq, rfl⟩ | ⟨ha, hp⟩
      · exact hw.pressed a q hq hpressed
      · exact hw.pressed a p hp hpressed
  | presses slot _ inputPressed timeToPress now =>
    refine ⟨hw.config, hw.playing, fun a p hp => ?_, hw.readyForInput, fun a p hp hpressed => ?_,
      hlobby⟩
    · rcases of_get_modifyPlayer hp with ⟨rfl, q, hq, rfl⟩ | ⟨ha, hp⟩
      · exact hw.notified a q hq
      · exact hw.notified a p hp
    · rcases of_get_modifyPlayer hp with ⟨rfl, q, hq, rfl⟩ | ⟨ha, hp⟩
      · exact (Function.update_self a (some now) w.pressedAt).symm
      · exact (hw.pressed a p hp hpressed).trans (Function.update_of_ne ha _ _).symm

theorem Waits.canPlay_eq (w : Waits) (clock : Readings) :
    (w.canPlay clock).playing = w.playing ∧ (w.canPlay clock).notified = w.notified ∧
      (w.canPlay clock).requestedAt = w.requestedAt ∧
      (w.canPlay clock).pressedAt = w.pressedAt := by
  unfold Waits.canPlay
  split <;> exact ⟨rfl, rfl, rfl, rfl⟩

/-- The memory notices the start of the delay when the room does. -/
theorem Follows.couldPlayAt (h : WellFormed room) (hw : Follows config w room)
    (hs : room.gameplayState = .started) :
    (w.canPlay clock).couldPlayAt = if room.everyoneCanPlay then
      some (w.couldPlayAt.getD clock.everyoneCanPlay) else w.couldPlayAt := by
  obtain ⟨p1, p2, hp⟩ := h.full (by rw [hs]; decide)
  have h1 : w.notified .P1 = p1.canPlay := hw.notified .P1 p1 (by rw [hp]; rfl)
  have h2 : w.notified .P2 = p2.canPlay := hw.notified .P2 p2 (by rw [hp]; rfl)
  unfold Waits.canPlay
  rw [everyoneCanPlay, bothPlayers_of_full hp, hw.playing.2 hs, h1, h2, Bool.true_and]
  split <;> rfl

theorem Follows.canPlay (hw : Follows config w room) (clock : Readings) :
    Follows config (w.canPlay clock) room := by
  obtain ⟨hplaying, hnotified, hrequested, hpressed⟩ := w.canPlay_eq clock
  refine ⟨hw.config, ?_, fun a p hp => ?_, fun hs => ?_, fun a p hp hi => ?_, hw.lobby⟩
  · rw [hplaying]
    exact hw.playing
  · rw [hnotified]
    exact hw.notified a p hp
  · rw [hrequested]
    exact hw.readyForInput hs
  · rw [hpressed]
    exact hw.pressed a p hp hi

theorem Turn.follows (hw : Follows config w room) (ht : Turn clock draw room handler room' ms) :
    Follows config (ms.foldl (fun w m => (timers config).read w (.ticks clock draw) m) w)
      room' := by
  have hlobby := ht.lobbyCleared hw.lobby
  have hended : Follows config { w with playing := false } { room with gameplayState := .over } :=
    ⟨hw.config, by simp, hw.notified, nofun, hw.pressed, nofun⟩
  cases ht with
  | idle => exact hw
  | allReady => exact ⟨hw.config, by simp [timers], hw.notified, nofun, hw.pressed, hlobby⟩
  | firstCanPlay =>
    exact ⟨hw.config, hw.playing, hw.notified, hw.readyForInput, hw.pressed, hlobby⟩
  | expectingInput =>
    exact ⟨hw.config, by simp [timers], hw.notified, fun _ => rfl, hw.pressed, hlobby⟩
  | replay =>
    refine ⟨hw.config, by simp [timers], fun a p hp => ?_, nofun, fun a p hp hpressed => ?_,
      hlobby⟩
    · obtain ⟨q, -, rfl⟩ := of_get_map hp
      rfl
    · obtain ⟨q, -, rfl⟩ := of_get_map hp
      cases hpressed
  | _ => exact hended

/-- A round in progress keeps the start of its delay. -/
theorem Turn.couldPlayAt (ht : Turn clock draw room handler room' ms)
    (hs : room.gameplayState = .started ∨ room.gameplayState = .expectingInput) :
    (ms.foldl (fun w m => (timers config).read w (.ticks clock draw) m) w).couldPlayAt =
      w.couldPlayAt := by
  cases ht with
  | allReady hs' =>
    rw [hs'] at hs
    exact hs.elim nofun nofun
  | replay hs' =>
    rw [hs'] at hs
    exact hs.elim nofun nofun
  | _ => rfl

end Room
end SamuraiKirby
