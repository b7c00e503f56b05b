/-
Whether a press before the input request can win.

A player who presses in `STARTED` has pressed too early and loses, if a tick
finds that press alone and still in `STARTED`.  The chronicle `earlyPress` keeps
for each slot whether its last press came before the request of its round.  The
tick that makes the request keeps every press it finds.
-/
import SamuraiKirby.Room.Happening
import SamuraiKirby.Room.Verdict
import Mathlib.Logic.Function.Basic

namespace SamuraiKirby
namespace Room

open Transition

variable {clock : Readings} {draw : Nat} {room room' : Room} {handler : Handler}
  {calls : List BrokerCall} {ms : List GameplayMessage}

/-- Whether the input of the current round has been requested, and which slots' last press came
when it had not. -/
structure Presses where
  requested : Bool
  early : PlayerAssignment → Bool

/-- Who wins has not pressed early. -/
def earlyPress : Chronicle Presses where
  start := ⟨false, fun _ => false⟩
  happens b h :=
    match h with
    | .leaves _ => { b with requested := false }
    | .presses slot _ _ _ => { b with early := Function.update b.early slot (!b.requested) }
    | _ => b
  read b _ m :=
    match m with
    | .gameExpectingInput _ => { b with requested := true }
    | .allReadyGameStarting | .allReplayReadyGameStarting => { b with requested := false }
    | _ => b
  ok b _ m := ∀ r a, m = .gameOverWin r → r.winningPlayer = some a → b.early a = false

theorem earlyPress_lawful : earlyPress.Lawful where
  idem b h m := by cases m <;> rfl
  read_quiet b h m hm := by cases m <;> first | rfl | cases hm
  ok_quiet b h m hm := by
    rintro r a rfl
    cases hm

theorem foldl_read_early (b : Presses) (h : Happening) (ms : List GameplayMessage) :
    (ms.foldl (fun b m => earlyPress.read b h m) b).early = b.early := by
  induction ms generalizing b with
  | nil => rfl
  | cons m ms ih =>
    rw [List.foldl_cons, ih]
    cases m <;> rfl

/-- If a tick at these readings can request the input, nobody has pressed. -/
def UnpressedRequest (clock : Readings) (room : Room) : Prop :=
  room.gameplayState = .started → room.everyoneCanPlay = true →
    room.config.secondsBeforeInputRequest ≤ getSecondsSince clock.beforeInputRequest
      (room.everyoneCanPlayAt.getD clock.everyoneCanPlay) → room.noOnePlayed = true

/-- The condition on a step: a tick that can make the request finds no press. -/
def RequestsUnpressed (room : Room) (e : Event) (_ : List Event) : Prop :=
  match e with
  | .tick clock _ => UnpressedRequest clock room
  | _ => True

instance decidableRequestsUnpressed (room : Room) (e : Event) (rest : List Event) :
    Decidable (RequestsUnpressed room e rest) := by
  unfold RequestsUnpressed UnpressedRequest
  split <;> infer_instance

/-- While the input is requested no recorded press is an early one. -/
structure NoneEarly (b : Presses) (room : Room) : Prop where
  before : room.gameplayState = .waitingPlayers ∨ room.gameplayState = .started →
    b.requested = false
  requested : room.gameplayState = .expectingInput → b.requested = true
  pressed : room.gameplayState = .expectingInput → ∀ slot p, room.players.get slot = some p →
    p.inputPressed.isSome = true → b.early slot = false

theorem Turn.noneEarly {b : Presses} {h : Happening} (hb : NoneEarly b room)
    (hC : handler = .handleEveryoneCanPlay → UnpressedRequest clock room)
    (ht : Turn clock draw room handler room' ms) :
    NoneEarly (ms.foldl (fun b m => earlyPress.read b h m) b) room' := by
  have hended : NoneEarly b { room with gameplayState := .over } :=
    ⟨fun hs => hs.elim nofun nofun, nofun, nofun⟩
  cases ht with
  | idle => exact hb
  | allReady => exact ⟨fun _ => rfl, nofun, nofun⟩
  | firstCanPlay hs => exact ⟨hb.before, hb.requested, hb.pressed⟩
  | expectingInput reference hs hc href hd =>
    refine ⟨fun hs => hs.elim nofun nofun, fun _ => rfl, fun _ slot p hp hpressed => ?_⟩
    have hnone := of_bothPlayers (hC rfl hs hc (href ▸ hd)) hp
    rw [hpressed] at hnone
    cases hnone
  | replay => exact ⟨fun _ => rfl, nofun, nofun⟩
  | _ => exact hended

/-- Whoever wins has a recorded press. -/
theorem Turn.winner_pressed {r : GameResultDTO} {a : PlayerAssignment}
    (ht : Turn clock draw room handler room' ms) (hm : .gameOverWin r ∈ ms)
    (ha : r.winningPlayer = some a) :
    room.gameplayState = .expectingInput ∧
      ∃ p, room.players.get a = some p ∧ p.inputPressed.isSome = true := by
  cases ht with
  | winAlone b p q i r' t hs hp hi ht hd hr =>
    simp only [List.mem_singleton, GameplayMessage.gameOverWin.injEq] at hm
    subst hm
    rw [(buildGameResultDTO_eq_ok hr).1] at ha
    cases ha
    exact ⟨hs, p, hp.player, by rw [hp.pressed]; rfl⟩
  | winFirst b p q t t' r' hs he hp hq ht ht' hlt hr =>
    simp only [List.mem_singleton, GameplayMessage.gameOverWin.injEq] at hm
    subst hm
    rw [(buildGameResultDTO_eq_ok hr).1] at ha
    cases ha
    exact ⟨hs, p, hp, of_bothPlayers he hp⟩
  | _ => simp at hm

theorem Turn.winner_not_early {b : Presses} {r : GameResultDTO} {a : PlayerAssignment}
    (hb : NoneEarly b room) (ht : Turn clock draw room handler room' ms)
    (hm : .gameOverWin r ∈ ms) (ha : r.winningPlayer = some a) : b.early a = false := by
  obtain ⟨hs, p, hp, hpressed⟩ := ht.winner_pressed hm ha
  exact hb.pressed hs a p hp hpressed

theorem TickCase.noneEarly {b : Presses} {h : Happening} (hb : NoneEarly b room)
    (hC : UnpressedRequest clock room) (ht : TickCase clock draw room room' ms) :
    (∀ m ∈ ms, earlyPress.ok b h m) ∧
      NoneEarly (ms.foldl (fun b m => earlyPress.read b h m) b) room' := by
  cases ht with
  | turn ht =>
    refine ⟨?_, ht.noneEarly hb fun _ => hC⟩
    rintro m hm r a rfl ha
    exact ht.winner_not_early hb hm ha
  | twoTurns first second =>
    have hb₁ := first.noneEarly (h := h) hb fun _ => hC
    rw [List.foldl_append]
    refine ⟨?_, second.noneEarly hb₁ (by simp)⟩
    rintro m hm r a rfl ha
    rcases List.mem_append.1 hm with hm | hm
    · exact first.winner_not_early hb hm ha
    · -- reading the request does not change whose press is early
      have hearly := second.winner_not_early hb₁ hm ha
      rwa [foldl_read_early] at hearly

theorem Change.noneEarly {b : Presses} {h : Happening} (hb : NoneEarly b room)
    (hchange : Change room h room' calls) : NoneEarly (earlyPress.happens b h) room' := by
  have hmodify : ∀ (slot : PlayerAssignment) (f : Player → Player),
      (∀ p, (f p).inputPressed = p.inputPressed) → NoneEarly b (room.modifyPlayer slot f) := by
    intro slot f hf
    refine ⟨hb.before, hb.requested, fun hs a p hp hpressed => ?_⟩
    obtain ⟨q, hq, heq⟩ := of_get_modifyPlayer_field (·.inputPressed) hf hp
    exact hb.pressed hs a q hq (heq ▸ hpressed)
  cases hchange with
  | nothing => exact hb
  | joins slot id nickname hs =>
    exact ⟨hb.before, hb.requested, fun hs' => by cases hs.symm.trans hs'⟩
  | leaves => exact ⟨fun _ => rfl, nofun, nofun⟩
  | setsReady slot => exact hmodify slot _ fun _ => rfl
  | canPlay slot => exact hmodify slot _ fun _ => rfl
  | setsReplayReady slot => exact hmodify slot _ fun _ => rfl
  | presses slot p inputPressed timeToPress now =>
    refine ⟨hb.before, hb.requested, fun hs a q hq hpressed => ?_⟩
    rcases of_get_modifyPlayer hq with ⟨rfl, -⟩ | ⟨ha, hq⟩
    · exact (Function.update_self ..).trans (by rw [hb.requested hs]; rfl)
    · exact (Function.update_of_ne ha _ _).trans (hb.pressed hs a q hq hpressed)

/-- A run whose input requests find no press lets no early press win. -/
theorem earlyPress_of_along {config : RoomConfig} {events : List Event}
    (hC : Along step RequestsUnpressed (new config) events) :
    earlyPress.Accepts config events := by
  refine Chronicle.accepts earlyPress_lawful (C := RequestsUnpressed)
    (R := fun b room _ => NoneEarly b room) ?_ ?_ ?_ hC
  · intro b room e rest room' calls _ _ hb hchange
    exact hchange.noneEarly hb
  · intro b room clock draw rest room' ms _ hC hb _ ht
    exact ht.noneEarly hb hC
  · exact ⟨fun _ => rfl, nofun, nofun⟩

/-- Both players press `south` when asked, player 2 first. -/
theorem earlyPress_of_along_south :
    earlyPress.Accepts quickConfig (toExpectingInput ++
      [.handlePlayerMessage 2 (.playerInput .south 200) 1,
        .handlePlayerMessage 1 (.playerInput .south 300) 2, .tick (.const 3) 0]) :=
  earlyPress_of_along (by decide)

/-- Both players press before they can play, player 1 first. -/
def pressThenCanPlay : List Event :=
  [.addPlayer 1 [], .addPlayer 2 [], .handlePlayerMessage 1 (.setReadyState true) 0,
    .handlePlayerMessage 2 (.setReadyState true) 0, .tick (.const 0) 0,
    .handlePlayerMessage 1 (.playerInput .north 0) 1,
    .handlePlayerMessage 2 (.playerInput .north 0) 2,
    .handlePlayerMessage 1 .notifyCanPlay 3, .handlePlayerMessage 2 .notifyCanPlay 3,
    .tick (.const 4) 0]

theorem early_press_wins :
    ¬ ∀ (config : RoomConfig) (events : List Event), earlyPress.Accepts config events := by
  intro hall
  have hacc := hall quickConfig (pressThenCanPlay ++ [.tick (.const 5) 0])
  let result : GameResultDTO :=
    ⟨some .P1, ⟨.P1, some .north, some 0⟩, ⟨.P2, some .north, some 0⟩⟩
  have hrun : ∃ room calls, run step (new quickConfig) pressThenCanPlay = .ok (room, calls) ∧
      ∃ room' calls', room.step (.tick (.const 5) 0) = .ok (room', calls') ∧
        .publishGameplayMessage 1 (.gameOverWin result) ∈ calls' :=
    ⟨_, _, rfl, _, _, rfl, List.mem_cons_self ..⟩
  obtain ⟨room, calls, hrun, room', calls', hstep, hm⟩ := hrun
  have hlate : (earlyPress.memory quickConfig pressThenCanPlay).early .P1 = false :=
    hacc.last hrun hstep hm result .P1 rfl rfl
  exact absurd hlate (by decide)

end Room
end SamuraiKirby
