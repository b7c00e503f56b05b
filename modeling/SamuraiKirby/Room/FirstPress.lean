/-
Whether the first press of a round is final.

`handlePlayerInputMessage` never asks whether its sender has pressed already.  A
further press replaces the button, the declared time and the server time that
the verdict is made from.  `press_isFinal_iff` says how much of that shows: a
further press is harmless whatever follows exactly when it repeats the one that
is recorded.
-/
import SamuraiKirby.Room.Observation

namespace SamuraiKirby
namespace Room

open Transition

variable {clock : Readings} {draw : Nat} {room room' : Room} {e : Event} {calls : List BrokerCall}
  {id : PlayerId} {a slot : PlayerAssignment} {p q : Player}

/-- The round goes on after each of the events. -/
def RoundLasts (room : Room) (events : List Event) : Prop :=
  ∀ m ∈ moves step room events, m.after.inRound = true

instance decidableRoundLasts (room : Room) (events : List Event) :
    Decidable (RoundLasts room events) :=
  List.decidableBAll (fun m : Move Room Event BrokerCall => m.after.inRound = true)
    (moves step room events)

/-- What is recorded of the last input of a player in the room. -/
def recordedPress (room : Room) (id : PlayerId) :
    Option (GameplayInput × Int × ChronoTimePoint) :=
  (room.getPlayerById id).bind fun found => found.2.recordedPress

/-! ## A press stays recorded while the round lasts -/

/-- `P1` is searched first. -/
theorem getPlayerById_eq_some_iff : room.getPlayerById id = some (a, p) ↔
    room.players.get a = some p ∧ p.id = id ∧
      (a = .P2 → ∀ p1, room.players.P1 = some p1 → p1.id ≠ id) := by
  unfold getPlayerById
  cases hf : room.players.P1.filter (·.id = id) with
  | some p1 =>
    obtain ⟨h1, hid⟩ := Option.filter_eq_some_iff.1 hf
    have hid1 : p1.id = id := by simpa using hid
    constructor
    · intro h
      cases h
      exact ⟨h1, hid1, nofun⟩
    · rintro ⟨hp, hid, hother⟩
      cases a with
      | P1 =>
        have heq : some p1 = some p := h1.symm.trans hp
        rw [Option.some.inj heq]
      | P2 => exact absurd hid1 (hother rfl p1 h1)
  | none =>
    have hno : ∀ p1, room.players.P1 = some p1 → p1.id ≠ id := by
      intro p1 h1
      simpa using Option.filter_eq_none_iff.1 hf p1 h1
    constructor
    · intro h
      obtain ⟨p2, hp2, heq⟩ := Option.map_eq_some_iff.1 h
      cases heq
      obtain ⟨h2, hid⟩ := Option.filter_eq_some_iff.1 hp2
      exact ⟨h2, by simpa using hid, fun _ => hno⟩
    · rintro ⟨hp, hid, -⟩
      cases a with
      | P1 => exact absurd hid (hno p hp)
      | P2 =>
        have h2 : room.players.P2 = some p := hp
        simp [h2, hid]

section Modify

variable {f : Player → Player} (hf : ∀ p, (f p).id = p.id)
include hf

theorem ne_of_modifyPlayer (hother : a = .P2 → ∀ p1, room.players.P1 = some p1 → p1.id ≠ id)
    (ha : a = .P2) (p1 : Player) (h1 : (room.modifyPlayer slot f).players.P1 = some p1) :
    p1.id ≠ id := by
  obtain ⟨q, hq, heq⟩ := of_get_modifyPlayer_field (a := .P1) (·.id) hf h1
  rw [heq]
  exact hother ha q hq

theorem getPlayerById_modifyPlayer_self (hg : room.getPlayerById id = some (a, p)) :
    (room.modifyPlayer a f).getPlayerById id = some (a, f p) := by
  obtain ⟨hp, hid, hother⟩ := getPlayerById_eq_some_iff.1 hg
  refine getPlayerById_eq_some_iff.2 ⟨?_, (hf p).trans hid, ne_of_modifyPlayer hf hother⟩
  rw [modifyPlayer, Players.get_modify_self, hp]
  rfl

theorem getPlayerById_modifyPlayer_of_ne (hg : room.getPlayerById id = some (a, p))
    (ha : a ≠ slot) : (room.modifyPlayer slot f).getPlayerById id = some (a, p) := by
  obtain ⟨hp, hid, hother⟩ := getPlayerById_eq_some_iff.1 hg
  refine getPlayerById_eq_some_iff.2 ⟨?_, hid, ne_of_modifyPlayer hf hother⟩
  rw [modifyPlayer, Players.get_modify_of_ne _ ha, hp]

end Modify

/-- Inside a round only a replay could write to the players, and it is not due. -/
theorem tick_players (hw : WellFormed room) (hround : room.inRound = true)
    (ht : room.tick clock draw = .ok (room', calls)) : room'.players = room.players := by
  obtain ⟨ms, -, hcase, -⟩ := tick_cases hw ht
  cases hcase with
  | @turn handler _ _ hturn =>
    cases hturn with
    | replay hs => exact absurd hs (not_over_of_inRound hround)
    | _ => rfl
  | twoTurns first second =>
    exact (second.players (by decide)).trans (first.players (by decide))

theorem pressed_of_step (hw : WellFormed room) (hround : room.inRound = true)
    (hround' : room'.inRound = true) (hstep : room.step e = .ok (room', calls))
    (hg : room.getPlayerById id = some (a, p)) (hp : p.inputPressed.isSome = true) :
    ∃ p', room'.getPlayerById id = some (a, p') ∧ p'.inputPressed.isSome = true := by
  have hlobby : room.gameplayState ≠ .waitingPlayers := by
    intro hs
    simp [inRound, hs] at hround
  have hmodify : ∀ (slot : PlayerAssignment) (f : Player → Player), (∀ p, (f p).id = p.id) →
      (∀ p : Player, p.inputPressed.isSome = true → (f p).inputPressed.isSome = true) →
        ∃ p', (room.modifyPlayer slot f).getPlayerById id = some (a, p') ∧
          p'.inputPressed.isSome = true := by
    intro slot f hid hf
    by_cases ha : a = slot
    · subst ha
      exact ⟨_, getPlayerById_modifyPlayer_self hid hg, hf p hp⟩
    · exact ⟨p, getPlayerById_modifyPlayer_of_ne hid hg ha, hp⟩
  rcases step_cases hw hstep with ⟨clock, draw, rfl, ht⟩ | hc
  · have hplayers := tick_players hw hround ht
    refine ⟨p, ?_, hp⟩
    unfold getPlayerById at hg ⊢
    rwa [hplayers]
  · generalize room.happening e = h at hc
    cases hc with
    | nothing => exact ⟨p, hg, hp⟩
    | joins slot id nickname hs => exact absurd hs hlobby
    | leaves slot => cases hround'
    | setsReady slot p isReady hs => exact absurd hs hlobby
    | canPlay slot => exact hmodify slot _ (fun _ => rfl) fun _ h => h
    | presses slot => exact hmodify slot _ (fun _ => rfl) fun _ _ => rfl
    | setsReplayReady slot => exact hmodify slot _ (fun _ => rfl) fun _ h => h

theorem pressed_of_lasts (hw : WellFormed room) (hround : room.inRound = true)
    {events : List Event} (hrun : run step room events = .ok (room', calls))
    (hlasts : RoundLasts room events) (hg : room.getPlayerById id = some (a, p))
    (hp : p.inputPressed.isSome = true) :
    room'.inRound = true ∧
      ∃ p', room'.getPlayerById id = some (a, p') ∧ p'.inputPressed.isSome = true := by
  induction events generalizing room calls p with
  | nil =>
    cases hrun
    exact ⟨hround, p, hg, hp⟩
  | cons e events ih =>
    obtain ⟨room₁, calls₁, calls₂, hstep, htail, -⟩ := run_cons_eq_ok.1 hrun
    unfold RoundLasts at hlasts
    rw [moves_cons_of_ok hstep] at hlasts
    have hround₁ : room₁.inRound = true := hlasts _ (List.mem_cons_self ..)
    obtain ⟨p₁, hg₁, hp₁⟩ := pressed_of_step hw hround hround₁ hstep hg hp
    exact ih (step_wellFormed hw hstep) hround₁ htail
      (fun m hm => hlasts m (List.mem_cons_of_mem _ hm)) hg₁ hp₁

/-! ## Further presses -/

theorem modifyPlayer_eq_self {f : Player → Player} (hp : room.players.get a = some p)
    (hf : f p = p) : room.modifyPlayer a f = room := by
  have hmap : (room.players.get a).map f = room.players.get a := by rw [hp, Option.map_some, hf]
  rw [modifyPlayer, Players.modify, hmap]
  cases a <;> rfl

/-- A further press that repeats the recorded one changes nothing. -/
theorem step_press_of_recorded {i : GameplayInput} {t : Int} {now : ChronoTimePoint}
    (hrec : room.recordedPress id = some (i, t, now)) :
    room.step (.handlePlayerMessage id (.playerInput i t) now) = .ok (room, []) := by
  obtain ⟨⟨a, p⟩, hg, hp⟩ := Option.bind_eq_some_iff.1 hrec
  obtain ⟨hi, ht, hs⟩ := Player.recordedPress_eq_some_iff.1 hp
  have hsame : p.press i t now = p := by
    rw [Player.press, ← hi, ← ht, ← hs]
  simp only [step, handlePlayerMessage, hg]
  rw [handlePlayerInputMessage, modifyPlayer_eq_self (getPlayerById_eq_some hg).1 hsame]

/-- Verdicts that no continuation tells apart come from the same recorded input. -/
theorem recordedPress_eq_of_verdict {p' : Player} {i i' : GameplayInput} {t t' : Int}
    {s s' : ChronoTimePoint} (hround : room.inRound = true)
    (hd : room.config.secondsBeforeInputRequest < 2147483648) (hid : p.id ≠ q.id)
    (hid' : p'.id = p.id) (hp : p.recordedPress = some (i, t, s))
    (hp' : p'.recordedPress = some (i', t', s'))
    (h : ∀ events, (room.seated a p q).verdict events = (room.seated a p' q).verdict events) :
    p'.recordedPress = p.recordedPress := by
  obtain ⟨hi, -, hs⟩ := Player.recordedPress_eq_some_iff.1 hp
  obtain ⟨hi', -, hs'⟩ := Player.recordedPress_eq_some_iff.1 hp'
  let reference := room.everyoneCanPlayAt.getD 0
  have href : room.everyoneCanPlayAt.getD reference = reference := by
    cases hr : room.everyoneCanPlayAt <;> simp [reference, hr]
  have hprobe := h (pressProbe p.id q.id reference s)
  have hshow := @verdict_pressProbe room a p' q reference s hround (by rwa [hid'])
  rw [hid'] at hshow
  rw [verdict_pressProbe hround hid, hshow] at hprobe
  have hbroadcast : (room.seated a p.notify (q.press .north 0 s).notify).broadcastGameplayMessage
        (sentence a p.notify (q.press .north 0 s).notify s s) =
      (room.seated a p'.notify (q.press .north 0 s).notify).broadcastGameplayMessage
        (sentence a p'.notify (q.press .north 0 s).notify s' s) := by
    rcases of_decide_eq_true hround with hstate | hstate
    · rw [@verdict_pressed_started room a p.notify (q.press .north 0 s).notify reference i s s hi hs
          .north hstate hd href rfl rfl rfl rfl,
        @verdict_pressed_started room a p'.notify (q.press .north 0 s).notify reference i' s' s hi'
          hs' .north hstate hd href rfl rfl rfl rfl] at hprobe
      simpa using hprobe
    · rw [@verdict_pressed_expectingInput (.lateAfter reference) 0 room a p.notify
          (q.press .north 0 s).notify i s s hi hs .north hstate rfl rfl,
        @verdict_pressed_expectingInput (.lateAfter reference) 0 room a p'.notify
          (q.press .north 0 s).notify i' s' s hi' hs' .north hstate rfl rfl] at hprobe
      simpa using hprobe
  have htie : p'.notify.recordedPress = p.notify.recordedPress :=
    recordedPress_eq_of_tie hp hp' hbroadcast
  exact htie

/-- A further press that no continuation shows repeats the recorded one. -/
theorem recordedPress_of_final {i : GameplayInput} {t : Int} {now : ChronoTimePoint}
    (hw : WellFormed room) (hround : room.inRound = true)
    (hd : room.config.secondsBeforeInputRequest < 2147483648) (hids : DistinctIds room)
    (hg : room.getPlayerById id = some (a, p)) (hp : p.inputPressed.isSome = true)
    (hfinal : ∀ rest, room.verdict (.handlePlayerMessage id (.playerInput i t) now :: rest) =
      room.verdict rest) : p.recordedPress = some (i, t, now) := by
  obtain ⟨hget, rfl⟩ := getPlayerById_eq_some hg
  have hlobby : room.gameplayState ≠ .waitingPlayers := by
    intro hs
    simp [inRound, hs] at hround
  obtain ⟨p1, p2, hplayers⟩ := hw.full hlobby
  obtain ⟨p', q, hseated⟩ := exists_seated hplayers a
  obtain ⟨hself, hother⟩ := get_of_seated hseated
  obtain rfl : p' = p := Option.some.inj (hself.symm.trans hget)
  have hid := hids a p' q hself hother
  obtain ⟨⟨i', t', s'⟩, hrec⟩ := Option.isSome_iff_exists.1
    ((hw.paired a p' hget).recordedPress_isSome.trans hp)
  have hpress : (p'.press i t now).recordedPress = p'.recordedPress := by
    refine recordedPress_eq_of_verdict (a := a) (q := q) hround hd hid rfl hrec rfl fun events => ?_
    have hevents := hfinal events
    rw [hseated, verdict_silent (step_press room a hid i t now) hround rfl] at hevents
    exact hevents.symm
  exact hpress.symm

/-- Take a room and a player who has pressed in its round.  A further press is harmless, whatever
follows in the round, if it repeats the button, the declared time and the server time that are
recorded, and in a room with two different ids only then. -/
theorem press_isFinal_iff {config : RoomConfig} {before between : List Event} {room₀ room : Room}
    {calls₀ calls : List BrokerCall} {id : PlayerId} {i₀ i : GameplayInput} {t₀ t : Int}
    {now₀ now : ChronoTimePoint}
    (hrun₀ : run step (new config) before = .ok (room₀, calls₀)) (hround : room₀.inRound = true)
    (hid : (room₀.getPlayerById id).isSome = true)
    (hrun : run step room₀ (.handlePlayerMessage id (.playerInput i₀ t₀) now₀ :: between) =
      .ok (room, calls))
    (hlasts : RoundLasts room₀ (.handlePlayerMessage id (.playerInput i₀ t₀) now₀ :: between)) :
    (room.recordedPress id = some (i, t, now) → ∀ rest,
      room.verdict (.handlePlayerMessage id (.playerInput i t) now :: rest) = room.verdict rest) ∧
    (DistinctIds room → config.secondsBeforeInputRequest < 2147483648 → (∀ rest,
      room.verdict (.handlePlayerMessage id (.playerInput i t) now :: rest) = room.verdict rest) →
        room.recordedPress id = some (i, t, now)) := by
  obtain ⟨⟨a, p₀⟩, hg₀⟩ := Option.isSome_iff_exists.1 hid
  -- the first press is recorded, and stays so up to `room`
  have hfirst : room₀.step (.handlePlayerMessage id (.playerInput i₀ t₀) now₀) =
      .ok (room₀.modifyPlayer a fun p => p.press i₀ t₀ now₀, []) := by
    simp only [step, handlePlayerMessage, hg₀]
    rfl
  obtain ⟨room₁, calls₁, calls₂, hstep, htail, -⟩ := run_cons_eq_ok.1 hrun
  rw [hfirst] at hstep
  cases hstep
  have hlasts₁ : RoundLasts (room₀.modifyPlayer a fun p => p.press i₀ t₀ now₀) between := by
    intro m hm
    refine hlasts m ?_
    rw [moves_cons_of_ok hfirst]
    exact List.mem_cons_of_mem _ hm
  have hw₁ := step_wellFormed (run_wellFormed hrun₀) hfirst
  obtain ⟨hround', p, hg, hp⟩ := pressed_of_lasts hw₁ hround htail hlasts₁
    (getPlayerById_modifyPlayer_self (fun _ => rfl) hg₀) rfl
  have hall : run step (new config)
      (before ++ .handlePlayerMessage id (.playerInput i₀ t₀) now₀ :: between) =
        .ok (room, calls₀ ++ calls) := run_append_eq_ok.2 ⟨_, _, _, hrun₀, hrun, rfl⟩
  have hw := run_wellFormed hall
  have hrec : room.recordedPress id = p.recordedPress := by rw [recordedPress, hg]; rfl
  constructor
  · intro hsame rest
    exact verdict_silent (step_press_of_recorded hsame) hround' rfl
  · intro hids hd hfinal
    rw [hrec]
    exact recordedPress_of_final hw hround' (by rwa [run_config hall]) hids hg hp hfinal

def asked (id : PlayerId) (a : PlayerAssignment) : Player :=
  { id := id, nickname := [], assignment := a, isReady := true, canPlay := true }

/-- Players 1 and 2 have been asked for `south`. -/
def askedRoom (p1 : Player) : Room where
  config := quickConfig
  gameplayState := .expectingInput
  players := ⟨some p1, some (asked 2 .P2)⟩
  expectedInput := .south
  everyoneCanPlayAt := some 0
  readyForInputAt := some 0

theorem run_askedRoom : ∃ calls, run step (new quickConfig) toExpectingInput =
    .ok (askedRoom (asked 1 .P1), calls) := ⟨_, rfl⟩

/-- Player 1 pressed `north`.  Pressing it again at the same reading is harmless, pressing
`south` is not. -/
theorem press_isFinal_iff_north :
    (∀ rest, (askedRoom ((asked 1 .P1).press .north 200 1)).verdict
        (.handlePlayerMessage 1 (.playerInput .north 200) 1 :: rest) =
      (askedRoom ((asked 1 .P1).press .north 200 1)).verdict rest) ∧
    ¬ ∀ rest, (askedRoom ((asked 1 .P1).press .north 200 1)).verdict
        (.handlePlayerMessage 1 (.playerInput .south 300) 2 :: rest) =
      (askedRoom ((asked 1 .P1).press .north 200 1)).verdict rest := by
  obtain ⟨calls, hrun⟩ := run_askedRoom
  have hpress : run step (askedRoom (asked 1 .P1))
      [.handlePlayerMessage 1 (.playerInput .north 200) 1] =
        .ok (askedRoom ((asked 1 .P1).press .north 200 1), []) := rfl
  constructor
  · exact (press_isFinal_iff hrun rfl rfl hpress (by decide)).1 rfl
  · intro hfinal
    have hids : DistinctIds (askedRoom ((asked 1 .P1).press .north 200 1)) := by
      intro a p q hp hq
      cases a <;> cases hp <;> cases hq <;> decide
    exact absurd ((press_isFinal_iff hrun rfl rfl hpress (by decide)).2 hids (by decide) hfinal)
      (by decide)

/-- Player 1 presses the wrong button and then the right one before the next tick. -/
theorem second_press_wins :
    ¬ ∀ (config : RoomConfig) (before between : List Event) (room₀ room : Room)
        (calls₀ calls : List BrokerCall) (id : PlayerId) (i₀ : GameplayInput) (t₀ : Int)
        (now₀ : ChronoTimePoint),
      run step (new config) before = .ok (room₀, calls₀) → room₀.inRound = true →
      (room₀.getPlayerById id).isSome = true →
      run step room₀ (.handlePlayerMessage id (.playerInput i₀ t₀) now₀ :: between) =
        .ok (room, calls) →
      RoundLasts room₀ (.handlePlayerMessage id (.playerInput i₀ t₀) now₀ :: between) →
      ∀ (i : GameplayInput) (t : Int) (now : ChronoTimePoint) (rest : List Event),
        room.verdict (.handlePlayerMessage id (.playerInput i t) now :: rest) =
          room.verdict rest := by
  intro hall
  obtain ⟨calls, hrun⟩ := run_askedRoom
  have hfinal := hall quickConfig toExpectingInput [] (askedRoom (asked 1 .P1))
    (askedRoom ((asked 1 .P1).press .north 200 1)) calls [] 1 .north 200 1 hrun rfl rfl rfl
    (by decide) .south 300 2 [.tick (.const 3) 0]
  exact absurd hfinal (by decide)

end Room
end SamuraiKirby
