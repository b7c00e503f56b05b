/-
Who asked for the games a room starts.

A room starts a game from the lobby when both ready flags are set, and one more
after a result when both replay flags are.  The two chronicles of this file
write down what the players in the slots have said: `readyConsent` since they
joined, `replayConsent` since the result.

Both flags can be set without the player's word.  Leaving sets the ready flag of
whoever stays, and a replay request counts in every phase.
-/
import SamuraiKirby.Room.Happening
import SamuraiKirby.Room.Verdict
import Mathlib.Data.List.Basic

namespace SamuraiKirby
namespace Room

open Transition

/-- The last word of the player in each slot. -/
abbrev Said := PlayerAssignment → Option Bool

variable {clock : Readings} {draw : Nat} {room room' : Room} {handler : Handler}
  {calls : List BrokerCall} {ms : List GameplayMessage} {h : Happening}

/-! ## Ready flags -/

/-- Outside the lobby every player's ready flag is set. -/
def PlaysReady (room : Room) : Prop :=
  room.gameplayState ≠ .waitingPlayers → ∀ slot p, room.players.get slot = some p →
    p.isReady = true

theorem Turn.playsReady (hready : PlaysReady room)
    (ht : Turn clock draw room handler room' ms) : PlaysReady room' := by
  cases ht with
  | idle => exact hready
  | allReady hs hr => exact fun _ slot p hp => of_bothPlayers hr hp
  | replay hs hw =>
    intro _ slot p hp
    obtain ⟨q, -, rfl⟩ := of_get_map hp
    rfl
  | _ => exact fun _ => hready (by simp_all)

theorem TickCase.playsReady (hready : PlaysReady room)
    (ht : TickCase clock draw room room' ms) : PlaysReady room' := by
  cases ht with
  | turn h => exact h.playsReady hready
  | twoTurns first second => exact second.playsReady (first.playsReady hready)

theorem Change.playsReady (hready : PlaysReady room) (hchange : Change room h room' calls) :
    PlaysReady room' := by
  have hmodify : ∀ (slot : PlayerAssignment) (f : Player → Player),
      (∀ p, (f p).isReady = p.isReady) → PlaysReady (room.modifyPlayer slot f) := by
    intro slot f hf hs a p hp
    obtain ⟨q, hq, heq⟩ := of_get_modifyPlayer_field (·.isReady) hf hp
    exact heq.trans (hready hs a q hq)
  cases hchange with
  | nothing => exact hready
  | joins slot id nickname hs => exact fun hne => absurd hs hne
  | leaves => exact fun hne => absurd rfl hne
  | setsReady slot p isReady hs => exact fun hne => absurd hs hne
  | canPlay slot => exact hmodify slot _ fun _ => rfl
  | presses slot => exact hmodify slot _ fun _ => rfl
  | setsReplayReady slot => exact hmodify slot _ fun _ => rfl

/-! ## Consent to a game -/

/-- What the players have said about being ready since they joined.  A start needs a yes of
both. -/
def readyConsent : Chronicle Said where
  start := fun _ => none
  happens said h :=
    match h with
    | .joins slot _ _ | .leaves slot => Function.update said slot none
    | .setsReady slot isReady => Function.update said slot (some isReady)
    | _ => said
  read said _ _ := said
  ok said _ m := m = .allReadyGameStarting → ∀ slot, said slot = some true

theorem readyConsent_lawful : readyConsent.Lawful where
  idem _ _ _ := rfl
  read_quiet _ _ _ _ := rfl
  ok_quiet said h m hm := by
    rintro rfl
    cases hm

/-- The condition on a step: who leaves leaves nobody behind who is not ready. -/
def LeavesReady (room : Room) (e : Event) (_ : List Event) : Prop :=
  match room.happening e with
  | .leaves slot => (room.players.get slot.other).all (·.isReady) = true
  | _ => True

instance decidableLeavesReady (room : Room) (e : Event) (rest : List Event) :
    Decidable (LeavesReady room e rest) := by
  unfold LeavesReady
  split <;> infer_instance

/-- Whose ready flag is set has said yes. -/
structure ReadyAsSaid (said : Said) (room : Room) : Prop where
  flag : ∀ slot p, room.players.get slot = some p → p.isReady = true → said slot = some true
  plays : PlaysReady room

theorem Turn.readyAsSaid {said : Said} (hsaid : ReadyAsSaid said room)
    (ht : Turn clock draw room handler room' ms) : ReadyAsSaid said room' := by
  refine ⟨?_, ht.playsReady hsaid.plays⟩
  cases ht with
  | replay hs hw =>
    intro slot p hp _
    obtain ⟨q, hq, rfl⟩ := of_get_map hp
    -- the flag that the reset sets was set before the round
    exact hsaid.flag slot q hq (hsaid.plays (by rw [hs]; decide) slot q hq)
  | _ => exact hsaid.flag

theorem Change.readyAsSaid {said : Said} {e : Event} {rest : List Event}
    (hsaid : ReadyAsSaid said room) (hC : LeavesReady room e rest)
    (hchange : Change room (room.happening e) room' calls) :
    ReadyAsSaid (readyConsent.happens said (room.happening e)) room' := by
  refine ⟨?_, hchange.playsReady hsaid.plays⟩
  have hmodify : ∀ (slot : PlayerAssignment) (f : Player → Player),
      (∀ p, (f p).isReady = p.isReady) → ∀ a p,
        (room.modifyPlayer slot f).players.get a = some p → p.isReady = true →
        said a = some true := by
    intro slot f hf a p hp hr
    obtain ⟨q, hq, heq⟩ := of_get_modifyPlayer_field (·.isReady) hf hp
    exact hsaid.flag a q hq (heq.symm.trans hr)
  unfold LeavesReady at hC
  generalize room.happening e = h at hchange hC ⊢
  cases hchange with
  | nothing => exact hsaid.flag
  | joins slot id nickname =>
    intro a p hp hr
    rcases of_get_occupy hp with ⟨rfl, rfl⟩ | ⟨ha, hp⟩
    · cases hr
    · exact (Function.update_of_ne ha _ _).trans (hsaid.flag a p hp hr)
  | leaves slot =>
    intro a p hp _
    obtain ⟨ha, q, hq, rfl⟩ := of_get_vacate hp
    have hother : a = slot.other := (slot.eq_or_eq_other a).resolve_left ha
    have hready : (room.players.get slot.other).all (·.isReady) = true := hC
    rw [← hother, hq] at hready
    exact (Function.update_of_ne ha _ _).trans (hsaid.flag a q hq hready)
  | setsReady slot q isReady =>
    intro a p hp hr
    rcases of_get_modifyPlayer hp with ⟨rfl, q', -, rfl⟩ | ⟨ha, hp⟩
    · exact (Function.update_self ..).trans (congrArg some hr)
    · exact (Function.update_of_ne ha _ _).trans (hsaid.flag a p hp hr)
  | canPlay slot => exact hmodify slot _ fun _ => rfl
  | presses slot => exact hmodify slot _ fun _ => rfl
  | setsReplayReady slot => exact hmodify slot _ fun _ => rfl

/-- Only a room whose players are all ready starts a game from the lobby. -/
theorem Turn.isEveryoneReady (ht : Turn clock draw room handler room' ms)
    (hm : .allReadyGameStarting ∈ ms) : room.isEveryoneReady = true := by
  cases ht with
  | allReady hs hr => exact hr
  | _ => simp at hm

theorem TickCase.isEveryoneReady (ht : TickCase clock draw room room' ms)
    (hm : .allReadyGameStarting ∈ ms) : room.isEveryoneReady = true := by
  obtain ⟨handler, room₁, ms₁, hturn, hm⟩ :=
    ht.exists_turn hm fun h hm => by cases h <;> simp at hm
  exact hturn.isEveryoneReady hm

/-- A run in which nobody leaves an unready player behind starts no game without both players'
consent. -/
theorem readyConsent_of_along {config : RoomConfig} {events : List Event}
    (hC : Along step LeavesReady (new config) events) : readyConsent.Accepts config events := by
  refine Chronicle.accepts readyConsent_lawful (C := LeavesReady)
    (R := fun said room _ => ReadyAsSaid said room) ?_ ?_ ?_ hC
  · intro said room e rest room' calls _ hC hsaid hchange
    exact hchange.readyAsSaid hsaid hC
  · intro said room clock draw rest room' ms hwf _ hsaid _ ht
    have hsaid' : ReadyAsSaid (ms.foldl (fun said _ => said) said) room' := by
      refine ht.preserves (fun hsaid hturn => ?_) hsaid
      rw [List.foldl_fixed' fun _ => rfl]
      exact hturn.readyAsSaid hsaid
    refine ⟨?_, hsaid'⟩
    rintro m hm rfl slot
    have hready := ht.isEveryoneReady hm
    obtain ⟨p, hp⟩ := exists_of_bothPlayers hready slot
    exact hsaid.flag slot p hp (of_bothPlayers hready hp)
  · refine ⟨fun slot p hp => ?_, fun hs => absurd rfl hs⟩
    rw [get_new] at hp
    cases hp

/-- Player 2 leaves during the round, and player 3 gets ready in its place. -/
theorem readyConsent_of_along_rematch :
    readyConsent.Accepts quickConfig (toExpectingInput ++
      [.handlePlayerMessage 2 .leaveGame 0, .addPlayer 3 [],
        .handlePlayerMessage 3 (.setReadyState true) 0, .tick (.const 0) 0]) :=
  readyConsent_of_along (by decide)

/-- Player 1 never says a word.  Player 2 leaves, which sets player 1's ready flag, and player 3
joins and gets ready. -/
def abandonThenReady : List Event :=
  [.addPlayer 1 [], .addPlayer 2 [], .handlePlayerMessage 2 .leaveGame 0, .addPlayer 3 [],
    .handlePlayerMessage 3 (.setReadyState true) 0]

theorem silent_player_is_started :
    ¬ ∀ (config : RoomConfig) (events : List Event),
      Along step JoinsAbsent (new config) events → readyConsent.Accepts config events := by
  intro hall
  have hacc := hall quickConfig (abandonThenReady ++ [.tick (.const 0) 0]) (by decide)
  have hrun : ∃ room calls, run step (new quickConfig) abandonThenReady = .ok (room, calls) ∧
      ∃ room' calls', room.step (.tick (.const 0) 0) = .ok (room', calls') ∧
        .publishGameplayMessage 1 .allReadyGameStarting ∈ calls' :=
    ⟨_, _, rfl, _, _, rfl, List.mem_cons_self ..⟩
  obtain ⟨room, calls, hrun, room', calls', hstep, hm⟩ := hrun
  have hyes : readyConsent.memory quickConfig abandonThenReady .P1 = some true :=
    hacc.last hrun hstep hm rfl .P1
  exact absurd hyes (by decide)

/-! ## Consent to a replay -/

/-- Whether the last round has a result, and what has been said about a replay since. -/
structure ReplayTalk where
  hasResult : Bool
  said : Said

/-- A replay needs a yes of both players after the result. -/
def replayConsent : Chronicle ReplayTalk where
  start := ⟨false, fun _ => none⟩
  happens talk h :=
    match h with
    | .leaves _ => ⟨false, fun _ => none⟩
    | .setsReplayReady slot isReadyToReplay =>
      if talk.hasResult then
        { talk with said := Function.update talk.said slot (some isReadyToReplay) }
      else talk
    | _ => talk
  read talk _ m :=
    match m with
    | .gameOverEarlyInput _ | .gameOverWrongInput _ | .gameOverWin _ | .gameOverDraw _ =>
      ⟨true, fun _ => none⟩
    | .allReadyGameStarting | .allReplayReadyGameStarting => ⟨false, fun _ => none⟩
    | _ => talk
  ok talk _ m := m = .allReplayReadyGameStarting → ∀ slot, talk.said slot = some true

theorem replayConsent_lawful : replayConsent.Lawful where
  idem talk h m := by cases m <;> rfl
  read_quiet talk h m hm := by cases m <;> first | rfl | cases hm
  ok_quiet talk h m hm := by
    rintro rfl
    cases hm

/-- The condition on a step: a replay is asked for only when there is a result. -/
def AsksAfterResult (room : Room) (e : Event) (_ : List Event) : Prop :=
  match room.happening e with
  | .setsReplayReady _ isReadyToReplay => isReadyToReplay = true → room.gameplayState = .over
  | _ => True

instance decidableAsksAfterResult (room : Room) (e : Event) (rest : List Event) :
    Decidable (AsksAfterResult room e rest) := by
  unfold AsksAfterResult
  split <;> infer_instance

/-- Whose replay flag is set has said yes since the result. -/
structure ReplayAsSaid (talk : ReplayTalk) (room : Room) : Prop where
  hasResult : talk.hasResult = true ↔ room.gameplayState = .over
  unsaid : talk.hasResult = false → talk.said = fun _ => none
  flag : ∀ slot p, room.players.get slot = some p → p.isReadyToReplay = true →
    talk.said slot = some true

/-- Before the result no replay flag is set. -/
theorem ReplayAsSaid.not_flag {talk : ReplayTalk} (htalk : ReplayAsSaid talk room)
    (hs : room.gameplayState ≠ .over) {slot : PlayerAssignment} {p : Player}
    (hp : room.players.get slot = some p) : p.isReadyToReplay ≠ true := by
  intro hflag
  have hover : talk.hasResult = false := by
    rw [← Bool.not_eq_true, htalk.hasResult]
    exact hs
  have hyes := htalk.flag slot p hp hflag
  rw [htalk.unsaid hover] at hyes
  cases hyes

/-- A round leaves no replay flag behind, whether it begins or ends. -/
theorem ReplayAsSaid.reset {talk : ReplayTalk} (htalk : ReplayAsSaid talk room)
    (hs : room.gameplayState ≠ .over) (state : GameplayState)
    (result : Bool) (hresult : result = true ↔ state = .over) :
    ReplayAsSaid ⟨result, fun _ => none⟩ { room with gameplayState := state } where
  hasResult := hresult
  unsaid _ := rfl
  flag _ _ hp hflag := absurd hflag (htalk.not_flag hs hp)

theorem Turn.replayAsSaid {talk : ReplayTalk} {h : Happening} (htalk : ReplayAsSaid talk room)
    (ht : Turn clock draw room handler room' ms) :
    ReplayAsSaid (ms.foldl (fun talk m => replayConsent.read talk h m) talk) room' := by
  have hended : room.gameplayState ≠ .over →
      ReplayAsSaid ⟨true, fun _ => none⟩ { room with gameplayState := .over } := fun hs =>
    htalk.reset hs .over true (by simp)
  cases ht with
  | idle => exact htalk
  | allReady hs hr => exact htalk.reset (by rw [hs]; decide) .started false (by decide)
  | firstCanPlay hs hc hn => exact ⟨htalk.hasResult, htalk.unsaid, htalk.flag⟩
  | expectingInput reference hs =>
    exact ⟨htalk.hasResult.trans (by simp [hs]), htalk.unsaid, htalk.flag⟩
  | replay hs hw =>
    refine ⟨by simp [replayConsent], fun _ => rfl, fun slot p hp hflag => ?_⟩
    obtain ⟨q, -, rfl⟩ := of_get_map hp
    cases hflag
  | earlyInput a p q i r hs => exact hended (by rw [hs]; decide)
  | wrongInput a p q i r hs => exact hended (by rw [hs]; decide)
  | winAlone a p q i r t hs => exact hended (by rw [hs]; decide)
  | winFirst a p q t t' r hs => exact hended (by rw [hs]; decide)
  | drawTie p1 p2 t r hs => exact hended (by rw [hs]; decide)
  | drawTimeout reference r hs => exact hended (by rw [hs]; decide)

theorem Change.replayAsSaid {talk : ReplayTalk} {e : Event} {rest : List Event}
    (htalk : ReplayAsSaid talk room) (hC : AsksAfterResult room e rest)
    (hchange : Change room (room.happening e) room' calls) :
    ReplayAsSaid (replayConsent.happens talk (room.happening e)) room' := by
  have hmodify : ∀ (slot : PlayerAssignment) (f : Player → Player),
      (∀ p, (f p).isReadyToReplay = p.isReadyToReplay) →
        ReplayAsSaid talk (room.modifyPlayer slot f) := by
    intro slot f hf
    refine ⟨htalk.hasResult, htalk.unsaid, fun a p hp hflag => ?_⟩
    obtain ⟨q, hq, heq⟩ := of_get_modifyPlayer_field (·.isReadyToReplay) hf hp
    exact htalk.flag a q hq (heq.symm.trans hflag)
  unfold AsksAfterResult at hC
  generalize room.happening e = h at hchange hC ⊢
  cases hchange with
  | nothing => exact htalk
  | joins slot id nickname =>
    refine ⟨htalk.hasResult, htalk.unsaid, fun a p hp hflag => ?_⟩
    rcases of_get_occupy hp with ⟨rfl, rfl⟩ | ⟨-, hp⟩
    · cases hflag
    · exact htalk.flag a p hp hflag
  | leaves slot =>
    refine ⟨by simp [vacate, replayConsent], fun _ => rfl, fun a p hp hflag => ?_⟩
    obtain ⟨-, q, -, rfl⟩ := of_get_vacate hp
    cases hflag
  | setsReady slot => exact hmodify slot _ fun _ => rfl
  | canPlay slot => exact hmodify slot _ fun _ => rfl
  | presses slot => exact hmodify slot _ fun _ => rfl
  | setsReplayReady slot q isReadyToReplay =>
    have hrequest : isReadyToReplay = true → room.gameplayState = .over := hC
    by_cases hover : talk.hasResult = true
    · simp only [replayConsent, hover, if_true]
      refine ⟨(iff_of_eq (by rw [hover])).trans htalk.hasResult, fun hf => absurd hf (by simp),
        fun a p hp hflag => ?_⟩
      rcases of_get_modifyPlayer hp with ⟨rfl, q', -, rfl⟩ | ⟨ha, hp⟩
      · exact (Function.update_self ..).trans (congrArg some hflag)
      · exact (Function.update_of_ne ha _ _).trans (htalk.flag a p hp hflag)
    · simp only [replayConsent, hover, if_false, Bool.false_eq_true]
      refine ⟨htalk.hasResult, htalk.unsaid, fun a p hp hflag => ?_⟩
      rcases of_get_modifyPlayer hp with ⟨rfl, q', -, rfl⟩ | ⟨-, hp⟩
      · -- without a result the request was withdrawn, not made
        exact absurd (htalk.hasResult.2 (hrequest hflag)) hover
      · exact htalk.flag a p hp hflag

/-- Only a room whose players all want to replay starts a replay. -/
theorem Turn.everyoneWantsToReplay (ht : Turn clock draw room handler room' ms)
    (hm : .allReplayReadyGameStarting ∈ ms) : room.everyoneWantsToReplay = true := by
  cases ht with
  | replay hs hw => exact hw
  | _ => simp at hm

theorem TickCase.everyoneWantsToReplay (ht : TickCase clock draw room room' ms)
    (hm : .allReplayReadyGameStarting ∈ ms) : room.everyoneWantsToReplay = true := by
  obtain ⟨handler, room₁, ms₁, hturn, hm⟩ :=
    ht.exists_turn hm fun h hm => by cases h <;> simp at hm
  exact hturn.everyoneWantsToReplay hm

/-- A run in which replays are only asked for after a result starts no replay without both
players' consent. -/
theorem replayConsent_of_along {config : RoomConfig} {events : List Event}
    (hC : Along step AsksAfterResult (new config) events) :
    replayConsent.Accepts config events := by
  refine Chronicle.accepts replayConsent_lawful (C := AsksAfterResult)
    (R := fun talk room _ => ReplayAsSaid talk room) ?_ ?_ ?_ hC
  · intro talk room e rest room' calls _ hC htalk hchange
    exact hchange.replayAsSaid htalk hC
  · intro talk room clock draw rest room' ms hwf _ htalk _ ht
    refine ⟨?_, ht.preserves (fun htalk hturn => hturn.replayAsSaid htalk) htalk⟩
    rintro m hm rfl slot
    have hwants := ht.everyoneWantsToReplay hm
    obtain ⟨p, hp⟩ := exists_of_bothPlayers hwants slot
    exact htalk.flag slot p hp (of_bothPlayers hwants hp)
  · refine ⟨by simp [replayConsent, new], fun _ => rfl, fun slot p hp => ?_⟩
    rw [get_new] at hp
    cases hp

/-- A draw by timeout, after which both players ask for a replay. -/
theorem replayConsent_of_along_draw :
    replayConsent.Accepts quickConfig (toExpectingInput ++
      [.tick (.const 0) 0, .handlePlayerMessage 1 (.setReplayReadyState true) 0,
        .handlePlayerMessage 2 (.setReplayReadyState true) 0, .tick (.const 0) 0]) :=
  replayConsent_of_along (by decide)

/-- Both players ask for a replay before the round has a result, which is a draw by timeout. -/
def askThenDraw : List Event :=
  toExpectingInput ++ [.handlePlayerMessage 1 (.setReplayReadyState true) 0,
    .handlePlayerMessage 2 (.setReplayReadyState true) 0, .tick (.const 0) 0]

theorem early_requests_start_replay :
    ¬ ∀ (config : RoomConfig) (events : List Event), replayConsent.Accepts config events := by
  intro hall
  have hacc := hall quickConfig (askThenDraw ++ [.tick (.const 0) 0])
  have hrun : ∃ room calls, run step (new quickConfig) askThenDraw = .ok (room, calls) ∧
      ∃ room' calls', room.step (.tick (.const 0) 0) = .ok (room', calls') ∧
        .publishGameplayMessage 1 .allReplayReadyGameStarting ∈ calls' :=
    ⟨_, _, rfl, _, _, rfl, List.mem_cons_self ..⟩
  obtain ⟨room, calls, hrun, room', calls', hstep, hm⟩ := hrun
  have hyes : (replayConsent.memory quickConfig askThenDraw).said .P1 = some true :=
    hacc.last hrun hstep hm rfl .P1
  exact absurd hyes (by decide)

end Room
end SamuraiKirby
