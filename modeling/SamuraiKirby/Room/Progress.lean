/-
A round comes to an end.

A round has three stages: both players can play, the delay before the input
request runs, and an input is expected.  A stage is not lost unless the round
ends or a player leaves (`Underway.step`), and a tick that comes late enough
takes the round to the next stage.  `round_ends` puts the three together.

The stages carry the time their wait began, so that only the readings taken
until then count.  The wait for the second player has no such time: it begins
again with every press.
-/
import SamuraiKirby.Room.Observation
import SamuraiKirby.Room.Seats
import SamuraiKirby.Room.Timers
import SamuraiKirby.Transition.Until

namespace SamuraiKirby
namespace Room

open Transition

variable {clock : Readings} {draw : Nat} {room room' : Room} {handler : Handler} {e : Event}
  {calls : List BrokerCall} {ms : List GameplayMessage}

/-! ## How a round ends -/

/-- One of `ids` leaves, or one result is published to all of them. -/
def Ends (ids : List PlayerId) (calls : List BrokerCall) : Prop :=
  (∃ id ∈ ids, .unsubscribeToPlayerActionMessages id ∈ calls) ∨
    ∃ m, m.gameResult?.isSome = true ∧ ∀ id ∈ ids, .publishGameplayMessage id m ∈ calls

theorem lasting_ends (ids : List PlayerId) : Lasting (Ends ids) where
  before := by
    rintro ps os (⟨id, hid, hcall⟩ | ⟨m, hm, hall⟩)
    · exact Or.inl ⟨id, hid, List.mem_append_right _ hcall⟩
    · exact Or.inr ⟨m, hm, fun id hid => List.mem_append_right _ (hall id hid)⟩
  after := by
    rintro os ps (⟨id, hid, hcall⟩ | ⟨m, hm, hall⟩)
    · exact Or.inl ⟨id, hid, List.mem_append_left _ hcall⟩
    · exact Or.inr ⟨m, hm, fun id hid => List.mem_append_left _ (hall id hid)⟩

theorem ends_of_broadcast {m : GameplayMessage} (hm : m ∈ ms)
    (hresult : m.gameResult?.isSome = true) : Ends room.recipients (room.broadcastAll ms) := by
  refine Or.inr ⟨m, hresult, fun id hid => ?_⟩
  refine List.mem_flatMap.2 ⟨m, hm, ?_⟩
  rw [broadcastGameplayMessage_eq]
  exact List.mem_map_of_mem hid

/-! ## The stages of a round -/

/-- A wait is measured from its `reference`. -/
inductive RoundStage where
  | canPlay
  | delay (reference : ChronoTimePoint)
  | expecting (reference : ChronoTimePoint)
deriving DecidableEq, Repr

/-- How far the round in a room has come. -/
def Reached (room : Room) : RoundStage → Prop
  | .canPlay => room.gameplayState = .expectingInput ∨
      (room.gameplayState = .started ∧ room.everyoneCanPlay = true)
  | .delay reference => room.gameplayState = .expectingInput ∨
      (room.gameplayState = .started ∧ room.everyoneCanPlay = true ∧
        room.everyoneCanPlayAt = some reference)
  | .expecting reference => room.gameplayState = .expectingInput ∧
      room.readyForInputAt = some reference

theorem Reached.inRound {stage : RoundStage} (h : room.Reached stage) : room.inRound = true := by
  cases stage <;> simp only [Reached] at h <;> simp only [Room.inRound, decide_eq_true_eq] <;> tauto

theorem Reached.ne_waitingPlayers {stage : RoundStage} (h : room.Reached stage) :
    room.gameplayState ≠ .waitingPlayers := by
  intro hs
  have hround := h.inRound
  simp [Room.inRound, hs] at hround

theorem bothPlayers_modifyPlayer {test : Player → Bool} {slot : PlayerAssignment}
    {f : Player → Player} (hf : ∀ p, test p = true → test (f p) = true)
    (h : room.bothPlayers test = true) : (room.modifyPlayer slot f).bothPlayers test = true := by
  obtain ⟨p1, p2, hp, h1, h2⟩ := bothPlayers_eq_true.1 h
  cases slot with
  | P1 =>
    simp [bothPlayers, modifyPlayer, Players.modify, Players.set, Players.get, hp, hf p1 h1, h2]
  | P2 =>
    simp [bothPlayers, modifyPlayer, Players.modify, Players.set, Players.get, hp, h1, hf p2 h2]

theorem Reached.modifyPlayer {stage : RoundStage} {slot : PlayerAssignment} {f : Player → Player}
    (h : room.Reached stage) (hf : ∀ p, p.canPlay = true → (f p).canPlay = true) :
    (room.modifyPlayer slot f).Reached stage := by
  cases stage with
  | canPlay =>
    rcases h with hs | ⟨hs, hc⟩
    · exact Or.inl hs
    · exact Or.inr ⟨hs, bothPlayers_modifyPlayer hf hc⟩
  | delay =>
    rcases h with hs | ⟨hs, hc, hat⟩
    · exact Or.inl hs
    · exact Or.inr ⟨hs, bothPlayers_modifyPlayer hf hc, hat⟩
  | expecting => exact h

/-- Inside a round only leaving can undo a stage. -/
theorem Change.stage {h : Happening} {stage : RoundStage} (hstage : room.Reached stage)
    (hchange : Change room h room' calls) :
    Ends room.recipients calls ∨ (room'.Reached stage ∧ room'.recipients = room.recipients) := by
  have hlobby := hstage.ne_waitingPlayers
  have hmodify : ∀ (slot : PlayerAssignment) {f : Player → Player}, (∀ p, (f p).id = p.id) →
      (∀ p, p.canPlay = true → (f p).canPlay = true) →
        (room.modifyPlayer slot f).Reached stage ∧
          (room.modifyPlayer slot f).recipients = room.recipients :=
    fun slot _ hid hcan => ⟨hstage.modifyPlayer hcan, recipients_modifyPlayer room slot hid⟩
  cases hchange with
  | nothing => exact Or.inr ⟨hstage, rfl⟩
  | joins slot id nickname hs => exact absurd hs hlobby
  | leaves slot p hp =>
    exact Or.inl (Or.inl ⟨p.id, mem_recipients_iff.2 ⟨slot, p, hp, rfl⟩, List.mem_cons_self ..⟩)
  | setsReady slot p isReady hs => exact absurd hs hlobby
  | canPlay slot => exact Or.inr (hmodify slot (fun _ => rfl) fun _ _ => rfl)
  | presses slot => exact Or.inr (hmodify slot (fun _ => rfl) fun _ h => h)
  | setsReplayReady slot => exact Or.inr (hmodify slot (fun _ => rfl) fun _ h => h)

/-- A turn in a round publishes the result or loses no stage. -/
theorem Turn.stage {stage : RoundStage} (hstage : room.Reached stage)
    (ht : Turn clock draw room handler room' ms) :
    (∃ m ∈ ms, m.gameResult?.isSome = true) ∨ room'.Reached stage := by
  have hround := hstage.inRound
  cases ht with
  | idle => exact Or.inr hstage
  | allReady hs => simp [inRound, hs] at hround
  | replay hs => simp [inRound, hs] at hround
  | firstCanPlay hs hc hn =>
    right
    cases stage with
    | canPlay => exact Or.inr ⟨hs, hc⟩
    | delay reference =>
      -- the delay runs from the first tick
      rcases hstage with hs' | ⟨-, -, hat⟩
      · cases hs.symm.trans hs'
      · cases hn.symm.trans hat
    | expecting reference => exact hstage
  | expectingInput _ hs =>
    right
    cases stage with
    | expecting reference => cases hs.symm.trans hstage.1
    | _ => exact Or.inl rfl
  | _ => exact Or.inl ⟨_, List.mem_singleton_self _, rfl⟩

theorem TickCase.stage {stage : RoundStage} (hstage : room.Reached stage)
    (ht : TickCase clock draw room room' ms) :
    (∃ m ∈ ms, m.gameResult?.isSome = true) ∨ room'.Reached stage := by
  cases ht with
  | turn h => exact h.stage hstage
  | twoTurns first second =>
    rcases first.stage hstage with ⟨m, hm, hr⟩ | hstage₁
    · exact Or.inl ⟨m, List.mem_append_left _ hm, hr⟩
    · rcases second.stage hstage₁ with ⟨m, hm, hr⟩ | hstage₂
      · exact Or.inl ⟨m, List.mem_append_right _ hm, hr⟩
      · exact Or.inr hstage₂

theorem TickCase.recipients (ht : TickCase clock draw room room' ms) :
    room'.recipients = room.recipients := by
  cases ht with
  | turn h => exact h.recipients
  | twoTurns first second => exact second.recipients.trans first.recipients

theorem tick_stage {stage : RoundStage} (h : WellFormed room) (hstage : room.Reached stage)
    (ht : room.tick clock draw = .ok (room', calls)) :
    Ends room.recipients calls ∨ (room'.Reached stage ∧ room'.recipients = room.recipients) := by
  obtain ⟨ms, rfl, hcase, -⟩ := tick_cases h ht
  rcases hcase.stage hstage with ⟨m, hm, hr⟩ | hstage'
  · exact Or.inl (hcase.recipients ▸ ends_of_broadcast hm hr)
  · exact Or.inr ⟨hstage', hcase.recipients⟩

/-- A stage is kept until the round ends. -/
theorem step_stage {stage : RoundStage} (h : WellFormed room) (hstage : room.Reached stage)
    (hstep : room.step e = .ok (room', calls)) :
    Ends room.recipients calls ∨ (room'.Reached stage ∧ room'.recipients = room.recipients) := by
  rcases step_cases h hstep with ⟨clock, draw, rfl, ht⟩ | hchange
  · exact tick_stage h hstage ht
  · exact hchange.stage hstage

/-! ## Time stamps -/

/-- The readings that presses are stamped with. -/
def Event.presses : Event → List ChronoTimePoint
  | .handlePlayerMessage _ (.playerInput _ _) now => [now]
  | _ => []

/-- The time stamps of a room were taken in `past`. -/
structure Stamped (past : List Event) (room : Room) : Prop where
  everyoneCanPlay : ∀ t, room.everyoneCanPlayAt = some t → t ∈ past.flatMap Event.readings
  readyForInput : ∀ t, room.readyForInputAt = some t → t ∈ past.flatMap Event.readings
  pressed : ∀ a p t, room.players.get a = some p → p.inputPressedAtServerTime = some t →
    t ∈ past.flatMap Event.presses

theorem stamped_new (config : RoomConfig) : Stamped [] (new config) where
  everyoneCanPlay := nofun
  readyForInput := nofun
  pressed := by
    intro a p t hp
    rw [get_new] at hp
    cases hp

variable {past events : List Event}

theorem Stamped.append (h : Stamped past room) (more : List Event) :
    Stamped (past ++ more) room := by
  refine ⟨fun t ht => ?_, fun t ht => ?_, fun a p t hp ht => ?_⟩ <;> rw [List.flatMap_append]
  · exact List.mem_append_left _ (h.everyoneCanPlay t ht)
  · exact List.mem_append_left _ (h.readyForInput t ht)
  · exact List.mem_append_left _ (h.pressed a p t hp ht)

theorem Stamped.modifyPlayer (h : Stamped past room) (slot : PlayerAssignment)
    {f : Player → Player} (hf : ∀ p t, (f p).inputPressedAtServerTime = some t →
      p.inputPressedAtServerTime = some t ∨ t ∈ past.flatMap Event.presses) :
    Stamped past (room.modifyPlayer slot f) where
  everyoneCanPlay := h.everyoneCanPlay
  readyForInput := h.readyForInput
  pressed := by
    intro a p t hp ht
    rcases of_get_modifyPlayer hp with ⟨rfl, q, hq, rfl⟩ | ⟨-, hp⟩
    · exact (hf q t ht).elim (h.pressed a q t hq) id
    · exact h.pressed a p t hp ht

theorem Change.stamped (h : Stamped past room)
    (hchange : Change room (room.happening e) room' calls) : Stamped (past ++ [e]) room' := by
  generalize heq : room.happening e = what at hchange
  have hkept := h.append [e]
  cases hchange with
  | nothing => exact hkept
  | joins slot =>
    refine ⟨hkept.everyoneCanPlay, hkept.readyForInput, fun a p t hp ht => ?_⟩
    rcases of_get_occupy hp with ⟨rfl, rfl⟩ | ⟨-, hp⟩
    · cases ht
    · exact hkept.pressed a p t hp ht
  | leaves slot =>
    -- `resetToReplay` leaves the stamp of the last press in place
    refine ⟨nofun, nofun, fun a p t hp ht => ?_⟩
    obtain ⟨-, q, hq, rfl⟩ := of_get_vacate hp
    exact hkept.pressed a q t hq ht
  | presses slot p i timeToPress now =>
    refine hkept.modifyPlayer slot fun q t ht => Or.inr ?_
    obtain ⟨id, player, rfl, -⟩ := of_happening_presses heq
    cases ht
    rw [List.flatMap_append]
    exact List.mem_append_right _ (List.mem_singleton_self _)
  | _ => exact hkept.modifyPlayer _ fun _ _ ht => Or.inl ht

theorem mem_readings_of_tick {t : ChronoTimePoint} (ht : t ∈ clock.toList) :
    t ∈ (past ++ [Event.tick clock draw]).flatMap Event.readings := by
  rw [List.flatMap_append, List.flatMap_singleton]
  exact List.mem_append_right _ ht

theorem Turn.stamped (h : Stamped past room)
    (hclock : ∀ t ∈ clock.toList, t ∈ past.flatMap Event.readings)
    (ht : Turn clock draw room handler room' ms) : Stamped past room' := by
  have hcan := hclock clock.everyoneCanPlay (by simp [Readings.toList])
  cases ht with
  | firstCanPlay =>
    refine ⟨fun t ht => ?_, h.readyForInput, h.pressed⟩
    cases ht
    exact hcan
  | expectingInput reference _ _ hr =>
    refine ⟨fun t ht => ?_, fun t ht => ?_, h.pressed⟩
    · cases ht
      cases hat : room.everyoneCanPlayAt with
      | none =>
        rw [hat] at hr
        exact hr ▸ hcan
      | some t =>
        rw [hat] at hr
        exact hr ▸ h.everyoneCanPlay t hat
    · cases ht
      exact hclock _ (by simp [Readings.toList])
  | replay =>
    refine ⟨fun t ht => ?_, fun t ht => ?_, fun a p t hp ht => ?_⟩
    · cases ht
    · cases ht
    · obtain ⟨q, hq, rfl⟩ := of_get_map hp
      exact h.pressed a q t hq ht
  | _ => exact ⟨h.everyoneCanPlay, h.readyForInput, h.pressed⟩

theorem step_stamped (hw : WellFormed room) (h : Stamped past room)
    (hstep : room.step e = .ok (room', calls)) : Stamped (past ++ [e]) room' := by
  rcases step_cases hw hstep with ⟨clock, draw, rfl, ht⟩ | hchange
  · obtain ⟨ms, -, hcase, -⟩ := tick_cases hw ht
    have hclock : ∀ t ∈ clock.toList,
        t ∈ (past ++ [Event.tick clock draw]).flatMap Event.readings :=
      fun t => mem_readings_of_tick
    have hkept := h.append [Event.tick clock draw]
    cases hcase with
    | turn h' => exact h'.stamped hkept hclock
    | twoTurns first second => exact second.stamped (first.stamped hkept hclock) hclock
  · exact hchange.stamped h

/-- Every time stamp of a room was read from the clock. -/
theorem run_stamped {config : RoomConfig}
    (hrun : run step (new config) events = .ok (room, calls)) : Stamped events room := by
  have hboth : WellFormed room ∧ Stamped events room := by
    refine run_history_from_start (C := fun _ _ _ => True)
      (P := fun events room _ => WellFormed room ∧ Stamped events room)
      ?_ ⟨wellFormed_new config, stamped_new config⟩ (along_true _ _) hrun
    rintro past room _ e - room' calls ⟨hw, hst⟩ - hstep
    exact ⟨step_wellFormed hw hstep, step_stamped hw hst hstep⟩
  exact hboth.2

/-! ## Late ticks -/

theorem Handler.call_eq_ok (h : WellFormed room)
    (hcall : handler.call clock draw room = .ok (room', calls)) :
    ∃ ms, Turn clock draw room handler room' ms := by
  obtain ⟨room₁, ms, heq, hturn⟩ := @Handler.call_turn clock draw room h handler
  rw [hcall] at heq
  cases heq
  exact ⟨ms, hturn⟩

/-- A tick after the delay requests the input, whatever it does then. -/
theorem tick_not_started {t : ChronoTimePoint} (h : WellFormed room)
    (hs : room.gameplayState = .started) (hc : room.everyoneCanPlay = true)
    (hat : room.everyoneCanPlayAt = some t)
    (hd : room.config.secondsBeforeInputRequest ≤ getSecondsSince clock.beforeInputRequest t)
    (ht : room.tick clock draw = .ok (room', calls)) : room'.gameplayState ≠ .started := by
  unfold tick at ht
  rw [hs] at ht
  obtain ⟨room₁, os₁, os₂, h₁, h₂, -⟩ := run_cons_eq_ok.1 ht
  rw [run_singleton] at h₂
  obtain ⟨ms₁, hturn₁⟩ := Handler.call_eq_ok h h₁
  obtain ⟨ms₂, hturn₂⟩ := Handler.call_eq_ok (hturn₁.wellFormed h) h₂
  rw [Handler.call, handleEveryoneCanPlay_requests hs hc (by rwa [hat])] at h₁
  cases h₁
  rcases hturn₂.over_of_expectingInput rfl with ⟨rfl, -⟩ | hover
  · exact nofun
  · rw [hover]
    exact nofun

/-- A handler that ends the round has not been idle. -/
theorem ne_of_over {outcome : Except BadOptionalAccess (Room × List BrokerCall)}
    (hs : room.gameplayState = .expectingInput)
    (h : ∃ calls', outcome = .ok ({ room with gameplayState := .over }, calls')) :
    outcome ≠ .ok (room, calls) := by
  obtain ⟨calls', rfl⟩ := h
  intro heq
  have hover := congrArg Room.gameplayState (Prod.mk.inj (Except.ok.inj heq)).1
  cases hover.trans hs

/-- No one has pressed since the request. -/
theorem handleTimeout_ne {t : ChronoTimePoint} (hs : room.gameplayState = .expectingInput)
    (hat : room.readyForInputAt = some t)
    (hd : room.config.noInputTimeout ≤ getSecondsSince clock.timeout t)
    (hn : room.noOnePlayed = true) : room.handleTimeout clock ≠ .ok (room, calls) := by
  obtain ⟨p1, p2, hp, -, -⟩ := bothPlayers_eq_true.1 hn
  exact ne_of_over hs ⟨_, by
    simp [handleTimeout, hs, hn, hat, hd, buildGameResultDTO_of_full hp]; rfl⟩

section Expecting

variable (h : WellFormed room) (hs : room.gameplayState = .expectingInput)
include h hs

theorem handleEveryonePlayed_ne (he : room.everyonePlayed = true) :
    room.handleEveryonePlayed ≠ .ok (room, calls) := by
  obtain ⟨p1, p2, hp, h1, h2⟩ := bothPlayers_eq_true.1 he
  have hp1 : room.players.get .P1 = some p1 := by rw [hp]; rfl
  have hp2 : room.players.get .P2 = some p2 := by rw [hp]; rfl
  obtain ⟨t1, ht1⟩ := Option.isSome_iff_exists.1 ((h.paired .P1 p1 hp1).handled h1)
  obtain ⟨t2, ht2⟩ := Option.isSome_iff_exists.1 ((h.paired .P2 p2 hp2).handled h2)
  obtain ⟨i1, hi1⟩ := Option.isSome_iff_exists.1 h1
  obtain ⟨i2, hi2⟩ := Option.isSome_iff_exists.1 h2
  have hboth : room.BothPlayed p1 p2 i1 i2 t1 t2 := ⟨hs, hp, hi1, hi2, ht1, ht2⟩
  exact ne_of_over hs ⟨_, hboth.handleEveryonePlayed⟩

/-- Only one player has pressed, and every press is long ago. -/
theorem handleOnePlayerPlayed_ne
    (hd : ∀ a p t, room.players.get a = some p → p.inputPressedAtServerTime = some t →
      room.config.onePlayerInputOnlyTimeout ≤ getSecondsSince clock.onePlayerPlayed t)
    (he : room.everyonePlayed = false) (hn : room.noOnePlayed = false) :
    room.handleOnePlayerPlayed clock ≠ .ok (room, calls) := by
  obtain ⟨p1, p2, hp⟩ := h.full (by rw [hs]; decide)
  obtain ⟨p, q, i, hone⟩ := exists_onlyPlayed hp he hn
  obtain ⟨t, hat⟩ := Option.isSome_iff_exists.1
    ((h.paired _ p hone.player).handled (by rw [hone.pressed]; rfl))
  have hd' := hd _ p t hone.player hat
  have hp1 : room.players.P1 = some p1 := by rw [hp]
  unfold handleOnePlayerPlayed
  rw [if_neg (by simp [hs]), he, hn]
  simp only [hp1, value_some, ok_bind]
  generalize (if p1.inputPressed.isSome = true then PlayerAssignment.P1 else .P2) = a at hone ⊢
  -- the wrong button ends the round at once, the right one because the wait is over
  by_cases hi : i = room.expectedInput
  · exact ne_of_over hs ⟨_, by
      simp [hs, hone.player, hone.pressed, hi, hat, hd', buildGameResultDTO_of_full hp]; rfl⟩
  · exact ne_of_over hs ⟨_, by
      simp [hs, hone.player, hone.pressed, hi, buildGameResultDTO_of_full hp]; rfl⟩

/-- A tick after both waits ends the round. -/
theorem tick_over {t : ChronoTimePoint} (hat : room.readyForInputAt = some t)
    (hnone : room.config.noInputTimeout ≤ getSecondsSince clock.timeout t)
    (hone : ∀ a p t, room.players.get a = some p → p.inputPressedAtServerTime = some t →
      room.config.onePlayerInputOnlyTimeout ≤ getSecondsSince clock.onePlayerPlayed t)
    (ht : room.tick clock draw = .ok (room', calls)) : room'.gameplayState = .over := by
  unfold tick at ht
  rw [hs] at ht
  obtain ⟨room₁, os₁, _, h₁, ht, -⟩ := run_cons_eq_ok.1 ht
  obtain ⟨room₂, os₂, _, h₂, h₃, -⟩ := run_cons_eq_ok.1 ht
  rw [run_singleton] at h₃
  obtain ⟨ms₁, hturn₁⟩ := Handler.call_eq_ok h h₁
  obtain ⟨ms₂, hturn₂⟩ := Handler.call_eq_ok (hturn₁.wellFormed h) h₂
  obtain ⟨ms₃, hturn₃⟩ := Handler.call_eq_ok (hturn₂.wellFormed (hturn₁.wellFormed h)) h₃
  rcases hturn₁.over_of_expectingInput hs with ⟨rfl, -⟩ | hover
  · rcases hturn₂.over_of_expectingInput hs with ⟨rfl, -⟩ | hover
    · rcases hturn₃.over_of_expectingInput hs with ⟨rfl, -⟩ | hover
      · -- not all three handlers can have been idle
        exfalso
        cases he : room'.everyonePlayed with
        | true => exact handleEveryonePlayed_ne h hs he h₂
        | false =>
          cases hn : room'.noOnePlayed with
          | true => exact handleTimeout_ne hs hat hnone hn h₃
          | false => exact handleOnePlayerPlayed_ne h hs hone he hn h₁
      · exact hover
    · rw [(hturn₃.idle_of_over hover (by decide)).1]
      exact hover
  · obtain ⟨rfl, -⟩ := hturn₂.idle_of_over hover (by decide)
    rw [(hturn₃.idle_of_over hover (by decide)).1]
    exact hover

end Expecting

/-! ## Whole rounds -/

/-- `past` has led to the room, and the round of the players `ids` has come to `stage`. -/
structure Underway (config : RoomConfig) (ids : List PlayerId) (stage : RoundStage)
    (past : List Event) (room : Room) : Prop where
  history : ∃ calls, run step (new config) past = .ok (room, calls)
  recipients : room.recipients = ids
  reached : room.Reached stage

namespace Underway

variable {config : RoomConfig} {ids : List PlayerId} {stage : RoundStage} {t : ChronoTimePoint}

theorem wellFormed (h : Underway config ids stage past room) : WellFormed room :=
  h.history.elim fun _ hrun => run_wellFormed hrun

theorem stamped (h : Underway config ids stage past room) : Stamped past room :=
  h.history.elim fun _ hrun => run_stamped hrun

theorem config_eq (h : Underway config ids stage past room) : room.config = config :=
  h.history.elim fun _ hrun => run_config hrun

/-- A stage is kept until the round ends. -/
theorem step (h : Underway config ids stage past room)
    (hstep : room.step e = .ok (room', calls)) :
    Ends ids calls ∨ Underway config ids stage (past ++ [e]) room' := by
  obtain ⟨calls₀, hrun⟩ := h.history
  rcases step_stage h.wellFormed h.reached hstep with hend | ⟨hstage, hids⟩
  · exact Or.inl (h.recipients ▸ hend)
  · exact Or.inr ⟨⟨_, run_snoc hrun hstep⟩, hids.trans h.recipients, hstage⟩

/-- A stage lasts over `events`, and a tick follows. -/
theorem until_tick (h : Underway config ids stage past room) {Q : Prop}
    (htick : ∀ {room₁ calls₁}, Underway config ids stage (past ++ events) room₁ →
      room₁.step (.tick clock draw) = .ok (room', calls₁) → Ends ids calls₁ ∨ Q)
    (hrun : run Room.step room (events ++ [.tick clock draw]) = .ok (room', calls)) :
    Ends ids calls ∨ Q :=
  run_until_then (lasting_ends ids) (P := Underway config ids stage)
    (fun _ _ _ _ _ h hstep => h.step hstep) (fun _ _ => htick) h hrun

theorem expecting (h : Underway config ids stage past room)
    (hs : room.gameplayState = .expectingInput) :
    ∃ t ∈ past.flatMap Event.readings, Underway config ids (.expecting t) past room := by
  obtain ⟨t, hat⟩ := Option.isSome_iff_exists.1 (h.wellFormed.readyForInput hs)
  exact ⟨t, h.stamped.readyForInput t hat, h.history, h.recipients, hs, hat⟩

theorem step_not_started (h : Underway config ids stage past room)
    (hs : room.gameplayState = .expectingInput) (hstep : room.step e = .ok (room', calls)) :
    Ends ids calls ∨ room'.gameplayState ≠ .started := by
  obtain ⟨t, -, hexpecting⟩ := h.expecting hs
  refine (hexpecting.step hstep).imp_right fun h' => ?_
  rw [h'.reached.1]
  exact nofun

/-- The next tick starts the delay. -/
theorem delay (h : Underway config ids .canPlay past room)
    (hstep : room.step (.tick clock draw) = .ok (room', calls)) :
    Ends ids calls ∨ ∃ t ∈ (past ++ [Event.tick clock draw]).flatMap Event.readings,
      Underway config ids (.delay t) (past ++ [.tick clock draw]) room' := by
  rcases h.step hstep with hend | h'
  · exact Or.inl hend
  rcases h'.reached with hs' | ⟨hs', hc'⟩
  · exact Or.inr ⟨clock.everyoneCanPlay, mem_readings_of_tick (List.mem_cons_self ..),
      h'.history, h'.recipients, Or.inl hs'⟩
  · rcases h.reached with hs | ⟨hs, hc⟩
    · exact (h.step_not_started hs hstep).imp_right (absurd hs')
    · have hat := tick_everyoneCanPlayAt h.wellFormed hs hstep hs'
      rw [if_pos hc] at hat
      exact Or.inr ⟨_, h'.stamped.everyoneCanPlay _ hat, h'.history, h'.recipients,
        Or.inr ⟨hs', hc', hat⟩⟩

/-- A tick after the delay requests the input. -/
theorem request (h : Underway config ids (.delay t) past room)
    (hd : config.secondsBeforeInputRequest ≤ getSecondsSince clock.beforeInputRequest t)
    (hstep : room.step (.tick clock draw) = .ok (room', calls)) :
    Ends ids calls ∨ ∃ t ∈ (past ++ [Event.tick clock draw]).flatMap Event.readings,
      Underway config ids (.expecting t) (past ++ [.tick clock draw]) room' := by
  rcases h.step hstep with hend | h'
  · exact Or.inl hend
  rcases h'.reached with hs' | ⟨hs', -, -⟩
  · exact Or.inr (h'.expecting hs')
  · rcases h.reached with hs | ⟨hs, hc, hat⟩
    · exact (h.step_not_started hs hstep).imp_right (absurd hs')
    · exact absurd hs' (tick_not_started h.wellFormed hs hc hat (h.config_eq ▸ hd) hstep)

/-- A tick after the waits ends the round. -/
theorem ends (h : Underway config ids (.expecting t) past room)
    (hnone : config.noInputTimeout ≤ getSecondsSince clock.timeout t)
    (hone : ∀ t ∈ past.flatMap Event.presses,
      config.onePlayerInputOnlyTimeout ≤ getSecondsSince clock.onePlayerPlayed t)
    (hstep : room.step (.tick clock draw) = .ok (room', calls)) : Ends ids calls := by
  rcases h.step hstep with hend | h'
  · exact hend
  · obtain ⟨hs, hat⟩ := h.reached
    have hone' : ∀ a p t, room.players.get a = some p → p.inputPressedAtServerTime = some t →
        room.config.onePlayerInputOnlyTimeout ≤ getSecondsSince clock.onePlayerPlayed t := by
      intro a p t hp ht
      rw [h.config_eq]
      exact hone t (h.stamped.pressed a p t hp ht)
    have hover := tick_over h.wellFormed hs hat (h.config_eq ▸ hnone) hone' hstep
    cases hover.symm.trans h'.reached.1

end Underway

/-- At `now` as many seconds have passed since each of the readings. -/
def Late (seconds : Int) (readings : List ChronoTimePoint) (now : ChronoTimePoint) : Prop :=
  ∀ t ∈ readings, seconds ≤ getSecondsSince now t

instance decidableLate (seconds : Int) (readings : List ChronoTimePoint) (now : ChronoTimePoint) :
    Decidable (Late seconds readings now) :=
  List.decidableBAll (fun t => seconds ≤ getSecondsSince now t) readings

/-- Take a round both of whose players can play, and whatever happens from then on.  If a tick is
followed by one after the delay, and that one by a tick after the wait for any input and after
the wait for the other input since every press, then the round ends: one result is published to
both players, unless a player leaves first. -/
theorem round_ends {config : RoomConfig} {before events₁ events₂ events₃ : List Event}
    {room room' : Room} {calls₀ calls : List BrokerCall} {clock₁ clock₂ clock₃ : Readings}
    {draw₁ draw₂ draw₃ : Nat} (hbefore : run step (new config) before = .ok (room, calls₀))
    (hcan : room.Reached .canPlay)
    (hdelay : Late config.secondsBeforeInputRequest
      ((before ++ events₁ ++ [Event.tick clock₁ draw₁]).flatMap Event.readings)
      clock₂.beforeInputRequest)
    (hnone : Late config.noInputTimeout
      ((before ++ events₁ ++ [Event.tick clock₁ draw₁] ++ events₂ ++
        [Event.tick clock₂ draw₂]).flatMap Event.readings) clock₃.timeout)
    (hone : Late config.onePlayerInputOnlyTimeout
      ((before ++ events₁ ++ [Event.tick clock₁ draw₁] ++ events₂ ++ [Event.tick clock₂ draw₂] ++
        events₃).flatMap Event.presses) clock₃.onePlayerPlayed)
    (hrun : run step room ((events₁ ++ [.tick clock₁ draw₁]) ++ (events₂ ++ [.tick clock₂ draw₂]) ++
      (events₃ ++ [.tick clock₃ draw₃])) = .ok (room', calls)) :
    room.recipients.length = 2 ∧ Ends room.recipients calls := by
  refine ⟨full_iff_recipients.1 ((run_wellFormed hbefore).full hcan.ne_waitingPlayers), ?_⟩
  have hE := lasting_ends room.recipients
  obtain ⟨room₂, _, calls₃, h₁₂, h₃, rfl⟩ := run_append_eq_ok.1 hrun
  obtain ⟨room₁, calls₁, calls₂, h₁, h₂, rfl⟩ := run_append_eq_ok.1 h₁₂
  have hstart : Underway config room.recipients .canPlay before room := ⟨⟨_, hbefore⟩, rfl, hcan⟩
  rcases hstart.until_tick (fun h => h.delay) h₁ with hend | ⟨t₁, ht₁, hdelayed⟩
  · exact hE.after _ _ (hE.after _ _ hend)
  rcases hdelayed.until_tick (fun h => h.request (hdelay t₁ ht₁)) h₂
    with hend | ⟨t₂, ht₂, hexpecting⟩
  · exact hE.after _ _ (hE.before _ _ hend)
  have hlast := hexpecting.until_tick (Q := False)
    (fun h hstep => Or.inl (h.ends (hnone t₂ ht₂) hone hstep)) h₃
  exact hE.before _ _ (hlast.resolve_right id)

def bothCanPlay : List Event :=
  [.addPlayer 1 [], .addPlayer 2 [], .handlePlayerMessage 1 (.setReadyState true) 0,
    .handlePlayerMessage 2 (.setReadyState true) 0, .tick (.const 1000000000) 0,
    .handlePlayerMessage 1 .notifyCanPlay 0, .handlePlayerMessage 2 .notifyCanPlay 0]

/-- The input is requested at 7 s.  Player 1 presses at 8 s, and twelve seconds in no one waits
any more. -/
theorem round_ends_winAlone : ∃ room calls₀ room' calls,
    run step (new ⟨.easy, 5, 5, 1⟩) bothCanPlay = .ok (room, calls₀) ∧
      run step room [.tick (.const 2000000000) 0, .tick (.const 7000000000) 0,
        .handlePlayerMessage 1 (.playerInput .south 1000) 8000000000,
        .tick (.const 12000000000) 0] = .ok (room', calls) ∧ Ends room.recipients calls := by
  refine ⟨_, _, _, _, rfl, rfl, ?_⟩
  exact (@round_ends ⟨.easy, 5, 5, 1⟩ bothCanPlay [] []
    [.handlePlayerMessage 1 (.playerInput .south 1000) 8000000000] _ _ _ _ (.const 2000000000)
    (.const 7000000000) (.const 12000000000) 0 0 0 rfl (Or.inr ⟨rfl, rfl⟩) (by decide) (by decide)
    (by decide) rfl).2

end Room
end SamuraiKirby
