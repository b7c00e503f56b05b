/-
Rooms that nothing tells apart.

Two rooms are `Alike` when they agree on everything but fields that no handler
reads before writing them: the server time of an input that is not there and,
unless `replay` holds, the wishes to replay.  Alike rooms take every step alike
and publish the same (`step_lockstep`).

The first use is the replay.  `resetToReplay` keeps the server time of the last
input, and `replay_leaves_no_residue` says that nobody can notice.
-/
import SamuraiKirby.Room.Happening
import SamuraiKirby.Room.Verdict
import SamuraiKirby.Transition.Lockstep

namespace SamuraiKirby

structure Player.Alike (replay : Prop) (p q : Player) : Prop where
  id : q.id = p.id
  nickname : q.nickname = p.nickname
  assignment : q.assignment = p.assignment
  isReady : q.isReady = p.isReady
  canPlay : q.canPlay = p.canPlay
  isReadyToReplay : replay → q.isReadyToReplay = p.isReadyToReplay
  inputPressed : q.inputPressed = p.inputPressed
  timeToPress : q.timeToPress = p.timeToPress
  handled : p.inputPressed.isSome → q.inputPressedAtServerTime = p.inputPressedAtServerTime

theorem Player.Alike.refl (replay : Prop) (p : Player) : p.Alike replay p :=
  ⟨rfl, rfl, rfl, rfl, rfl, fun _ => rfl, rfl, rfl, fun _ => rfl⟩

theorem Player.Alike.resetToReplay {replay : Prop} {p q : Player} (h : p.Alike replay q) :
    p.resetToReplay.Alike replay q.resetToReplay :=
  ⟨h.id, h.nickname, h.assignment, rfl, rfl, fun _ => rfl, rfl, rfl, nofun⟩

/-- A ready player about whom nothing else is recorded. -/
def Player.atStart (p : Player) : Player :=
  { id := p.id, nickname := p.nickname, assignment := p.assignment, isReady := true }

theorem Player.alike_atStart (replay : Prop) (p : Player) : p.resetToReplay.Alike replay p.atStart :=
  ⟨rfl, rfl, rfl, rfl, rfl, fun _ => rfl, rfl, rfl, nofun⟩

theorem rel_cases {α β : Type} {r : α → β → Prop} {o : Option α} {o' : Option β}
    (h : Option.Rel r o o') :
    (o = none ∧ o' = none) ∨ ∃ a b, o = some a ∧ o' = some b ∧ r a b := by
  cases h with
  | none => exact Or.inl ⟨rfl, rfl⟩
  | some h => exact Or.inr ⟨_, _, rfl, rfl, h⟩

namespace Room

open Transition

structure Alike (replay : Prop) (room room' : Room) : Prop where
  rest : room' = { room with players := room'.players }
  players : ∀ a, Option.Rel (Player.Alike replay) (room.players.get a) (room'.players.get a)

variable {replay : Prop} {clock : Readings} {draw : Nat} {room room' : Room} {p q : Player}

/-! ## What alike rooms agree on -/

section Agreement

variable (h : Alike replay room room')
include h

theorem Alike.config : room'.config = room.config := by
  rw [h.rest]

theorem Alike.gameplayState : room'.gameplayState = room.gameplayState := by
  rw [h.rest]

theorem Alike.expectedInput : room'.expectedInput = room.expectedInput := by
  rw [h.rest]

theorem Alike.everyoneCanPlayAt : room'.everyoneCanPlayAt = room.everyoneCanPlayAt := by
  rw [h.rest]

theorem Alike.bothPlayers {test : Player → Bool}
    (htest : ∀ p q, Player.Alike replay p q → test q = test p) :
    room'.bothPlayers test = room.bothPlayers test := by
  unfold Room.bothPlayers
  rcases rel_cases (h.players .P1) with ⟨h1, h1'⟩ | ⟨p1, q1, h1, h1', hp1⟩ <;>
    rcases rel_cases (h.players .P2) with ⟨h2, h2'⟩ | ⟨p2, q2, h2, h2', hp2⟩ <;>
    simp only [Players.get] at h1 h1' h2 h2' <;> simp only [h1, h1', h2, h2']
  rw [htest p1 q1 hp1, htest p2 q2 hp2]

theorem Alike.isEveryoneReady : room'.isEveryoneReady = room.isEveryoneReady :=
  h.bothPlayers fun _ _ hp => hp.isReady

theorem Alike.everyoneCanPlay : room'.everyoneCanPlay = room.everyoneCanPlay :=
  h.bothPlayers fun _ _ hp => hp.canPlay

theorem Alike.everyonePlayed : room'.everyonePlayed = room.everyonePlayed :=
  h.bothPlayers fun _ _ hp => by rw [hp.inputPressed]

theorem Alike.noOnePlayed : room'.noOnePlayed = room.noOnePlayed :=
  h.bothPlayers fun _ _ hp => by rw [hp.inputPressed]

theorem Alike.everyoneWantsToReplay (hreplay : replay) :
    room'.everyoneWantsToReplay = room.everyoneWantsToReplay :=
  h.bothPlayers fun _ _ hp => hp.isReadyToReplay hreplay

/-- A field on which alike players agree, read off a slot. -/
theorem Alike.map_get {β : Type} (field : Player → β)
    (hfield : ∀ p q, Player.Alike replay p q → field q = field p) (a : PlayerAssignment) :
    (room'.players.get a).map field = (room.players.get a).map field := by
  rcases rel_cases (h.players a) with ⟨ha, ha'⟩ | ⟨p, q, ha, ha', hp⟩
  · rw [ha, ha']
  · rw [ha, ha', Option.map_some, Option.map_some, hfield p q hp]

theorem Alike.recipients : room'.recipients = room.recipients := by
  have h1 := h.map_get (·.id) (fun _ _ hp => hp.id) .P1
  have h2 := h.map_get (·.id) (fun _ _ hp => hp.id) .P2
  simp only [Players.get] at h1 h2
  simp only [Room.recipients, List.map_append, ← Option.toList_map, h1, h2]

theorem Alike.broadcastGameplayMessage (m : GameplayMessage) :
    room'.broadcastGameplayMessage m = room.broadcastGameplayMessage m := by
  rw [broadcastGameplayMessage_eq, broadcastGameplayMessage_eq, h.recipients]

theorem Alike.buildGameResultDTO (w : Option PlayerAssignment) :
    room'.buildGameResultDTO w = room.buildGameResultDTO w := by
  unfold Room.buildGameResultDTO
  have hdto : ∀ p q, Player.Alike replay p q → q.buildGameoverDTO = p.buildGameoverDTO := by
    intro p q hp
    simp only [Player.buildGameoverDTO, hp.assignment, hp.inputPressed, hp.timeToPress]
  rcases rel_cases (h.players .P1) with ⟨h1, h1'⟩ | ⟨p1, q1, h1, h1', hp1⟩ <;>
    rcases rel_cases (h.players .P2) with ⟨h2, h2'⟩ | ⟨p2, q2, h2, h2', hp2⟩ <;>
    simp only [Players.get] at h1 h1' h2 h2' <;> simp only [h1, h1', h2, h2', value_some,
      value_none, ok_bind, error_bind]
  rw [hdto p1 q1 hp1, hdto p2 q2 hp2]

end Agreement

/-! ## Writing to alike rooms -/

theorem Alike.withPlayers (h : Alike replay room room') {ps ps' : Players}
    (hps : ∀ a, Option.Rel (Player.Alike replay) (ps.get a) (ps'.get a)) :
    Alike replay { room with players := ps } { room' with players := ps' } where
  rest := by rw [h.rest]
  players := hps

theorem Alike.withState (h : Alike replay room room') (s : GameplayState) :
    Alike replay { room with gameplayState := s } { room' with gameplayState := s } where
  rest := by rw [h.rest]
  players := h.players

theorem rel_map {f f' : Player → Player}
    (hf : ∀ p q, Player.Alike replay p q → Player.Alike replay (f p) (f' q))
    {o o' : Option Player} (h : Option.Rel (Player.Alike replay) o o') :
    Option.Rel (Player.Alike replay) (o.map f) (o'.map f') := by
  cases h with
  | none => exact .none
  | some h => exact .some (hf _ _ h)

theorem rel_set {ps ps' : Players}
    (hps : ∀ a, Option.Rel (Player.Alike replay) (ps.get a) (ps'.get a)) (slot : PlayerAssignment)
    {o o' : Option Player} (h : Option.Rel (Player.Alike replay) o o') (a : PlayerAssignment) :
    Option.Rel (Player.Alike replay) ((ps.set slot o).get a) ((ps'.set slot o').get a) := by
  by_cases ha : a = slot
  · subst ha
    rwa [Players.get_set_self, Players.get_set_self]
  · rw [Players.get_set_of_ne _ ha, Players.get_set_of_ne _ ha]
    exact hps a

theorem Alike.modifyPlayer (h : Alike replay room room') (slot : PlayerAssignment)
    {f : Player → Player}
    (hf : ∀ p q, Player.Alike replay p q → Player.Alike replay (f p) (f q)) :
    Alike replay (room.modifyPlayer slot f) (room'.modifyPlayer slot f) :=
  h.withPlayers (rel_set h.players slot (rel_map hf (h.players slot)))

theorem Alike.occupy (h : Alike replay room room') (slot : PlayerAssignment) (id : PlayerId)
    (nickname : Bytes) :
    Alike replay (room.occupy slot id nickname) (room'.occupy slot id nickname) :=
  h.withPlayers (rel_set h.players slot (.some (.refl replay _)))

theorem Alike.vacate (h : Alike replay room room') (slot : PlayerAssignment) :
    Alike replay (room.vacate slot) (room'.vacate slot) where
  rest := by rw [Room.vacate, Room.vacate, h.config]
  players := by
    refine rel_set (fun a => ?_) slot .none
    rw [Players.get_map, Players.get_map]
    exact rel_map (fun _ _ hp => hp.resetToReplay) (h.players a)

/-! ## Ticks of alike rooms -/

/-- `.value()` of two optionals that are filled alike. -/
theorem lockstep_value {α : Type} {r : α → α → Prop} {o o' : Option α}
    {f f' : α → Except BadOptionalAccess (Room × List BrokerCall)} (h : Option.Rel r o o')
    (hf : ∀ a b, o = some a → o' = some b → r a b → Lockstep (Alike replay) (f a) (f' b)) :
    Lockstep (Alike replay) (value o >>= f) (value o' >>= f') := by
  cases h with
  | none => exact .error _
  | some h => exact hf _ _ rfl rfl h

theorem Alike.lockstep_broadcast (h : Alike replay room room') (m : GameplayMessage) :
    Lockstep (Alike replay)
      (.ok (room, room.broadcastGameplayMessage m) : Except BadOptionalAccess _)
      (.ok (room', room'.broadcastGameplayMessage m)) := by
  rw [h.broadcastGameplayMessage]
  exact .ok _ h

/-- What a game over publishes about the two players. -/
theorem Alike.lockstep_result (h : Alike replay room room') (w : Option PlayerAssignment)
    (message : GameResultDTO → GameplayMessage) :
    Lockstep (Alike replay)
      (room.buildGameResultDTO w >>= fun result =>
        pure (room, room.broadcastGameplayMessage (message result)))
      (room'.buildGameResultDTO w >>= fun result =>
        pure (room', room'.broadcastGameplayMessage (message result))) := by
  rw [h.buildGameResultDTO]
  exact .bind _ fun result => h.lockstep_broadcast (message result)

theorem handleEveryoneReady_lockstep (h : Alike replay room room') :
    Lockstep (Alike replay) room.handleEveryoneReady room'.handleEveryoneReady := by
  unfold handleEveryoneReady
  exact .ite (by rw [h.gameplayState, h.isEveryoneReady]) (fun _ => .ok _ h)
    fun _ => (h.withState .started).lockstep_broadcast .allReadyGameStarting

theorem handleEveryoneCanPlay_lockstep (h : Alike replay room room') :
    Lockstep (Alike replay) (room.handleEveryoneCanPlay clock draw)
      (room'.handleEveryoneCanPlay clock draw) := by
  unfold handleEveryoneCanPlay
  refine .ite (by rw [h.gameplayState, h.everyoneCanPlay]) (fun _ => .ok _ h) fun _ => ?_
  have hstamped : Alike replay
      (if room.everyoneCanPlayAt.isNone then
        { room with everyoneCanPlayAt := some clock.everyoneCanPlay } else room)
      (if room'.everyoneCanPlayAt.isNone then
        { room' with everyoneCanPlayAt := some clock.everyoneCanPlay } else room') := by
    rw [h.everyoneCanPlayAt]
    split
    · exact ⟨by rw [h.rest], h.players⟩
    · exact h
  revert hstamped
  generalize (if room.everyoneCanPlayAt.isNone then
    { room with everyoneCanPlayAt := some clock.everyoneCanPlay } else room) = r
  generalize (if room'.everyoneCanPlayAt.isNone then
    { room' with everyoneCanPlayAt := some clock.everyoneCanPlay } else room') = r'
  intro h
  obtain ⟨ps, rfl⟩ : ∃ ps, r' = { r with players := ps } := ⟨_, h.rest⟩
  refine .bind _ fun reference => .ite Iff.rfl (fun _ => ?_) fun _ => .ok _ h
  have hexpecting : Alike replay
      { r with
        gameplayState := .expectingInput
        readyForInputAt := some clock.readyForInput
        expectedInput := r.getRandomGameplayInput draw }
      { r with
        gameplayState := .expectingInput
        readyForInputAt := some clock.readyForInput
        expectedInput := r.getRandomGameplayInput draw
        players := ps } := ⟨rfl, h.players⟩
  exact hexpecting.lockstep_broadcast (.gameExpectingInput (r.getRandomGameplayInput draw))

theorem handleOnePlayerPlayed_lockstep (h : Alike replay room room') :
    Lockstep (Alike replay) (room.handleOnePlayerPlayed clock)
      (room'.handleOnePlayerPlayed clock) := by
  have hover := h.withState .over
  unfold handleOnePlayerPlayed
  refine .ite (by rw [h.gameplayState]) (fun _ => .ok _ h) fun _ => ?_
  refine .ite (by rw [h.everyonePlayed, h.noOnePlayed]) (fun _ => .ok _ h) fun _ => ?_
  refine lockstep_value (h.players .P1) fun p1 q1 _ _ hp1 => ?_
  rw [hp1.inputPressed]
  generalize (if p1.inputPressed.isSome = true then PlayerAssignment.P1 else .P2) = whoPlayed
  refine .ite (by rw [h.gameplayState]) (fun _ => hover.lockstep_result _ _) fun _ => ?_
  refine lockstep_value (h.players whoPlayed) fun p q _ _ hp => ?_
  rw [hp.inputPressed]
  cases hpressed : p.inputPressed with
  | none => exact .error _
  | some inputPressed =>
    refine .ite (by rw [h.expectedInput]) (fun _ => hover.lockstep_result _ _) fun _ => ?_
    rw [hp.handled (by rw [hpressed]; rfl)]
    refine .bind _ fun pressedAt => ?_
    refine .ite (by rw [h.config]) (fun _ => hover.lockstep_result _ _) fun _ => .ok _ h

/-- A player of a room in which everyone has pressed has pressed. -/
theorem isSome_of_everyonePlayed (he : room.everyonePlayed = true) {a : PlayerAssignment}
    (hp : room.players.get a = some p) : p.inputPressed.isSome = true :=
  of_bothPlayers he hp

theorem handleEveryonePlayed_lockstep (h : Alike replay room room') :
    Lockstep (Alike replay) room.handleEveryonePlayed room'.handleEveryonePlayed := by
  have hover := h.withState .over
  unfold handleEveryonePlayed
  refine .ite (by rw [h.gameplayState]) (fun _ => .ok _ h) fun _ => ?_
  refine .ite (by rw [h.everyonePlayed]) (fun _ => .ok _ h) fun he => ?_
  have hplayed : room.everyonePlayed = true := by simpa using he
  refine lockstep_value (h.players .P1) fun p1 q1 h1 _ hp1 => ?_
  rw [hp1.handled (isSome_of_everyonePlayed (a := .P1) hplayed h1)]
  refine .bind _ fun p1PressedAt => ?_
  refine lockstep_value (h.players .P2) fun p2 q2 h2 _ hp2 => ?_
  rw [hp2.handled (isSome_of_everyonePlayed (a := .P2) hplayed h2)]
  refine .bind _ fun p2PressedAt => ?_
  refine .ite Iff.rfl (fun _ => hover.lockstep_result _ _) fun _ => ?_
  exact .ite Iff.rfl (fun _ => hover.lockstep_result _ _) fun _ => hover.lockstep_result _ _

theorem handleTimeout_lockstep (h : Alike replay room room') :
    Lockstep (Alike replay) (room.handleTimeout clock) (room'.handleTimeout clock) := by
  obtain ⟨ps, rfl⟩ : ∃ ps, room' = { room with players := ps } := ⟨_, h.rest⟩
  unfold handleTimeout
  refine .ite Iff.rfl (fun _ => .ok _ h) fun _ => ?_
  refine .ite (by rw [h.noOnePlayed]) (fun _ => .ok _ h) fun _ => ?_
  refine .bind _ fun reference => ?_
  exact .ite Iff.rfl (fun _ => (h.withState .over).lockstep_result none .gameOverDraw)
    fun _ => .ok _ h

theorem handleReplay_lockstep (h : Alike replay room room') (hreplay : replay) :
    Lockstep (Alike replay) room.handleReplay room'.handleReplay := by
  unfold handleReplay
  refine .ite (by rw [h.gameplayState, h.everyoneWantsToReplay hreplay]) (fun _ => .ok _ h)
    fun _ => ?_
  refine lockstep_value (h.players .P1) fun p1 q1 _ _ hp1 => ?_
  refine lockstep_value (h.players .P2) fun p2 q2 _ _ hp2 => ?_
  have hreplayed : Alike replay
      { room with
        gameplayState := .started
        players := ⟨some p1.resetToReplay, some p2.resetToReplay⟩
        expectedInput := .north
        everyoneCanPlayAt := none
        readyForInputAt := none }
      { room' with
        gameplayState := .started
        players := ⟨some q1.resetToReplay, some q2.resetToReplay⟩
        expectedInput := .north
        everyoneCanPlayAt := none
        readyForInputAt := none } := by
    refine ⟨by rw [h.rest], fun a => ?_⟩
    cases a with
    | P1 => exact .some hp1.resetToReplay
    | P2 => exact .some hp2.resetToReplay
  exact hreplayed.lockstep_broadcast .allReplayReadyGameStarting

/-- Handlers treat alike rooms alike.  The wishes to replay matter to one of them. -/
theorem Handler.call_lockstep (h : Alike replay room room') {handler : Handler}
    (hreplay : handler = .handleReplay → replay) :
    Lockstep (Alike replay) (handler.call clock draw room) (handler.call clock draw room') := by
  cases handler with
  | handleEveryoneReady => exact handleEveryoneReady_lockstep h
  | handleEveryoneCanPlay => exact handleEveryoneCanPlay_lockstep h
  | handleOnePlayerPlayed => exact handleOnePlayerPlayed_lockstep h
  | handleEveryonePlayed => exact handleEveryonePlayed_lockstep h
  | handleTimeout => exact handleTimeout_lockstep h
  | handleReplay => exact handleReplay_lockstep h (hreplay rfl)

theorem tick_lockstep (h : Alike replay room room')
    (hreplay : room.gameplayState = .over → replay) :
    Lockstep (Alike replay) (room.tick clock draw) (room'.tick clock draw) := by
  have hcall : ∀ s t handler, handler ∈ tickHandlers room.gameplayState → Alike replay s t →
      Lockstep (Alike replay) (Handler.call clock draw s handler)
        (Handler.call clock draw t handler) := by
    intro s t handler hmem hst
    refine Handler.call_lockstep hst fun heq => hreplay ?_
    subst heq
    cases hs : room.gameplayState <;> rw [hs] at hmem <;> simp [tickHandlers] at hmem
  unfold tick
  rw [h.gameplayState]
  exact Lockstep.run hcall h

/-! ## The other events of alike rooms -/

theorem Alike.getAvailableAssignment (h : Alike replay room room') :
    room'.getAvailableAssignment = room.getAvailableAssignment := by
  have hnone : ∀ a, (room'.players.get a).isNone = (room.players.get a).isNone := by
    intro a
    rcases rel_cases (h.players a) with ⟨ha, ha'⟩ | ⟨p, q, ha, ha', -⟩
    · rw [ha, ha']
    · rw [ha, ha']
      rfl
  have h1 := hnone .P1
  have h2 := hnone .P2
  simp only [Players.get] at h1 h2
  unfold Room.getAvailableAssignment
  rw [h1, h2]

theorem Alike.getPlayerById (h : Alike replay room room') (id : PlayerId) :
    Option.Rel (fun found found' => found'.1 = found.1 ∧ found.2.Alike replay found'.2)
      (room.getPlayerById id) (room'.getPlayerById id) := by
  have hfilter : ∀ a, Option.Rel (Player.Alike replay)
      ((room.players.get a).filter (·.id = id)) ((room'.players.get a).filter (·.id = id)) := by
    intro a
    rcases rel_cases (h.players a) with ⟨ha, ha'⟩ | ⟨p, q, ha, ha', hp⟩
    · rw [ha, ha']
      exact .none
    · rw [ha, ha']
      by_cases hid : p.id = id
      · simpa [Option.filter, hid, hp.id] using hp
      · simp [Option.filter, hid, hp.id]
  unfold Room.getPlayerById
  rcases rel_cases (hfilter .P1) with ⟨h1, h1'⟩ | ⟨p, q, h1, h1', hp⟩
  · simp only [Players.get] at h1 h1'
    rw [h1, h1']
    rcases rel_cases (hfilter .P2) with ⟨h2, h2'⟩ | ⟨p, q, h2, h2', hp⟩
    · simp only [Players.get] at h2 h2'
      rw [h2, h2']
      exact .none
    · simp only [Players.get] at h2 h2'
      rw [h2, h2']
      exact .some ⟨rfl, hp⟩
  · simp only [Players.get] at h1 h1'
    rw [h1, h1']
    exact .some ⟨rfl, hp⟩

theorem Alike.happening (h : Alike replay room room') (e : Event) :
    room'.happening e = room.happening e := by
  cases e with
  | addPlayer id nickname =>
    unfold Room.happening
    rw [h.getAvailableAssignment]
  | removePlayer id =>
    unfold Room.happening
    rcases rel_cases (h.getPlayerById id) with ⟨hg, hg'⟩ | ⟨_, _, hg, hg', hslot, -⟩
    · simp only [hg, hg']
    · simp only [hg, hg', hslot]
  | handlePlayerMessage id message now =>
    unfold Room.happening
    rcases rel_cases (h.getPlayerById id) with ⟨hg, hg'⟩ | ⟨_, _, hg, hg', hslot, -⟩
    · simp only [hg, hg']
    · simp only [hg, hg', hslot]
      cases message <;> simp only [Happening.ofMessage, h.gameplayState]
  | tick clock draw => rfl

/-- What happens to alike rooms changes them alike. -/
theorem Change.lockstep {r r' : Room} {calls calls' : List BrokerCall} {what : Happening}
    (h : Alike replay room room') (hc : Change room what r calls)
    (hc' : Change room' what r' calls') : calls' = calls ∧ Alike replay r r' := by
  have hmodify : ∀ (slot : PlayerAssignment) (f : Player → Player),
      (∀ p q, p.Alike replay q → (f p).Alike replay (f q)) →
        Alike replay (room.modifyPlayer slot f) (room'.modifyPlayer slot f) :=
    fun slot f hf => h.modifyPlayer slot hf
  cases hc with
  | nothing =>
    cases hc'
    exact ⟨rfl, h⟩
  | joins slot id nickname =>
    cases hc' with
    | joins =>
      refine ⟨?_, h.occupy slot id nickname⟩
      rcases rel_cases (h.players slot.other) with ⟨ho, ho'⟩ | ⟨p, q, ho, ho', hp⟩
      · rw [ho, ho']
      · simp only [ho, ho', Option.map_some, Option.toList_some, List.map_cons, List.map_nil,
          Player.buildLobbyDTO, hp.id, hp.nickname, hp.assignment, hp.isReady]
  | leaves slot p hp =>
    cases hc' with
    | leaves _ q hq =>
      have hid : q.id = p.id := by
        simpa [hp, hq] using h.map_get (·.id) (fun _ _ hp => hp.id) slot
      rw [hid, (h.vacate slot).broadcastGameplayMessage]
      exact ⟨rfl, h.vacate slot⟩
  | setsReady slot p isReady =>
    cases hc' with
    | setsReady =>
      have hr := hmodify slot (fun p => { p with isReady := isReady })
        fun p q hp => { hp with isReady := rfl }
      exact ⟨hr.broadcastGameplayMessage _, hr⟩
  | canPlay slot =>
    cases hc' with
    | canPlay => exact ⟨rfl, hmodify slot _ fun p q hp => { hp with canPlay := rfl }⟩
  | presses slot p inputPressed timeToPress now =>
    cases hc' with
    | presses =>
      exact ⟨rfl, hmodify slot _ fun p q hp =>
        { hp with inputPressed := rfl, timeToPress := rfl, handled := fun _ => rfl }⟩
  | setsReplayReady slot p isReadyToReplay =>
    cases hc' with
    | setsReplayReady =>
      have hr := hmodify slot (fun p => { p with isReadyToReplay := isReadyToReplay })
        fun p q hp => { hp with isReadyToReplay := fun _ => rfl }
      exact ⟨hr.broadcastGameplayMessage _, hr⟩

theorem step_lockstep (hw : WellFormed room) (hw' : WellFormed room')
    (h : Alike replay room room') (hreplay : room.gameplayState = .over → replay) (e : Event) :
    Lockstep (Alike replay) (room.step e) (room'.step e) := by
  obtain ⟨r, calls, hstep⟩ := step_ok hw e
  obtain ⟨r', calls', hstep'⟩ := step_ok hw' e
  rcases step_cases hw hstep with ⟨clock, draw, rfl, -⟩ | hc
  · exact tick_lockstep h hreplay
  rcases step_cases hw' hstep' with ⟨clock, draw, rfl, -⟩ | hc'
  · exact tick_lockstep h hreplay
  rw [h.happening] at hc'
  obtain ⟨rfl, hr⟩ := hc.lockstep h hc'
  rw [hstep, hstep']
  exact .ok _ hr

/-- Well formed rooms that agree on the wishes to replay too stay alike for ever. -/
theorem Alike.indistinguishable (hw : WellFormed room) (hw' : WellFormed room')
    (h : Alike True room room') : Indistinguishable step room room' := by
  refine indistinguishable_of_lockstep
    (R := fun r r' => WellFormed r ∧ WellFormed r' ∧ Alike True r r') ?_ ⟨hw, hw', h⟩
  rintro r r' e ⟨hr, hr', halike⟩
  exact (step_lockstep hr hr' halike (fun _ => trivial) e).inv
    (fun _ _ hstep => step_wellFormed hr hstep) (fun _ _ hstep => step_wellFormed hr' hstep)

/-! ## The replay -/

/-- A round of these players that has just started. -/
def atStart (room : Room) : Room :=
  { config := room.config
    gameplayState := .started
    players := room.players.map Player.atStart }

theorem wellFormed_atStart {p1 p2 : Player} (h : WellFormed room)
    (hp : room.players = ⟨some p1, some p2⟩) : WellFormed room.atStart where
  slot a p ha := by
    obtain ⟨q, hq, rfl⟩ := of_get_map ha
    exact h.slot a q hq
  paired a p ha := by
    obtain ⟨q, -, rfl⟩ := of_get_map ha
    exact ⟨rfl, nofun⟩
  full _ := ⟨p1.atStart, p2.atStart, by rw [atStart, hp]; rfl⟩
  readyForInput := nofun

/-- When a replay starts, the room it leaves behaves for ever as one whose round has just
started. -/
theorem replay_leaves_no_residue {config : RoomConfig} {events : List Event}
    {calls : List BrokerCall} (hrun : run step (new config) events = .ok (room, calls))
    (hs : room.gameplayState = .over) (hwants : room.everyoneWantsToReplay = true) :
    ∃ room', room.handleReplay =
        .ok (room', room'.broadcastGameplayMessage .allReplayReadyGameStarting) ∧
      Indistinguishable step room' room.atStart := by
  have h := run_wellFormed hrun
  obtain ⟨p1, p2, hp, -, -⟩ := bothPlayers_eq_true.1 hwants
  let replayed : Room :=
    { room with
      gameplayState := .started
      players := ⟨some p1.resetToReplay, some p2.resetToReplay⟩
      expectedInput := .north
      everyoneCanPlayAt := none
      readyForInputAt := none }
  have hcall : room.handleReplay =
      .ok (replayed, replayed.broadcastGameplayMessage .allReplayReadyGameStarting) := by
    simp [handleReplay, hs, hwants, hp, broadcastGameplayMessage, replayed]
  obtain ⟨room', ms, heq, hturn⟩ := @handleReplay_turn (.const 0) 0 room
  rw [hcall] at heq
  obtain ⟨rfl, -⟩ := Prod.mk.inj (Except.ok.inj heq)
  refine ⟨replayed, hcall, Alike.indistinguishable (hturn.wellFormed h)
    (wellFormed_atStart h hp) ⟨rfl, fun a => ?_⟩⟩
  rw [atStart, hp]
  cases a with
  | P1 => exact .some (p1.alike_atStart True)
  | P2 => exact .some (p2.alike_atStart True)

/-- Player 1 has won alone with an input handled at time 2, and both ask for a replay. -/
def wonAlone : Room where
  config := quickConfig
  gameplayState := .over
  players :=
    ⟨some
      { id := 1
        nickname := []
        assignment := .P1
        isReady := true
        canPlay := true
        isReadyToReplay := true
        inputPressed := some .south
        timeToPress := some 300
        inputPressedAtServerTime := some 2 },
      some
      { id := 2
        nickname := []
        assignment := .P2
        isReady := true
        canPlay := true
        isReadyToReplay := true }⟩
  expectedInput := .south
  everyoneCanPlayAt := some 0
  readyForInputAt := some 0

theorem replay_leaves_no_residue_wonAlone :
    ∃ room', wonAlone.handleReplay =
        .ok (room', room'.broadcastGameplayMessage .allReplayReadyGameStarting) ∧
      Indistinguishable step room' wonAlone.atStart :=
  @replay_leaves_no_residue wonAlone quickConfig
    (toExpectingInput ++ [.handlePlayerMessage 1 (.playerInput .south 300) 2, .tick (.const 2) 0,
      .handlePlayerMessage 1 (.setReplayReadyState true) 3,
      .handlePlayerMessage 2 (.setReplayReadyState true) 3]) _ rfl rfl rfl

end Room
end SamuraiKirby
