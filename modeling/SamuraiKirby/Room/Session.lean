/-
The session of a client.

What a client knows of its room it knows from the messages it is told.  Read one
by one they drive an automaton: the difficulty the client asked for, the slot it
has, whether the other slot is taken and how far the round is.  `step_leads` says
that a room tells a client with one seat nothing that does not fit its session, and
that the session stays what the room is.
-/
import SamuraiKirby.Room.Happening
import SamuraiKirby.Room.Seats

namespace SamuraiKirby

/-- The buttons a room of a difficulty can ask for. -/
def GameDifficulty.inputs : GameDifficulty → List GameplayInput
  | .medium => [.south, .east]
  | .hard => [.south, .east, .west, .north]
  | _ => [.south]

inductive Session where
  | outside
  /-- The client has asked for a room. -/
  | joining (difficulty : GameDifficulty)
  | seated (difficulty : GameDifficulty) (slot : PlayerAssignment) (paired : Bool)
      (phase : GameplayState)
deriving DecidableEq, Repr

/-- What a message does to a session, and which messages fit it. -/
def telling : Transition.Monitor Session GameplayMessage where
  next session m :=
    match session, m with
    | .joining difficulty, .roomJoined slot other =>
      .seated difficulty slot other.isSome .waitingPlayers
    | .seated difficulty slot _ phase, .playerJoinedRoom _ => .seated difficulty slot true phase
    | .seated difficulty slot _ _, .playerLeftRoom _ =>
      .seated difficulty slot false .waitingPlayers
    | .seated difficulty slot paired phase, m =>
      .seated difficulty slot paired (Room.protocol.next phase m)
    | session, _ => session
  ok session m :=
    match session, m with
    | .joining _, .roomJoined slot other => ∀ player ∈ other, player.assignment = slot.other
    | .seated _ slot paired phase, .playerJoinedRoom player =>
      paired = false ∧ phase = .waitingPlayers ∧ player.assignment = slot.other ∧
        player.isReady = false
    | .seated _ slot paired _, .playerLeftRoom playerAssignment =>
      paired = true ∧ playerAssignment = slot.other
    | .seated _ slot paired phase, .playerReadyStateChanged playerAssignment _ =>
      phase = .waitingPlayers ∧ (playerAssignment = slot ∨ paired = true)
    | .seated _ slot paired _, .playerReplayReadyStateChanged playerAssignment _ =>
      playerAssignment = slot ∨ paired = true
    | .seated difficulty _ paired phase, .gameExpectingInput expectedInput =>
      paired = true ∧ phase = .started ∧ expectedInput ∈ difficulty.inputs
    | .seated _ _ paired phase, m =>
      paired = true ∧ m.isForBoth = true ∧ Room.protocol.ok phase m
    | _, _ => False

/-- The messages for a player among broker calls. -/
def BrokerCall.told? (p : PlayerId) : BrokerCall → Option GameplayMessage
  | .publishGameplayMessage q m => if q = p then some m else none
  | _ => none

def told (p : PlayerId) (calls : List BrokerCall) : List GameplayMessage :=
  calls.filterMap (BrokerCall.told? p)

theorem told_append (p : PlayerId) (calls calls' : List BrokerCall) :
    told p (calls ++ calls') = told p calls ++ told p calls' := List.filterMap_append

namespace Room

open Transition

variable {clock : Readings} {draw : Nat} {room room' : Room} {calls : List BrokerCall}
  {ms : List GameplayMessage} {p q : PlayerId} {a slot : PlayerAssignment} {player : Player}

/-- The session of a player as it follows from the room. -/
def session (room : Room) (p : PlayerId) : Session :=
  match room.getPlayerById p with
  | none => .outside
  | some (slot, _) =>
    .seated room.config.difficulty slot (room.players.get slot.other).isSome room.gameplayState

/-- The player has a slot, and only this one. -/
structure Sits (room : Room) (p : PlayerId) (a : PlayerAssignment) (player : Player) : Prop where
  get : room.players.get a = some player
  id : player.id = p
  alone : ∀ other, room.players.get a.other = some other → other.id ≠ p

theorem session_of_seats_eq_zero (h : room.seats p = 0) : room.session p = .outside := by
  rw [session, getPlayerById_eq_none_iff_seats.2 h]

theorem Sits.session (h : room.Sits p a player) : room.session p =
    .seated room.config.difficulty a (room.players.get a.other).isSome room.gameplayState := by
  cases hg : room.getPlayerById p with
  | none => exact absurd h.id (getPlayerById_eq_none_iff.1 hg a player h.get)
  | some found =>
    obtain ⟨slot, player'⟩ := found
    obtain ⟨hget, hid⟩ := getPlayerById_eq_some hg
    rcases a.eq_or_eq_other slot with rfl | rfl
    · rw [Room.session, hg]
    · exact absurd hid (h.alone player' hget)

/-! ## One seat -/

theorem seats_eq_get (room : Room) (p : PlayerId) (a : PlayerAssignment) :
    room.seats p = ((room.players.get a).toList.map (·.id)).count p +
      ((room.players.get a.other).toList.map (·.id)).count p := by
  rw [seats_eq]
  cases a with
  | P1 => rfl
  | P2 => exact Nat.add_comm _ _

theorem count_toList (player? : Option Player) (p : PlayerId) :
    (player?.toList.map (·.id)).count p = if player?.any (·.id = p) then 1 else 0 := by
  cases player? with
  | none => rfl
  | some player => by_cases h : player.id = p <;> simp [h]

theorem Sits.seats (h : room.Sits p a player) : room.seats p = 1 := by
  rw [seats_eq_get room p a, count_toList, count_toList, h.get]
  have hother : (room.players.get a.other).any (·.id = p) = false := by
    cases hget : room.players.get a.other with
    | none => rfl
    | some other => simpa using h.alone other hget
  simp [h.id, hother]

theorem exists_sits (h : room.seats p = 1) : ∃ a player, room.Sits p a player := by
  have hseat : 0 < room.seats p := by omega
  obtain ⟨a, player, hget, hid⟩ := mem_recipients_iff.1 (seats_pos_iff.1 hseat)
  refine ⟨a, player, hget, hid, fun other hother hself => ?_⟩
  rw [seats_eq_get room p a, count_toList, count_toList, hget, hother] at h
  simp [hid, hself] at h

theorem Sits.unique (h : room.Sits p a player) {other : Player}
    (hget : room.players.get slot = some other) (hid : other.id = p) : slot = a := by
  rcases a.eq_or_eq_other slot with rfl | rfl
  · rfl
  · exact absurd hid (h.alone other hget)

/-! ## What a broadcast tells -/

theorem told_broadcast (room : Room) (m : GameplayMessage) (p : PlayerId) :
    told p (room.broadcastGameplayMessage m) = List.replicate (room.seats p) m := by
  rw [broadcastGameplayMessage_eq, told, List.filterMap_map, Room.seats]
  induction room.recipients with
  | nil => rfl
  | cons q ids ih =>
    rw [List.filterMap_cons, List.count_cons]
    by_cases hq : q = p
    · simp [BrokerCall.told?, hq, ih, List.replicate_succ]
    · simp [BrokerCall.told?, hq, ih]

theorem told_broadcastAll (h : room.seats p = 1) (ms : List GameplayMessage) :
    told p (room.broadcastAll ms) = ms := by
  induction ms with
  | nil => rfl
  | cons m ms ih =>
    rw [broadcastAll, List.flatMap_cons, told_append, told_broadcast, h]
    exact congrArg (m :: ·) ih

theorem told_broadcastAll_of_absent (h : room.seats p = 0) (ms : List GameplayMessage) :
    told p (room.broadcastAll ms) = [] := by
  induction ms with
  | nil => rfl
  | cons m ms ih =>
    rw [broadcastAll, List.flatMap_cons, told_append, told_broadcast, h]
    exact ih

/-! ## Ticks -/

/-- Messages for both players lead a session where they lead the round. -/
theorem telling_isForBoth {difficulty : GameDifficulty} {phase : GameplayState}
    (hboth : ∀ m ∈ ms, m.isForBoth = true)
    (hasked : ∀ i, .gameExpectingInput i ∈ ms → i ∈ difficulty.inputs)
    (h : protocol.Accepts phase ms) :
    telling.Accepts (.seated difficulty a true phase) ms ∧
      telling.after (.seated difficulty a true phase) ms =
        .seated difficulty a true (protocol.after phase ms) := by
  induction ms generalizing phase with
  | nil => exact ⟨trivial, rfl⟩
  | cons m ms ih =>
    have hm := hboth m (List.mem_cons_self ..)
    have hnext : telling.next (.seated difficulty a true phase) m =
        .seated difficulty a true (protocol.next phase m) := by
      cases m <;> first | rfl | cases hm
    have hok : telling.ok (.seated difficulty a true phase) m := by
      cases m with
      | gameExpectingInput i => exact ⟨rfl, h.1, hasked i (List.mem_cons_self ..)⟩
      | _ => first | exact ⟨rfl, hm, h.1⟩ | cases hm
    obtain ⟨haccepts, hafter⟩ := ih (fun m' hm' => hboth m' (List.mem_cons_of_mem _ hm'))
      (fun i hi => hasked i (List.mem_cons_of_mem _ hi)) h.2
    rw [Monitor.accepts_cons, Monitor.after_cons, hnext]
    exact ⟨⟨hok, haccepts⟩, hafter⟩

theorem getRandomGameplayInput_mem (room : Room) (draw : Nat) :
    room.getRandomGameplayInput draw ∈ room.config.difficulty.inputs := by
  have hmedium : ∀ k : Fin 4, k.1 ≤ 1 →
      (#v[.south, .east, .west, .north] : Vector GameplayInput 4).get k ∈
        GameDifficulty.medium.inputs := by decide
  have hhard : ∀ k : Fin 4,
      (#v[.south, .east, .west, .north] : Vector GameplayInput 4).get k ∈
        GameDifficulty.hard.inputs := by decide
  unfold getRandomGameplayInput
  cases room.config.difficulty with
  | medium => exact hmedium _ (getRandomValueInRange draw 0 1 (by decide)).2.2
  | hard => exact hhard _
  | _ => exact List.mem_singleton_self _

theorem Turn.asked {handler : Handler} (ht : Turn clock draw room handler room' ms)
    {i : GameplayInput} (hi : .gameExpectingInput i ∈ ms) : i ∈ room.config.difficulty.inputs := by
  cases ht with
  | expectingInput =>
    cases List.mem_singleton.1 hi
    exact getRandomGameplayInput_mem room draw
  | _ => simp at hi

theorem TickCase.asked (ht : TickCase clock draw room room' ms) {i : GameplayInput}
    (hi : .gameExpectingInput i ∈ ms) : i ∈ room.config.difficulty.inputs := by
  cases ht with
  | turn h => exact h.asked hi
  | twoTurns first second =>
    rcases List.mem_append.1 hi with hi | hi
    · exact first.asked hi
    · rw [← first.config]
      exact second.asked hi

theorem TickCase.protocol (ht : TickCase clock draw room room' ms) :
    protocol.Accepts room.gameplayState ms ∧
      protocol.after room.gameplayState ms = room'.gameplayState := by
  cases ht with
  | turn h => exact ⟨h.protocol.1, h.protocol.2.1⟩
  | twoTurns first second =>
    rw [Monitor.accepts_append, Monitor.after_append, first.protocol.2.1]
    exact ⟨⟨first.protocol.1, second.protocol.1⟩, second.protocol.2.1⟩

theorem TickCase.config (ht : TickCase clock draw room room' ms) : room'.config = room.config := by
  cases ht with
  | turn h => exact h.config
  | twoTurns first second => rw [second.config, first.config]

/-- The ids in the slots. -/
def ids (room : Room) (a : PlayerAssignment) : Option PlayerId := (room.players.get a).map (·.id)

theorem Turn.ids {handler : Handler} (ht : Turn clock draw room handler room' ms) :
    room'.ids = room.ids := by
  funext a
  by_cases hne : handler = .handleReplay
  · cases ht with
    | idle => rfl
    | replay =>
      rw [Room.ids, Players.get_map, Option.map_map]
      rfl
    | _ => cases hne
  · rw [Room.ids, Room.ids, ht.players hne]

theorem TickCase.ids (ht : TickCase clock draw room room' ms) : room'.ids = room.ids := by
  cases ht with
  | turn h => exact h.ids
  | twoTurns first second => rw [second.ids, first.ids]

theorem ids_modifyPlayer (room : Room) (slot : PlayerAssignment) {f : Player → Player}
    (hf : ∀ p, (f p).id = p.id) : (room.modifyPlayer slot f).ids = room.ids := by
  funext a
  by_cases ha : a = slot
  · subst ha
    rw [ids, ids, modifyPlayer, Players.get_modify_self, Option.map_map]
    cases room.players.get a with
    | none => rfl
    | some p => exact congrArg some (hf p)
  · rw [ids, ids, modifyPlayer, Players.get_modify_of_ne _ ha]

theorem seats_eq_ids (room : Room) (p : PlayerId) (a : PlayerAssignment) :
    room.seats p = (if room.ids a = some p then 1 else 0) +
      if room.ids a.other = some p then 1 else 0 := by
  rw [seats_eq_get room p a, count_toList, count_toList]
  congr 1
  · cases h : room.players.get a <;> simp [ids, h]
  · cases h : room.players.get a.other <;> simp [ids, h]

theorem seats_of_ids (h : room'.ids = room.ids) (p : PlayerId) : room'.seats p = room.seats p := by
  rw [seats_eq_ids room' p .P1, seats_eq_ids room p .P1, h]

theorem Sits.ids (h : room.Sits p a player) (hids : room'.ids = room.ids) :
    ∃ player', room'.Sits p a player' := by
  have hget : room'.ids a = some p := by
    rw [hids, Room.ids, h.get, Option.map_some, h.id]
  obtain ⟨player', hplayer, hid⟩ := Option.map_eq_some_iff.1 hget
  refine ⟨player', hplayer, hid, fun other hother hself => ?_⟩
  have hget' : room.ids a.other = some p := by
    rw [← hids, Room.ids, hother, Option.map_some, hself]
  obtain ⟨other', hother', hid'⟩ := Option.map_eq_some_iff.1 hget'
  exact h.alone other' hother' hid'

/-- The session of a player after a step that moves nobody. -/
theorem Sits.session_congr (h : room.Sits p a player) (hids : room'.ids = room.ids)
    (hconfig : room'.config = room.config) : room'.session p =
      .seated room.config.difficulty a (room.players.get a.other).isSome room'.gameplayState := by
  obtain ⟨player', hsits⟩ := h.ids hids
  have hother : (room'.players.get a.other).isSome = (room.players.get a.other).isSome := by
    have hid := congrArg Option.isSome (congrFun hids a.other)
    simpa only [Room.ids, Option.isSome_map] using hid
  rw [hsits.session, hconfig, hother]

/-- The messages take the session to what the room has become. -/
structure Leads (p : PlayerId) (start : Session) (room' : Room) (calls : List BrokerCall) :
    Prop where
  accepts : telling.Accepts start (told p calls)
  after : telling.after start (told p calls) = room'.session p
  one : room'.seats p ≤ 1

/-- A player that is not in the room is told nothing. -/
theorem leads_absent (h : room'.seats p = 0) (htold : told p calls = []) :
    Leads p .outside room' calls where
  accepts := by
    rw [htold]
    trivial
  after := by
    rw [htold, session_of_seats_eq_zero h]
    rfl
  one := h ▸ Nat.zero_le 1

/-- Only a full room broadcasts at a tick. -/
theorem TickCase.full (ht : TickCase clock draw room room' ms) (hw : WellFormed room)
    (hms : ms ≠ []) : ∃ p1 p2, room.players = ⟨some p1, some p2⟩ := by
  cases ht with
  | turn h => exact h.full hw hms
  | @twoTurns room₁ room₂ ms₁ ms₂ first second =>
    by_cases hms₁ : ms₁ = []
    · rw [← first.players (by decide)]
      exact second.full (first.wellFormed hw) fun hnil => hms (by rw [hms₁, hnil]; rfl)
    · exact first.full hw hms₁

theorem tick_leads (hw : WellFormed room) (hone : room.seats p ≤ 1)
    (ht : room.tick clock draw = .ok (room', calls)) : Leads p (room.session p) room' calls := by
  obtain ⟨ms, rfl, hcase, -⟩ := tick_cases hw ht
  have hseats := seats_of_ids hcase.ids p
  rcases Nat.le_one_iff_eq_zero_or_eq_one.1 hone with hzero | hsits
  · rw [session_of_seats_eq_zero hzero]
    exact leads_absent (hseats.trans hzero)
      (told_broadcastAll_of_absent (hseats.trans hzero) ms)
  · obtain ⟨a, player, h⟩ := exists_sits hsits
    obtain ⟨haccepts, hafter⟩ := hcase.protocol
    have htelling : telling.Accepts (room.session p) ms ∧
        telling.after (room.session p) ms = room'.session p := by
      rw [h.session, h.session_congr hcase.ids hcase.config, ← hafter]
      by_cases hms : ms = []
      · rw [hms]
        exact ⟨trivial, rfl⟩
      · obtain ⟨p1, p2, hplayers⟩ := hcase.full hw hms
        have hpaired : (room.players.get a.other).isSome = true := by
          rw [hplayers]
          cases a <;> rfl
        rw [hpaired]
        exact telling_isForBoth hcase.isForBoth (fun i hi => hcase.asked hi) haccepts
    rw [← told_broadcastAll (hseats.trans hsits) ms] at htelling
    exact ⟨htelling.1, htelling.2, Nat.le_of_eq (hseats.trans hsits)⟩

/-! ## Joins, leaves and messages -/

/-- What the session of a player is before the messages, once it is known what the event means
for the player. -/
def intent (room : Room) (p : PlayerId) (session : Session) : Event → Session
  | .addPlayer q _ => if q = p then .joining room.config.difficulty else session
  | .removePlayer q | .handlePlayerMessage q .leaveGame _ =>
    if q = p ∧ 0 < room.seats p then .outside else session
  | _ => session

/-- Nothing happens to a player that is elsewhere and does not join. -/
theorem intent_of_absent (h : room.seats p = 0) {e : Event}
    (hjoin : ∀ nickname, e ≠ .addPlayer p nickname) (session : Session) :
    room.intent p session e = session := by
  have hno : ∀ q, ¬ (q = p ∧ 0 < room.seats p) := fun q hq => by omega
  cases e with
  | addPlayer q nickname =>
    refine if_neg ?_
    rintro rfl
    exact hjoin nickname rfl
  | removePlayer q => exact if_neg (hno q)
  | handlePlayerMessage q message now =>
    cases message with
    | leaveGame => exact if_neg (hno q)
    | _ => rfl
  | tick clock draw => rfl

/-- Nobody moves, and everybody is told that a player has changed its mind. -/
theorem leads_flag (hone : room.seats p ≤ 1) {f : Player → Player} (hf : ∀ p, (f p).id = p.id)
    (hget : room.players.get slot = some player) (m : GameplayMessage)
    (hnext : ∀ session, telling.next session m = session)
    (hok : ∀ a paired, (slot = a ∨ paired = true) →
      telling.ok (.seated room.config.difficulty a paired room.gameplayState) m) :
    Leads p (room.session p) (room.modifyPlayer slot f)
      ((room.modifyPlayer slot f).broadcastGameplayMessage m) := by
  have hids := ids_modifyPlayer room slot hf
  have hseats := seats_of_ids hids p
  have htold := told_broadcast (room.modifyPlayer slot f) m p
  rw [hseats] at htold
  rcases Nat.le_one_iff_eq_zero_or_eq_one.1 hone with hzero | hsits
  · rw [session_of_seats_eq_zero hzero]
    rw [hzero] at htold
    exact leads_absent (hseats.trans hzero) htold
  · obtain ⟨a, other, h⟩ := exists_sits hsits
    rw [hsits] at htold
    have hsession : (room.modifyPlayer slot f).session p = room.session p := by
      rw [@Sits.session_congr room (room.modifyPlayer slot f) p a other h hids rfl, h.session]
      rfl
    refine ⟨?_, ?_, Nat.le_of_eq (hseats.trans hsits)⟩
    · rw [htold, h.session]
      refine ⟨hok a _ ?_, trivial⟩
      rcases a.eq_or_eq_other slot with rfl | rfl
      · exact Or.inl rfl
      · rw [hget]
        exact Or.inr rfl
    · rw [htold, hsession]
      exact hnext _

/-- Nobody moves, and nobody is told. -/
theorem leads_quiet (hone : room.seats p ≤ 1) {f : Player → Player} (hf : ∀ p, (f p).id = p.id)
    (slot : PlayerAssignment) : Leads p (room.session p) (room.modifyPlayer slot f) [] := by
  have hids := ids_modifyPlayer room slot hf
  have hseats := seats_of_ids hids p
  refine ⟨trivial, ?_, hseats ▸ hone⟩
  show room.session p = _
  rcases Nat.le_one_iff_eq_zero_or_eq_one.1 hone with hzero | hsits
  · rw [session_of_seats_eq_zero hzero, session_of_seats_eq_zero (hseats.trans hzero)]
  · obtain ⟨a, other, h⟩ := exists_sits hsits
    rw [@Sits.session_congr room (room.modifyPlayer slot f) p a other h hids rfl, h.session]
    rfl

theorem ids_vacate (room : Room) (slot : PlayerAssignment) :
    (room.vacate slot).ids = Function.update room.ids slot none := by
  funext a
  by_cases ha : a = slot
  · subst ha
    rw [Function.update_self, ids, vacate, Players.get_set_self]
    rfl
  · rw [Function.update_of_ne ha, ids, ids, vacate, Players.get_set_of_ne _ ha, Players.get_map,
      Option.map_map]
    rfl

theorem ids_occupy (room : Room) (slot : PlayerAssignment) (q : PlayerId) (nickname : Bytes) :
    (room.occupy slot q nickname).ids = Function.update room.ids slot (some q) := by
  funext a
  by_cases ha : a = slot
  · subst ha
    rw [Function.update_self, ids, occupy, Players.get_set_self]
    rfl
  · rw [Function.update_of_ne ha, ids, ids, occupy, Players.get_set_of_ne _ ha]

theorem sits_of_ids (ha : room.ids a = some p) (hother : room.ids a.other ≠ some p) :
    ∃ player, room.Sits p a player := by
  obtain ⟨player, hget, hid⟩ := Option.map_eq_some_iff.1 ha
  refine ⟨player, hget, hid, fun other hget' hid' => hother ?_⟩
  rw [ids, hget', Option.map_some, hid']

theorem Sits.ids_eq (h : room.Sits p a player) :
    room.ids a = some p ∧ room.ids a.other ≠ some p := by
  refine ⟨by rw [Room.ids, h.get, Option.map_some, h.id], fun hother => ?_⟩
  obtain ⟨other, hget, hid⟩ := Option.map_eq_some_iff.1 hother
  exact h.alone other hget hid

theorem vacate_leads (hone : room.seats p ≤ 1) (hget : room.players.get slot = some player) :
    Leads p (if player.id = p then .outside else room.session p) (room.vacate slot)
      (.unsubscribeToPlayerActionMessages player.id ::
        (room.vacate slot).broadcastGameplayMessage (.playerLeftRoom slot)) := by
  have htold : told p (.unsubscribeToPlayerActionMessages player.id ::
      (room.vacate slot).broadcastGameplayMessage (.playerLeftRoom slot)) =
        List.replicate ((room.vacate slot).seats p) (.playerLeftRoom slot) :=
    told_broadcast (room.vacate slot) (.playerLeftRoom slot) p
  have hslot : room.ids slot = some player.id := by rw [ids, hget]; rfl
  have hbefore := seats_eq_ids room p slot
  have hafter := seats_eq_ids (room.vacate slot) p slot
  rw [ids_vacate, Function.update_self, Function.update_of_ne slot.other_ne] at hafter
  simp only [hslot, Option.some.injEq, reduceCtorEq, if_false, Nat.zero_add] at hbefore hafter
  by_cases hself : player.id = p
  · rw [if_pos hself] at hbefore ⊢
    have hzero : (room.vacate slot).seats p = 0 := by omega
    exact leads_absent hzero (by rw [htold, hzero]; rfl)
  · rw [if_neg hself, Nat.zero_add, ← hafter] at hbefore
    rw [if_neg hself]
    rcases Nat.le_one_iff_eq_zero_or_eq_one.1 hone with hzero | hsits
    · rw [session_of_seats_eq_zero hzero]
      rw [hbefore] at hzero
      exact leads_absent hzero (by rw [htold, hzero]; rfl)
    · obtain ⟨a, other, h⟩ := exists_sits hsits
      have hne : a ≠ slot := by
        rintro rfl
        rw [h.ids_eq.1] at hslot
        exact hself (Option.some.inj hslot).symm
      have ha : slot = a.other := (a.eq_or_eq_other slot).resolve_left hne.symm
      subst ha
      obtain ⟨player', h'⟩ := @sits_of_ids (room.vacate a.other) p a
        (by rw [ids_vacate, Function.update_of_ne hne]; exact h.ids_eq.1)
        (by rw [ids_vacate, Function.update_self]; exact nofun)
      rw [hsits] at hbefore
      rw [← hbefore] at htold
      have hnone : (room.vacate a.other).players.get a.other = none := by
        rw [vacate, Players.get_set_self]
      refine ⟨?_, ?_, Nat.le_of_eq hbefore.symm⟩
      · rw [htold, h.session, hget]
        exact ⟨⟨rfl, rfl⟩, trivial⟩
      · rw [htold, h.session, h'.session, hnone]
        rfl

theorem told_joins (q : PlayerId) (m m' : GameplayMessage) (other? : Option Player)
    (p : PlayerId) :
    told p (.publishGameplayMessage q m ::
      (other?.toList.map fun other => .publishGameplayMessage other.id m') ++
        [.subscribeToPlayerActionMessages q]) =
      (if q = p then [m] else []) ++ if other?.map (·.id) = some p then [m'] else [] := by
  cases other? with
  | none => by_cases hq : q = p <;> simp [told, BrokerCall.told?, hq]
  | some other =>
    by_cases hq : q = p <;> by_cases hother : other.id = p <;>
      simp [told, BrokerCall.told?, hq, hother]

theorem occupy_leads (hw : WellFormed room) (hone : room.seats p ≤ 1)
    (hs : room.gameplayState = .waitingPlayers) (hfree : room.players.get slot = none)
    (hjoin : q = p → room.seats p = 0) (nickname : Bytes) :
    Leads p (if q = p then .joining room.config.difficulty else room.session p)
      (room.occupy slot q nickname)
      (.publishGameplayMessage q
          (.roomJoined slot ((room.players.get slot.other).map Player.buildLobbyDTO)) ::
        ((room.players.get slot.other).toList.map fun other =>
          .publishGameplayMessage other.id (.playerJoinedRoom ⟨nickname, slot, false⟩)) ++
        [.subscribeToPlayerActionMessages q]) := by
  have htold := told_joins q
    (.roomJoined slot ((room.players.get slot.other).map Player.buildLobbyDTO))
    (.playerJoinedRoom ⟨nickname, slot, false⟩) (room.players.get slot.other) p
  have hbefore := seats_eq_ids room p slot
  have hafter := seats_eq_ids (room.occupy slot q nickname) p slot
  have hslot : room.ids slot = none := by rw [ids, hfree]; rfl
  have hget : (room.occupy slot q nickname).players.get slot.other =
      room.players.get slot.other := by
    rw [occupy, Players.get_set_of_ne _ slot.other_ne]
  rw [ids_occupy, Function.update_self, Function.update_of_ne slot.other_ne] at hafter
  simp only [hslot, Option.some.injEq, reduceCtorEq, if_false, Nat.zero_add] at hbefore hafter
  rw [← ids] at htold
  by_cases hself : q = p
  · subst hself
    rw [hjoin rfl] at hbefore
    rw [if_pos rfl, ← hbefore, Nat.add_zero] at hafter
    have hother : room.ids slot.other ≠ some q := by
      intro hother
      rw [if_pos hother] at hbefore
      cases hbefore
    obtain ⟨player', h'⟩ := @sits_of_ids (room.occupy slot q nickname) q slot
      (by rw [ids_occupy, Function.update_self])
      (by rw [ids_occupy, Function.update_of_ne slot.other_ne]; exact hother)
    rw [if_pos rfl, if_neg hother, List.append_nil] at htold
    rw [if_pos rfl]
    refine ⟨?_, ?_, Nat.le_of_eq hafter⟩
    · rw [htold]
      refine ⟨fun dto hdto => ?_, trivial⟩
      obtain ⟨other, hplayer, rfl⟩ := Option.map_eq_some_iff.1 hdto
      exact hw.slot slot.other other hplayer
    · rw [htold, h'.session, hget]
      show Session.seated _ slot _ _ = .seated _ slot _ room.gameplayState
      rw [Option.isSome_map, hs]
      rfl
  · rw [if_neg hself, Nat.zero_add, ← hbefore] at hafter
    rw [if_neg hself, List.nil_append] at htold
    rw [if_neg hself]
    rcases Nat.le_one_iff_eq_zero_or_eq_one.1 hone with hzero | hsits
    · rw [session_of_seats_eq_zero hzero]
      rw [hzero] at hbefore
      refine leads_absent (hafter.trans hzero) ?_
      rw [htold, if_neg fun hother => ?_]
      rw [if_pos hother] at hbefore
      cases hbefore
    · obtain ⟨a, player, h⟩ := exists_sits hsits
      have hne : slot ≠ a := by
        rintro rfl
        cases hfree.symm.trans h.get
      have ha : slot = a.other := (a.eq_or_eq_other slot).resolve_left hne
      subst ha
      rw [a.other_other] at htold hget
      obtain ⟨player', h'⟩ := @sits_of_ids (room.occupy a.other q nickname) p a
        (by rw [ids_occupy, Function.update_of_ne hne.symm]; exact h.ids_eq.1)
        (by rw [ids_occupy, Function.update_self]; exact fun heq => hself (Option.some.inj heq))
      have hgets : (room.occupy a.other q nickname).players.get a.other = some
          { id := q, nickname := nickname, assignment := a.other } := by
        rw [occupy, Players.get_set_self]
      rw [if_pos h.ids_eq.1] at htold
      rw [a.other_other]
      refine ⟨?_, ?_, Nat.le_of_eq (hafter.trans hsits)⟩
      · rw [htold, h.session, hfree]
        exact ⟨⟨rfl, hs, rfl, rfl⟩, trivial⟩
      · rw [htold, h.session, h'.session, hgets]
        rfl

theorem leads_nothing (hone : room.seats p ≤ 1) : Leads p (room.session p) room [] :=
  ⟨trivial, rfl, hone⟩

theorem removePlayer_leads (hw : WellFormed room) (hone : room.seats p ≤ 1) (q : PlayerId) :
    Leads p (if q = p ∧ 0 < room.seats p then .outside else room.session p)
      (room.removePlayer q).1 (room.removePlayer q).2 := by
  cases hg : room.getPlayerById q with
  | none =>
    have hno : ¬ (q = p ∧ 0 < room.seats p) := by
      rintro ⟨rfl, hseat⟩
      exact absurd (getPlayerById_eq_none_iff_seats.1 hg) (Nat.ne_of_gt hseat)
    rw [removePlayer, hg, if_neg hno]
    exact leads_nothing hone
  | some found =>
    obtain ⟨slot, player⟩ := found
    obtain ⟨hget, rfl⟩ := getPlayerById_eq_some hg
    have hseat : player.id = p → 0 < room.seats p := by
      rintro rfl
      exact seats_pos_iff.2 (mem_recipients_iff.2 ⟨slot, player, hget, rfl⟩)
    rw [if_congr (and_iff_left_of_imp hseat) rfl rfl]
    have hchange := removePlayer_change hw hg
    generalize room.removePlayer player.id = outcome at hchange ⊢
    obtain ⟨room', calls⟩ := outcome
    cases hchange with
    | leaves _ player' hget' =>
      cases hget.symm.trans hget'
      exact vacate_leads hone hget

theorem handlePlayerMessage_leads (hw : WellFormed room) (hone : room.seats p ≤ 1)
    (q : PlayerId) (message : PlayerActionMessage) (now : ChronoTimePoint) :
    Leads p (room.intent p (room.session p) (.handlePlayerMessage q message now))
      (room.handlePlayerMessage q message now).1 (room.handlePlayerMessage q message now).2 := by
  by_cases hleave : message = .leaveGame
  · subst hleave
    rw [handlePlayerMessage_leaveGame]
    exact removePlayer_leads hw hone q
  have hintent :
      room.intent p (room.session p) (.handlePlayerMessage q message now) = room.session p := by
    cases message <;> first | rfl | exact absurd rfl hleave
  have hchange := handlePlayerMessage_change hw q message now
  rw [hintent]
  generalize room.handlePlayerMessage q message now = outcome at hchange ⊢
  obtain ⟨room', calls⟩ := outcome
  cases hg : room.getPlayerById q with
  | none =>
    simp only [happening, hg] at hchange
    cases hchange
    exact leads_nothing hone
  | some found =>
    obtain ⟨slot, player⟩ := found
    simp only [happening, hg] at hchange
    cases message with
    | joinGame nickname gameDifficulty =>
      cases hchange
      exact leads_nothing hone
    | setReadyState isReady =>
      simp only [Happening.ofMessage] at hchange
      split at hchange
      · cases hchange with
        | setsReady _ player' _ hs hget =>
          exact leads_flag hone (f := fun p => { p with isReady := isReady }) (fun _ => rfl) hget
            (.playerReadyStateChanged slot isReady) (fun session => by cases session <;> rfl)
            fun a paired h => ⟨hs, h⟩
      · cases hchange
        exact leads_nothing hone
    | notifyCanPlay =>
      cases hchange
      exact leads_quiet hone (f := fun p => { p with canPlay := true }) (fun _ => rfl) slot
    | playerInput inputPressed timeToPress =>
      cases hchange
      exact leads_quiet hone (f := fun p =>
        { p with
          inputPressed := some inputPressed
          timeToPress := some timeToPress
          inputPressedAtServerTime := some now }) (fun _ => rfl) slot
    | setReplayReadyState isReadyToReplay =>
      cases hchange with
      | setsReplayReady _ player' _ hget =>
        exact leads_flag hone (f := fun p => { p with isReadyToReplay := isReadyToReplay })
          (fun _ => rfl) hget (.playerReplayReadyStateChanged slot isReadyToReplay)
          (fun session => by cases session <;> rfl) fun a paired h => h
    | leaveGame => exact absurd rfl hleave

/-- A room tells a client with one seat nothing that does not fit its session, and the session
stays what the room is. -/
theorem step_leads {e : Event} (hw : WellFormed room) (hone : room.seats p ≤ 1)
    (hjoin : ∀ nickname, e = .addPlayer p nickname → room.seats p = 0 ∧ room.isFull = false)
    (hstep : room.step e = .ok (room', calls)) :
    Leads p (room.intent p (room.session p) e) room' calls := by
  cases e with
  | addPlayer q nickname =>
    cases hfree : room.getAvailableAssignment with
    | none =>
      have hne : q ≠ p := by
        rintro rfl
        obtain ⟨slot, hslot⟩ := getAvailableAssignment_of_not_isFull (hjoin nickname rfl).2
        cases hfree.symm.trans hslot
      simp only [step, addPlayer, hfree] at hstep
      cases hstep
      rw [intent, if_neg hne]
      exact leads_nothing hone
    | some slot =>
      have hget := getAvailableAssignment_eq_some hfree
      simp only [step, addPlayer, hfree] at hstep
      cases hstep
      refine occupy_leads hw hone (waitingPlayers_of_free hw hget) hget (fun hq => ?_) nickname
      exact (hjoin nickname (hq ▸ rfl)).1
  | removePlayer q =>
    have hleads := removePlayer_leads hw hone q
    rwa [Except.ok.inj hstep] at hleads
  | handlePlayerMessage q message now =>
    have hleads := handlePlayerMessage_leads hw hone q message now
    rwa [Except.ok.inj hstep] at hleads
  | tick clock draw => exact tick_leads hw hone hstep

end Room
end SamuraiKirby
