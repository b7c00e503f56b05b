/-
Where the presses of a result come from.

A result shows what each player has pressed and when it says it did.  Only an input
of the player itself writes this, and the end of a round clears it.  So each press in
a result that a client is told was made before, in a room where the client was given
a slot, by a client that was given the slot it is shown for (`presses_of_run`).
-/
import SamuraiKirby.Gameplay.Sessions
import SamuraiKirby.Room.Results

namespace SamuraiKirby

open Transition

/-- The press a result shows for a player. -/
def PlayerGameResultDTO.Shows (shown : PlayerGameResultDTO) (i : GameplayInput) (t : Int) : Prop :=
  shown.inputPressed = some i ∧ shown.timeToPress = some t

variable {Seat Seat' : PlayerId → PlayerAssignment → Prop}
  {Press Press' : PlayerId → GameplayInput → Int → Prop}

/-! ## Rooms -/

variable (Seat Press) in
/-- Who is in the room had a seat there, and what it has pressed it has pressed. -/
structure Room.Backed (room : Room) : Prop where
  seat : ∀ a p, room.players.get a = some p → Seat p.id a
  press : ∀ a p i t, room.players.get a = some p → p.buildGameoverDTO.Shows i t → Press p.id i t

variable (Seat Press) in
/-- What a result shows for a slot is a press of a player of the slot, or nothing. -/
def PlayerGameResultDTO.Backed (a : PlayerAssignment) (shown : PlayerGameResultDTO) : Prop :=
  (shown.inputPressed = none ∧ shown.timeToPress = none) ∨
    ∃ i t p, shown.Shows i t ∧ Seat p a ∧ Press p i t

variable (Seat Press) in
/-- A result is told to a player of the room, and the presses in it are those of players. -/
def GameplayMessage.Backed (m : GameplayMessage) (q : PlayerId) : Prop :=
  ∀ r, m.gameResult? = some r →
    (∃ b, Seat q b) ∧ ∀ a, (r.ofPlayer a).Backed Seat Press a

namespace Room

variable {room room' : Room} {calls : List BrokerCall} {clock : Readings} {draw : Nat}
  {handler : Handler} {ms : List GameplayMessage} {m : GameplayMessage} {r : GameResultDTO}
  {e : Event}

theorem Backed.mono (h : room.Backed Seat Press) (hseat : ∀ p a, Seat p a → Seat' p a)
    (hpress : ∀ p i t, Press p i t → Press' p i t) : room.Backed Seat' Press' where
  seat a p hp := hseat _ _ (h.seat a p hp)
  press a p i t hp hshows := hpress _ _ _ (h.press a p i t hp hshows)

theorem backed_of_isEmpty (h : room.isEmpty = true) : room.Backed Seat Press := by
  have hnobody : ∀ a p, room.players.get a ≠ some p := by
    rw [isEmpty, Bool.and_eq_true, Option.isNone_iff_eq_none, Option.isNone_iff_eq_none] at h
    intro a p hp
    cases a with
    | P1 => cases h.1.symm.trans hp
    | P2 => cases h.2.symm.trans hp
  exact ⟨fun a p hp => absurd hp (hnobody a p), fun a p _ _ hp _ => absurd hp (hnobody a p)⟩

/-- A player that is reset shows no press. -/
theorem Backed.resetToReplay (h : room.Backed Seat Press) {a : PlayerAssignment} {q : Player}
    (hq : room.players.get a = some q) : Seat q.resetToReplay.id a ∧
      ∀ i t, q.resetToReplay.buildGameoverDTO.Shows i t → Press q.resetToReplay.id i t :=
  ⟨h.seat a q hq, fun i t hshows => by cases hshows.1⟩

/-- A write to a slot leaves the others alone. -/
theorem Backed.modifyPlayer (h : room.Backed Seat Press) {slot : PlayerAssignment}
    {f : Player → Player} (hid : ∀ p, (f p).id = p.id)
    (hf : ∀ p i t, room.players.get slot = some p → (f p).buildGameoverDTO.Shows i t →
      Press p.id i t) : (room.modifyPlayer slot f).Backed Seat Press where
  seat a p hp := by
    obtain ⟨q, hq, heq⟩ := of_get_modifyPlayer_field Player.id hid hp
    rw [heq]
    exact h.seat a q hq
  press a p i t hp hshows := by
    rcases of_get_modifyPlayer hp with ⟨rfl, q, hq, rfl⟩ | ⟨-, hp⟩
    · rw [hid]
      exact hf q i t hq hshows
    · exact h.press a p i t hp hshows

/-- Joins give seats and inputs are presses; nothing else is written that a result shows. -/
theorem Change.backed {h : Happening} (hchange : Change room h room' calls)
    (hroom : room.Backed Seat Press)
    (hjoin : ∀ slot id nickname, h = .joins slot id nickname → Seat id slot)
    (hpress : ∀ slot i t now p, h = .presses slot i t now → room.players.get slot = some p →
      Press p.id i t) : room'.Backed Seat Press := by
  have hkeep : ∀ slot (f : Player → Player), (∀ p, (f p).id = p.id) →
      (∀ p, (f p).buildGameoverDTO = p.buildGameoverDTO) →
      (room.modifyPlayer slot f).Backed Seat Press := fun slot f hid hdto =>
    hroom.modifyPlayer hid fun p i t hp hshows => hroom.press slot p i t hp (hdto p ▸ hshows)
  cases hchange with
  | nothing => exact hroom
  | joins slot id nickname hs hfree =>
    constructor
    · intro a p hp
      rcases of_get_occupy hp with ⟨rfl, rfl⟩ | ⟨-, hp⟩
      · exact hjoin a id nickname rfl
      · exact hroom.seat a p hp
    · intro a p i t hp hshows
      rcases of_get_occupy hp with ⟨-, rfl⟩ | ⟨-, hp⟩
      · cases hshows.1
      · exact hroom.press a p i t hp hshows
  | leaves slot p hp =>
    constructor
    · intro a q hq
      obtain ⟨-, q', hq', rfl⟩ := of_get_vacate hq
      exact (hroom.resetToReplay hq').1
    · intro a q i t hq
      obtain ⟨-, q', hq', rfl⟩ := of_get_vacate hq
      exact (hroom.resetToReplay hq').2 i t
  | setsReady slot p isReady hs hp => exact hkeep slot _ (fun _ => rfl) fun _ => rfl
  | canPlay slot p hp => exact hkeep slot _ (fun _ => rfl) fun _ => rfl
  | presses slot p inputPressed timeToPress now hp =>
    refine hroom.modifyPlayer (fun _ => rfl) fun q i t hq hshows => ?_
    obtain ⟨hi, ht⟩ := hshows
    cases hi
    cases ht
    exact hpress slot inputPressed timeToPress now q rfl hq
  | setsReplayReady slot p isReadyToReplay hp => exact hkeep slot _ (fun _ => rfl) fun _ => rfl

theorem Turn.backed (ht : Turn clock draw room handler room' ms)
    (hroom : room.Backed Seat Press) : room'.Backed Seat Press := by
  cases ht with
  | replay =>
    constructor
    · intro a p hp
      obtain ⟨q, hq, rfl⟩ := of_get_map hp
      exact (hroom.resetToReplay hq).1
    · intro a p i t hp
      obtain ⟨q, hq, rfl⟩ := of_get_map hp
      exact (hroom.resetToReplay hq).2 i t
  | _ => exact ⟨hroom.seat, hroom.press⟩

/-- A result is built from the players of the room. -/
theorem Turn.built (ht : Turn clock draw room handler room' ms) (hm : m ∈ ms)
    (hr : m.gameResult? = some r) : ∃ w, room.buildGameResultDTO w = .ok r := by
  cases ht with
  | idle => exact absurd hm List.not_mem_nil
  | firstCanPlay => exact absurd hm List.not_mem_nil
  | allReady | expectingInput | replay =>
    rw [List.mem_singleton.1 hm] at hr
    cases hr
  | earlyInput | wrongInput | winAlone | winFirst | drawTie | drawTimeout =>
    rw [List.mem_singleton.1 hm] at hr
    cases hr
    exact ⟨_, by assumption⟩

theorem Turn.backed_result (h : WellFormed room) (ht : Turn clock draw room handler room' ms)
    (hroom : room.Backed Seat Press) (hm : m ∈ ms) (hr : m.gameResult? = some r)
    (a : PlayerAssignment) : (r.ofPlayer a).Backed Seat Press a := by
  obtain ⟨w, hbuild⟩ := ht.built hm hr
  obtain ⟨p, hp, heq⟩ := ofPlayer_of_build hbuild a
  have hpaired := paired_of_build h hbuild a
  cases hi : (r.ofPlayer a).inputPressed with
  | none =>
    rw [hi, Option.isSome_none, Option.isSome_eq_false_iff, Option.isNone_iff_eq_none] at hpaired
    exact Or.inl ⟨hi, hpaired⟩
  | some i =>
    rw [hi, Option.isSome_some, Option.isSome_iff_exists] at hpaired
    obtain ⟨t, ht⟩ := hpaired
    have hshows : (r.ofPlayer a).Shows i t := ⟨hi, ht⟩
    exact Or.inr ⟨i, t, p.id, hshows, hroom.seat a p hp, hroom.press a p i t hp (heq ▸ hshows)⟩

theorem TickCase.backed (h : WellFormed room) (ht : TickCase clock draw room room' ms)
    (hroom : room.Backed Seat Press) : room'.Backed Seat Press ∧
      ∀ m ∈ ms, ∀ r, m.gameResult? = some r → ∀ a, (r.ofPlayer a).Backed Seat Press a := by
  cases ht with
  | turn ht => exact ⟨ht.backed hroom, fun m hm r hr => ht.backed_result h hroom hm hr⟩
  | twoTurns first second =>
    refine ⟨second.backed (first.backed hroom), fun m hm r hr => ?_⟩
    rcases List.mem_append.1 hm with hm | hm
    · exact first.backed_result h hroom hm hr
    · exact second.backed_result (first.wellFormed h) (first.backed hroom) hm hr

theorem step_backed (h : WellFormed room) (hroom : room.Backed Seat Press)
    (hstep : room.step e = .ok (room', calls))
    (hjoin : ∀ slot id nickname, room.happening e = .joins slot id nickname → Seat id slot)
    (hpress : ∀ slot i t now p, room.happening e = .presses slot i t now →
      room.players.get slot = some p → Press p.id i t) : room'.Backed Seat Press := by
  rcases step_cases h hstep with ⟨clock, draw, rfl, ht⟩ | hchange
  · obtain ⟨ms, -, hcase, -⟩ := tick_cases h ht
    exact (hcase.backed h hroom).1
  · exact hchange.backed hroom hjoin hpress

/-- Only a tick publishes results, and it takes them from the room as it is. -/
theorem step_publishes_backed (h : WellFormed room) (hroom : room.Backed Seat Press)
    (hstep : room.step e = .ok (room', calls)) {q : PlayerId}
    (hm : .publishGameplayMessage q m ∈ calls) : m.Backed Seat Press q := by
  rcases step_cases h hstep with ⟨clock, draw, rfl, ht⟩ | hchange
  · obtain ⟨ms, rfl, hcase, -⟩ := tick_cases h ht
    obtain ⟨hroom', hresults⟩ := hcase.backed h hroom
    obtain ⟨m', hm', hcall⟩ := List.mem_flatMap.1 hm
    rw [broadcastGameplayMessage_eq] at hcall
    obtain ⟨q', hq', heq⟩ := List.mem_map.1 hcall
    cases heq
    obtain ⟨b, p, hp, rfl⟩ := mem_recipients_iff.1 hq'
    exact fun r hr => ⟨⟨b, hroom'.seat b p hp⟩, hresults m hm' r hr⟩
  · have hquiet := hchange.quiet hm
    have hnone : m.gameResult? = none := by cases m <;> first | rfl | cases hquiet
    exact fun r hr => by cases hnone.symm.trans hr

/-- Who joins is told its slot first. -/
theorem step_roomJoined (h : WellFormed room) (hstep : room.step e = .ok (room', calls))
    {slot : PlayerAssignment} {p : PlayerId} {nickname : Bytes}
    (hjoins : room.happening e = .joins slot p nickname) :
    ∃ other rest, calls = .publishGameplayMessage p (.roomJoined slot other) :: rest := by
  rcases step_cases h hstep with ⟨clock, draw, rfl, -⟩ | hchange
  · cases hjoins
  · rw [hjoins] at hchange
    cases hchange with
    | joins => exact ⟨_, _, rfl⟩

end Room

/-! ## Gameplay -/

namespace Gameplay

variable {gameplay gameplay' : Gameplay} {p q : PlayerId} {m : PlayerActionMessage}
  {c : Subscriber} {effects told os : List Effect} {id : RoomId} {room room' : Room}
  {calls : List BrokerCall} {e : Room.Event} {env : Environment}

/-- A player has joined a room and was told its slot. -/
def Seated (told : List Effect) (id : RoomId) (p : PlayerId) (a : PlayerAssignment) : Prop :=
  ∃ nickname difficulty other,
    [.applied id p (.joinGame nickname difficulty), .published p (.roomJoined a other)] <:+: told

/-- A player has pressed an input in a room. -/
def Pressed (told : List Effect) (id : RoomId) (p : PlayerId) (i : GameplayInput) (t : Int) :
    Prop := .applied id p (.playerInput i t) ∈ told

theorem Seated.append {a : PlayerAssignment} (h : Seated told id p a) (os : List Effect) :
    Seated (told ++ os) id p a := by
  obtain ⟨nickname, difficulty, other, hinfix⟩ := h
  exact ⟨nickname, difficulty, other, hinfix.trans (List.prefix_append told os).isInfix⟩

theorem Pressed.append {i : GameplayInput} {t : Int} (h : Pressed told id p i t)
    (os : List Effect) : Pressed (told ++ os) id p i t := List.mem_append_left os h

/-- What the rooms hold has been done, and what was published had been done before. -/
structure Sourced (gameplay : Gameplay) (told : List Effect) : Prop where
  rooms : ∀ id room, gameplay.roomManager.room? id = some room →
    room.Backed (Seated told id) (Pressed told id)
  published : ∀ pre q m, pre ++ [.published q m] <+: told →
    ∃ id, m.Backed (Seated pre id) (Pressed pre id) q

theorem backed_append {message : GameplayMessage}
    (h : message.Backed (Seated told id) (Pressed told id) q) (os : List Effect) :
    message.Backed (Seated (told ++ os) id) (Pressed (told ++ os) id) q := by
  intro r hr
  obtain ⟨⟨b, hb⟩, hshown⟩ := h r hr
  refine ⟨⟨b, hb.append os⟩, fun a => (hshown a).imp_right ?_⟩
  rintro ⟨i, t, p, hshows, hseat, hpress⟩
  exact ⟨i, t, p, hshows, hseat.append os, hpress.append os⟩

theorem Sourced.append (h : Sourced gameplay told)
    (hrooms : ∀ id room, gameplay'.roomManager.room? id = some room →
      room.Backed (Seated (told ++ os) id) (Pressed (told ++ os) id))
    (hpublished : ∀ q m, .published q m ∈ os →
      ∃ id, m.Backed (Seated told id) (Pressed told id) q) :
    Sourced gameplay' (told ++ os) where
  rooms := hrooms
  published pre q m hpre := by
    rcases concat_prefix_append hpre with hold | ⟨os₁, rfl, hmem⟩
    · exact h.published pre q m hold
    · obtain ⟨id, hbacked⟩ := hpublished q m hmem
      exact ⟨id, backed_append hbacked os₁⟩

theorem Sourced.idle (h : Sourced gameplay told)
    (hrooms : gameplay'.roomManager = gameplay.roomManager)
    (hquiet : ∀ q m, .published q m ∉ os) : Sourced gameplay' (told ++ os) :=
  h.append (fun id room hroom => (h.rooms id room (hrooms ▸ hroom)).mono
      (fun _ _ hseat => hseat.append os) fun _ _ _ hpress => hpress.append os)
    fun q m hm => absurd hm (hquiet q m)

/-- One room moves, and it is known whether somebody has joined it or pressed an input. -/
theorem Sourced.moved (h : Sourced gameplay told)
    (hmoved : Moved gameplay gameplay' id e calls room room')
    (hpublished : ∀ q m, .published q m ∈ os → .publishGameplayMessage q m ∈ calls)
    (hjoin : ∀ p nickname slot, e = .addPlayer p nickname →
      room.happening e = .joins slot p nickname → Seated (told ++ os) id p slot)
    (hpress : ∀ p i t now, e = .handlePlayerMessage p (.playerInput i t) now →
      0 < room.seats p → Pressed (told ++ os) id p i t) : Sourced gameplay' (told ++ os) := by
  have hroom : room.Backed (Seated told id) (Pressed told id) := by
    rcases hmoved.before with hroom | ⟨-, hempty⟩
    · exact h.rooms id room hroom
    · exact Room.backed_of_isEmpty hempty
  have hlater : ∀ {id' : RoomId} {r : Room}, r.Backed (Seated told id') (Pressed told id') →
      r.Backed (Seated (told ++ os) id') (Pressed (told ++ os) id') := fun hr =>
    hr.mono (fun _ _ hseat => hseat.append os) fun _ _ _ hpress => hpress.append os
  refine h.append (fun id' r hr => ?_) fun q m hm => ⟨id, ?_⟩
  · by_cases hid : id' = id
    · subst hid
      have hroom' : room'.Backed (Seated (told ++ os) id') (Pressed (told ++ os) id') := by
        refine Room.step_backed hmoved.wellFormed (hlater hroom) hmoved.step
          (fun slot p nickname hjoins => ?_) fun slot i t now p hpresses hp => ?_
        · exact hjoin p nickname slot (Room.of_happening_joins hjoins) hjoins
        · obtain ⟨p', player, he, hg⟩ := Room.of_happening_presses hpresses
          obtain ⟨hget, rfl⟩ := Room.getPlayerById_eq_some hg
          cases hget.symm.trans hp
          refine hpress _ i t now he (Nat.pos_of_ne_zero fun hzero => ?_)
          cases (Room.getPlayerById_eq_none_iff_seats.2 hzero).symm.trans hg
      rcases hmoved.after with hafter | ⟨hafter, -⟩
      · cases hafter.symm.trans hr
        exact hroom'
      · cases hafter.symm.trans hr
    · exact hlater (h.rooms id' r (hmoved.others id' hid ▸ hr))
  · exact Room.step_publishes_backed hmoved.wellFormed hroom hmoved.step (hpublished q m hm)

theorem published_mem_effects {message : GameplayMessage} :
    .published q message ∈ BrokerCall.effects calls ↔
      .publishGameplayMessage q message ∈ calls := by
  constructor
  · intro h
    obtain ⟨call, hcall, heffect⟩ := List.mem_filterMap.1 h
    cases call with
    | publishGameplayMessage q' message' =>
      cases heffect
      exact hcall
    | _ => cases heffect
  · exact fun h => List.mem_filterMap.2 ⟨_, h, rfl⟩

theorem Sourced.call (h : Sourced gameplay told) (hinv : gameplay.Inv)
    (hmoves : CallMoves p m gameplay gameplay' c effects) : Sourced gameplay' (told ++ effects) := by
  have hcons : ∀ {id m' calls q message},
      .published q message ∈ .applied id p m' :: BrokerCall.effects calls →
        .publishGameplayMessage q message ∈ calls := fun hmem =>
    published_mem_effects.1 ((List.mem_cons.1 hmem).resolve_left nofun)
  cases hmoves with
  | idle c hsame =>
    subst hsame
    exact h.idle rfl fun _ _ hm => absurd hm List.not_mem_nil
  | joins nickname difficulty id calls hm hfree hdifficulty hmoves =>
    subst hm
    obtain ⟨room, room', hmoved⟩ := hmoves.moved hinv.wellFormed
    refine h.moved hmoved (fun _ _ => hcons) (fun q nickname' slot he hjoins => ?_) nofun
    cases he
    obtain ⟨other, rest, rfl⟩ := Room.step_roomJoined hmoved.wellFormed hmoved.step hjoins
    exact ⟨nickname, difficulty, other, told, BrokerCall.effects rest, List.append_assoc ..⟩
  | leaves id calls hm hseat hmoves =>
    obtain ⟨room, room', hmoved⟩ := hmoves.moved hinv.wellFormed
    exact h.moved hmoved (fun _ _ => hcons) nofun nofun
  | handles id room now calls hroom hmoves =>
    obtain ⟨room₁, room', hmoved⟩ := hmoves.moved hinv.wellFormed
    have hsame : room₁ = room := by
      rcases hmoved.before with hroom₁ | ⟨hnone, -⟩
      · exact Option.some.inj (hroom₁.symm.trans hroom)
      · cases hnone.symm.trans hroom
    subst hsame
    refine h.moved hmoved (fun q message hmem => ?_) nofun fun q i t now' he hseat => ?_
    · rcases List.mem_append.1 hmem with hmem | hmem
      · split_ifs at hmem
        · cases List.mem_singleton.1 hmem
        · exact absurd hmem List.not_mem_nil
      · exact published_mem_effects.1 hmem
    · cases he
      rw [if_pos (Room.applies_eq_true_iff.2 ⟨rfl, hseat⟩)]
      exact List.mem_append_right _ (List.mem_cons_self ..)

theorem Sourced.connectivity (h : Sourced gameplay told) (hinv : gameplay.Inv)
    {message : PlayerConnectivityMessage}
    (hmoves : ConnectivityMoves gameplay gameplay' message effects) :
    Sourced gameplay' (told ++ effects) := by
  cases hmoves with
  | idle message hseat hrooms => exact h.idle hrooms (by simp)
  | leaves p id calls hseat hmoves =>
    obtain ⟨room, room', hmoved⟩ := hmoves.moved hinv.wellFormed
    refine h.moved hmoved (fun q message hmem => ?_) nofun nofun
    exact published_mem_effects.1 (by simpa using hmem)

theorem tells_sourced : Tells unguarded Sourced where
  connectivity hinv h _ hstep := h.connectivity hinv (dispatchConnectivity_moves hstep)
  callback hinv h _ _ hstep := h.call hinv (call_moves hstep)
  popped h := h.idle rfl (by simp)
  tick hinv h hstep := by
    rcases tickRoom_moves hstep with ⟨rfl, rfl⟩ | ⟨calls, hmoves, rfl⟩
    · exact h.idle rfl fun _ _ hm => absurd hm List.not_mem_nil
    · obtain ⟨room, room', hmoved⟩ := hmoves.moved hinv.wellFormed
      exact h.moved hmoved (fun _ _ => published_mem_effects.1) nofun nofun

theorem sourced_new : Sourced new [] where
  rooms id room hroom := by cases hroom
  published pre q m hpre := by
    have hlength := hpre.length_le
    simp at hlength

theorem run_sourced {events : List System.Event} {system : System}
    (hrun : run (System.step env) .new events = .ok (system, effects)) :
    Sourced system.gameplay effects := tells_sourced.run_unguarded sourced_new hrun

/-- Every result that a client is told is one of a room where it was given a slot before.  What it
shows for a slot is an input with its time, made in that room before by a client that was given
the slot, or nothing. -/
theorem presses_of_run {events : List System.Event} {system : System}
    (hrun : run (System.step env) .new events = .ok (system, effects)) {pre : List Effect}
    {message : GameplayMessage} {r : GameResultDTO} (hr : message.gameResult? = some r)
    (hpre : pre ++ [.published q message] <+: effects) :
    ∃ id, (∃ b, Seated pre id q b) ∧
      ∀ a, (r.ofPlayer a).Backed (Seated pre id) (Pressed pre id) a := by
  obtain ⟨id, hbacked⟩ := (run_sourced hrun).published pre q _ hpre
  exact ⟨id, hbacked r hr⟩

/-- Both players are ready, and player 0 presses before an input is asked for. -/
def onePresses : List System.Event :=
  [.publishPlayerConnectivityMessage ⟨.connect, 0⟩,
    .publishPlayerConnectivityMessage ⟨.connect, 1⟩,
    .publishPlayerActionMessage 0 (.joinGame [] .easy),
    .publishPlayerActionMessage 1 (.joinGame [] .easy), .dispatchMessages [],
    .publishPlayerActionMessage 0 (.setReadyState true),
    .publishPlayerActionMessage 1 (.setReadyState true), .dispatchMessages [],
    .tickAllRooms (fun _ => ⟨0, 0, 0, 0, 0⟩) fun _ => 0,
    .publishPlayerActionMessage 0 (.playerInput .north 300), .dispatchMessages [],
    .tickAllRooms (fun _ => ⟨0, 0, 0, 0, 0⟩) fun _ => 0]

def earlyResult : GameResultDTO :=
  ⟨some .P2, ⟨.P1, some .north, some 300⟩, ⟨.P2, none, none⟩⟩

/-- All that is done before player 1 is told that it has won. -/
def onePressesTold : List Effect :=
  [.connectivityHandled ⟨.connect, 0⟩, .connectivityHandled ⟨.connect, 1⟩,
    .applied 0 0 (.joinGame [] .easy), .published 0 (.roomJoined .P1 none),
    .actionHandled 0 (.joinGame [] .easy), .applied 0 1 (.joinGame [] .easy),
    .published 1 (.roomJoined .P2 (some ⟨[], .P1, false⟩)),
    .published 0 (.playerJoinedRoom ⟨[], .P2, false⟩), .actionHandled 1 (.joinGame [] .easy),
    .applied 0 0 (.setReadyState true), .published 0 (.playerReadyStateChanged .P1 true),
    .published 1 (.playerReadyStateChanged .P1 true), .actionHandled 0 (.setReadyState true),
    .applied 0 1 (.setReadyState true), .published 0 (.playerReadyStateChanged .P2 true),
    .published 1 (.playerReadyStateChanged .P2 true), .actionHandled 1 (.setReadyState true),
    .published 0 .allReadyGameStarting, .published 1 .allReadyGameStarting,
    .applied 0 0 (.playerInput .north 300), .actionHandled 0 (.playerInput .north 300),
    .published 0 (.gameOverEarlyInput earlyResult)]

theorem presses_of_run_onePresses :
    ∃ id, (∃ b, Seated onePressesTold id 1 b) ∧
      ∃ p, Seated onePressesTold id p .P1 ∧ Pressed onePressesTold id p .north 300 := by
  have hrun : ∃ system, run (System.step stillEnvironment) .new onePresses =
      .ok (system, onePressesTold ++ [.published 1 (.gameOverEarlyInput earlyResult)]) := ⟨_, rfl⟩
  obtain ⟨system, hrun⟩ := hrun
  obtain ⟨id, hseat, hshown⟩ := @presses_of_run 1 _ stillEnvironment onePresses system hrun
    onePressesTold (.gameOverEarlyInput earlyResult) earlyResult rfl List.prefix_rfl
  rcases hshown .P1 with ⟨hnone, -⟩ | ⟨i, t, p, ⟨hi, ht⟩, hp, hpressed⟩
  · cases hnone
  · cases hi
    cases ht
    exact ⟨id, hseat, p, hp, hpressed⟩

end Gameplay
end SamuraiKirby
