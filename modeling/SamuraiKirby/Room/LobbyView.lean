/-
The lobby as a client sees it.

A client rebuilds its lobby from the messages published to it, beginning with
`ROOM_JOINED`.  `LobbyView.read` is one step of that fold.  The view agrees with
the room except where the room sets a ready flag and announces nothing, which is
when somebody leaves an unready player behind.
-/
import SamuraiKirby.Room.Consent
import SamuraiKirby.Room.Seats

namespace SamuraiKirby

/-- What a client knows of its room. -/
structure LobbyView where
  own : PlayerAssignment
  ownIsReady : Bool
  other : Option PlayerLobbyDTO
deriving DecidableEq, Repr

namespace LobbyView

/-- What a message tells a client.  Nothing is known before the first `ROOM_JOINED`. -/
def read (view : Option LobbyView) (m : GameplayMessage) : Option LobbyView :=
  match m with
  | .roomJoined playerAssignment otherPlayer => some ⟨playerAssignment, false, otherPlayer⟩
  | .playerJoinedRoom player => view.map fun v => { v with other := some player }
  | .playerLeftRoom playerAssignment =>
    view.map fun v => { v with other := v.other.filter (·.assignment ≠ playerAssignment) }
  | .playerReadyStateChanged playerAssignment isReady =>
    view.map fun v =>
      if v.own = playerAssignment then { v with ownIsReady := isReady }
      else { v with other := v.other.map fun player =>
        if player.assignment = playerAssignment then { player with isReady := isReady }
        else player }
  | _ => view

/-- Two copies of a message tell no more than one. -/
theorem read_idem (view : Option LobbyView) (m : GameplayMessage) :
    read (read view m) m = read view m := by
  cases view with
  | none => cases m <;> rfl
  | some v =>
    cases m with
    | playerLeftRoom playerAssignment =>
      simp only [read, Option.map_some, Option.filter_filter, Bool.and_self]
    | playerReadyStateChanged playerAssignment isReady =>
      simp only [read, Option.map_some]
      by_cases hown : v.own = playerAssignment
      · simp [hown]
      · cases v.other with
        | none => simp [hown]
        | some player =>
          by_cases hplayer : player.assignment = playerAssignment <;> simp [hown, hplayer]
    | _ => rfl

theorem read_of_isForBoth (view : Option LobbyView) {m : GameplayMessage}
    (hm : m.isForBoth = true) : read view m = view := by
  cases m <;> first | rfl | cases hm

end LobbyView

namespace Room

open Transition

/-- What each player's client knows. -/
abbrev Views := PlayerId → Option LobbyView

def readCall (views : Views) : BrokerCall → Views
  | .publishGameplayMessage id m => Function.update views id (LobbyView.read (views id) m)
  | _ => views

/-- The lobby of the player in a slot. -/
def lobbyView (room : Room) (slot : PlayerAssignment) : Option LobbyView :=
  (room.players.get slot).map fun p =>
    ⟨p.assignment, p.isReady, (room.players.get slot.other).map Player.buildLobbyDTO⟩

/-- Every player in the room knows the lobby as it is. -/
def Agree (views : Views) (room : Room) : Prop :=
  ∀ slot p, room.players.get slot = some p → views p.id = room.lobbyView slot

/-- Judges the room after each step. -/
def viewsAgree : Monitor Views (Move Room Event BrokerCall) where
  next views move := move.emitted.foldl readCall views
  ok views move := Agree (move.emitted.foldl readCall views) move.after

variable {clock : Readings} {draw : Nat} {room room' : Room} {handler : Handler}
  {calls : List BrokerCall} {ms : List GameplayMessage} {views : Views}

/-! ## Reading broadcasts -/

theorem foldl_readCall_broadcast (room : Room) (m : GameplayMessage) (views : Views)
    (id : PlayerId) :
    (room.broadcastGameplayMessage m).foldl readCall views id =
      if id ∈ room.recipients then LobbyView.read (views id) m else views id := by
  rw [broadcastGameplayMessage_eq]
  generalize room.recipients = ids
  induction ids generalizing views with
  | nil => rfl
  | cons q ids ih =>
    rw [List.map_cons, List.foldl_cons, ih]
    by_cases hq : id = q
    · subst hq
      simp only [readCall, Function.update_self, LobbyView.read_idem, ite_self,
        List.mem_cons_self, if_true]
    · simp only [readCall, Function.update_of_ne hq, List.mem_cons, hq, false_or]

theorem foldl_readCall_broadcastAll (room : Room) (hms : ∀ m ∈ ms, m.isForBoth = true)
    (views : Views) : (room.broadcastAll ms).foldl readCall views = views := by
  induction ms with
  | nil => rfl
  | cons m ms ih =>
    have hm : (room.broadcastGameplayMessage m).foldl readCall views = views := by
      funext id
      rw [foldl_readCall_broadcast, LobbyView.read_of_isForBoth _ (hms m (List.mem_cons_self ..)),
        ite_self]
    rw [broadcastAll, List.flatMap_cons, List.foldl_append, hm]
    exact ih fun m' hm' => hms m' (List.mem_cons_of_mem _ hm')

theorem mem_recipients {slot : PlayerAssignment} {p : Player}
    (hp : room.players.get slot = some p) : p.id ∈ room.recipients :=
  mem_recipients_iff.2 ⟨slot, p, hp, rfl⟩

/-! ## Rooms that look alike -/

/-- The part of a player that lobbies show. -/
def seat (p : Player) : PlayerId × PlayerLobbyDTO := (p.id, p.buildLobbyDTO)

theorem seat_eq {p q : Player} (h : seat p = seat q) :
    p.id = q.id ∧ p.assignment = q.assignment ∧ p.isReady = q.isReady ∧
      p.buildLobbyDTO = q.buildLobbyDTO := by
  obtain ⟨hid, hdto⟩ := Prod.mk.inj h
  exact ⟨hid, congrArg PlayerLobbyDTO.assignment hdto, congrArg PlayerLobbyDTO.isReady hdto, hdto⟩

theorem buildLobbyDTO_of_seats
    (h : ∀ a, (room'.players.get a).map seat = (room.players.get a).map seat)
    (a : PlayerAssignment) :
    (room'.players.get a).map Player.buildLobbyDTO =
      (room.players.get a).map Player.buildLobbyDTO := by
  have hdto := congrArg (Option.map Prod.snd) (h a)
  rwa [Option.map_map, Option.map_map] at hdto

theorem lobbyView_of_seats
    (h : ∀ a, (room'.players.get a).map seat = (room.players.get a).map seat)
    (slot : PlayerAssignment) : room'.lobbyView slot = room.lobbyView slot := by
  have hview : ∀ r : Room, r.lobbyView slot =
      ((r.players.get slot).map Player.buildLobbyDTO).map fun dto =>
        ⟨dto.assignment, dto.isReady, (r.players.get slot.other).map Player.buildLobbyDTO⟩ := by
    intro r
    rw [Option.map_map]
    rfl
  rw [hview, hview, buildLobbyDTO_of_seats h, buildLobbyDTO_of_seats h]

theorem Agree.of_seats (hagree : Agree views room)
    (h : ∀ a, (room'.players.get a).map seat = (room.players.get a).map seat) :
    Agree views room' := by
  intro slot p hp
  have hslot := h slot
  rw [hp, Option.map_some] at hslot
  obtain ⟨q, hq, hseat⟩ := Option.map_eq_some_iff.1 hslot.symm
  rw [lobbyView_of_seats h, ← (seat_eq hseat).1]
  exact hagree slot q hq

theorem seats_modifyPlayer (room : Room) (slot : PlayerAssignment) {f : Player → Player}
    (hf : ∀ p, seat (f p) = seat p) (a : PlayerAssignment) :
    ((room.modifyPlayer slot f).players.get a).map seat = (room.players.get a).map seat := by
  by_cases ha : a = slot
  · subst ha
    rw [modifyPlayer, Players.get_modify_self, Option.map_map]
    cases room.players.get a with
    | none => rfl
    | some p => exact congrArg some (hf p)
  · rw [modifyPlayer, Players.get_modify_of_ne _ ha]

/-! ## Steps -/

theorem Turn.seats (hready : PlaysReady room) (ht : Turn clock draw room handler room' ms)
    (a : PlayerAssignment) :
    (room'.players.get a).map seat = (room.players.get a).map seat := by
  by_cases hne : handler = .handleReplay
  · cases ht with
    | idle => rfl
    | replay hs =>
      rw [Players.get_map, Option.map_map]
      cases hp : room.players.get a with
      | none => rfl
      | some p =>
        have hflag := hready (by rw [hs]; decide) a p hp
        simp [seat, Player.buildLobbyDTO, Player.resetToReplay, hflag]
    | _ => cases hne
  · rw [ht.players hne]

theorem TickCase.agree (hagree : Agree views room) (hready : PlaysReady room)
    (ht : TickCase clock draw room room' ms) : Agree views room' := by
  cases ht with
  | turn h => exact hagree.of_seats (h.seats hready)
  | twoTurns first second =>
    exact (hagree.of_seats (first.seats hready)).of_seats (second.seats (first.playsReady hready))

/-- With distinct ids who joins is nobody in the room. -/
theorem ne_of_joins {e : Event} {rest : List Event} {slot : PlayerAssignment} {id : PlayerId}
    {nickname : Bytes} (habsent : JoinsAbsent room e rest)
    (hjoins : room.happening e = .joins slot id nickname) {a : PlayerAssignment} {p : Player}
    (hp : room.players.get a = some p) : p.id ≠ id := by
  intro hid
  cases e with
  | addPlayer id' nickname' =>
    simp only [happening] at hjoins
    cases hfree : room.getAvailableAssignment with
    | none =>
      rw [hfree] at hjoins
      cases hjoins
    | some slot' =>
      rw [hfree] at hjoins
      cases hjoins
      have hseated : room.hasPlayerWithId p.id = true :=
        hasPlayerWithId_iff_seats.2 (seats_pos_iff.2 (mem_recipients hp))
      have hfull : room.isFull = true := habsent (hid ▸ hseated)
      have hnone := getAvailableAssignment_eq_some hfree
      unfold isFull at hfull
      cases slot <;> simp_all [Players.get]
  | removePlayer id' =>
    simp only [happening] at hjoins
    split at hjoins <;> cases hjoins
  | tick clock draw => cases hjoins
  | handlePlayerMessage id' message now =>
    simp only [happening] at hjoins
    split at hjoins
    · cases hjoins
    · cases message with
      | setReadyState isReady =>
        simp only [Happening.ofMessage] at hjoins
        split at hjoins <;> cases hjoins
      | _ => cases hjoins

theorem agree_joins (hagree : Agree views room) (slot : PlayerAssignment) (id : PlayerId)
    (nickname : Bytes) (hnew : ∀ {a p}, room.players.get a = some p → p.id ≠ id) :
    Agree ((BrokerCall.publishGameplayMessage id
        (.roomJoined slot ((room.players.get slot.other).map Player.buildLobbyDTO)) ::
      ((room.players.get slot.other).toList.map fun other : Player =>
        BrokerCall.publishGameplayMessage other.id (.playerJoinedRoom ⟨nickname, slot, false⟩)) ++
      [BrokerCall.subscribeToPlayerActionMessages id]).foldl readCall views)
      (room.occupy slot id nickname) := by
  intro a p hp
  have hother : (room.occupy slot id nickname).players.get slot.other =
      room.players.get slot.other := Players.get_set_of_ne _ slot.other_ne _
  rw [List.cons_append, List.foldl_cons, List.foldl_append]
  rcases of_get_occupy hp with ⟨rfl, rfl⟩ | ⟨ha, hq⟩
  · simp only [lobbyView, hp, hother, Option.map_some]
    cases hq : room.players.get a.other with
    | none => simp [readCall, LobbyView.read]
    | some q => simp [readCall, LobbyView.read, (hnew hq).symm]
  · obtain rfl : a = slot.other := (slot.eq_or_eq_other a).resolve_left ha
    have hview := hagree slot.other p hq
    have hslot : (room.occupy slot id nickname).players.get slot =
        some { id := id, nickname := nickname, assignment := slot } := Players.get_set_self ..
    simp only [lobbyView, hp, hq, hslot, Option.map_some, PlayerAssignment.other_other] at hview ⊢
    simp [readCall, LobbyView.read, hnew hq, hview, Player.buildLobbyDTO]

theorem agree_leaves_iff (h : WellFormed room) (hagree : Agree views room)
    {slot : PlayerAssignment} {p : Player} (hp : room.players.get slot = some p) :
    Agree ((BrokerCall.unsubscribeToPlayerActionMessages p.id ::
        (room.vacate slot).broadcastGameplayMessage (.playerLeftRoom slot)).foldl readCall views)
      (room.vacate slot) ↔ (room.players.get slot.other).all (·.isReady) = true := by
  have hstays : ∀ {a q}, room.players.get a = some q → a ≠ slot →
      (room.vacate slot).players.get a = some q.resetToReplay := by
    intro a q hq ha
    rw [vacate, Players.get_set_of_ne _ ha, Players.get_map, hq]
    rfl
  -- who stays learns who left, and nothing about its own flag
  have hread : ∀ {a q}, room.players.get a = some q → a ≠ slot →
      LobbyView.read (views q.id) (.playerLeftRoom slot) = some ⟨q.assignment, q.isReady, none⟩ := by
    intro a q hq ha
    have hother : a.other = slot := by
      rw [(slot.eq_or_eq_other a).resolve_left ha, PlayerAssignment.other_other]
    rw [hagree a q hq]
    simp [lobbyView, hq, hother, hp, LobbyView.read, Player.buildLobbyDTO, h.slot slot p hp]
  have hviews : ∀ {a q}, room.players.get a = some q → a ≠ slot →
      ((room.vacate slot).broadcastGameplayMessage (.playerLeftRoom slot)).foldl readCall views
        q.id = some ⟨q.assignment, q.isReady, none⟩ := by
    intro a q hq ha
    have hmem : q.id ∈ (room.vacate slot).recipients :=
      mem_recipients_iff.2 ⟨a, q.resetToReplay, hstays hq ha, rfl⟩
    rw [foldl_readCall_broadcast, if_pos hmem, hread hq ha]
  have hlobby : ∀ {a q}, room.players.get a = some q → a ≠ slot →
      (room.vacate slot).lobbyView a = some ⟨q.assignment, true, none⟩ := by
    intro a q hq ha
    have hother : a.other = slot := by
      rw [(slot.eq_or_eq_other a).resolve_left ha, PlayerAssignment.other_other]
    have hnone : (room.vacate slot).players.get slot = none := by
      rw [vacate, Players.get_set_self]
    simp [lobbyView, hstays hq ha, hother, hnone, Player.resetToReplay]
  rw [List.foldl_cons]
  constructor
  · intro hall
    cases hq : room.players.get slot.other with
    | none => rfl
    | some q =>
      have hview := hall slot.other _ (hstays hq slot.other_ne)
      rw [hlobby hq slot.other_ne] at hview
      have hknown := (hviews hq slot.other_ne).symm.trans hview
      simpa using hknown
  · intro hready a q' hq'
    obtain ⟨ha, q, hq, rfl⟩ := of_get_vacate hq'
    rw [hlobby hq ha]
    refine (hviews hq ha).trans ?_
    rw [← (slot.eq_or_eq_other a).resolve_left ha, hq] at hready
    have hflag : q.isReady = true := hready
    rw [hflag]

theorem agree_setsReady (h : WellFormed room) (hagree : Agree views room)
    {slot : PlayerAssignment} {p : Player} (hp : room.players.get slot = some p)
    (isReady : Bool) :
    Agree (((room.modifyPlayer slot fun p => { p with isReady := isReady }).broadcastGameplayMessage
      (.playerReadyStateChanged slot isReady)).foldl readCall views)
      (room.modifyPlayer slot fun p => { p with isReady := isReady }) := by
  intro a q hq
  rw [foldl_readCall_broadcast, if_pos (mem_recipients hq)]
  have hslot : (room.modifyPlayer slot fun p => { p with isReady := isReady }).players.get slot =
      some { p with isReady := isReady } := by
    rw [modifyPlayer, Players.get_modify_self, hp]
    rfl
  have hother : (room.modifyPlayer slot fun p => { p with isReady := isReady }).players.get
      slot.other = room.players.get slot.other := Players.get_modify_of_ne _ slot.other_ne _
  rcases of_get_modifyPlayer hq with ⟨rfl, q', hq', rfl⟩ | ⟨ha, hq'⟩
  · have hview := hagree a q' hq'
    have hown := h.slot a q' hq'
    simp only [lobbyView, hq', hslot, hother, Option.map_some] at hview ⊢
    simp_all [LobbyView.read]
  · obtain rfl : a = slot.other := (slot.eq_or_eq_other a).resolve_left ha
    have hview := hagree slot.other q hq'
    have hown := h.slot slot.other q hq'
    have hassignment := h.slot slot p hp
    simp only [lobbyView, hq', hp, hslot, hother, Option.map_some,
      PlayerAssignment.other_other] at hview ⊢
    simp [LobbyView.read, hview, hown, hassignment, slot.other_ne, Player.buildLobbyDTO]

/-- A change other than a tick is announced to everybody unless it leaves an unready player
behind. -/
theorem Change.agree_iff {e : Event} {rest : List Event} (h : WellFormed room)
    (hagree : Agree views room) (habsent : JoinsAbsent room e rest)
    (hchange : Change room (room.happening e) room' calls) :
    Agree (calls.foldl readCall views) room' ↔ LeavesReady room e rest := by
  have hnew : ∀ slot id nickname, room.happening e = .joins slot id nickname →
      ∀ {a p}, room.players.get a = some p → p.id ≠ id :=
    fun slot id nickname hjoins => ne_of_joins habsent hjoins
  unfold LeavesReady
  generalize room.happening e = happening at hchange hnew ⊢
  cases hchange with
  | nothing => exact iff_of_true hagree trivial
  | joins slot id nickname =>
    exact iff_of_true (agree_joins hagree slot id nickname (hnew slot id nickname rfl)) trivial
  | leaves slot p hp => exact agree_leaves_iff h hagree hp
  | setsReady slot p isReady hs hp => exact iff_of_true (agree_setsReady h hagree hp isReady) trivial
  | canPlay slot =>
    exact iff_of_true (hagree.of_seats (seats_modifyPlayer room slot fun _ => rfl)) trivial
  | presses slot =>
    exact iff_of_true (hagree.of_seats (seats_modifyPlayer room slot fun _ => rfl)) trivial
  | setsReplayReady slot p isReadyToReplay =>
    refine iff_of_true ?_ trivial
    have hviews : ((room.modifyPlayer slot fun p =>
        { p with isReadyToReplay := isReadyToReplay }).broadcastGameplayMessage
          (.playerReplayReadyStateChanged slot isReadyToReplay)).foldl readCall views = views := by
      funext id
      rw [foldl_readCall_broadcast]
      exact ite_self _
    rw [hviews]
    exact hagree.of_seats (seats_modifyPlayer room slot fun _ => rfl)

/-! ## Runs -/

/-- In a run with distinct ids every client's view agrees with the room after every step exactly
when nobody leaves an unready player behind. -/
theorem viewsAgree_iff_along {config : RoomConfig} {events : List Event}
    (habsent : Along step JoinsAbsent (new config) events) :
    viewsAgree.Accepts (fun _ => none) (moves step (new config) events) ↔
      Along step LeavesReady (new config) events := by
  refine moves_accepts_iff_along (R := fun room views rest => WellFormed room ∧ PlaysReady room ∧
    Agree views room ∧ Along step JoinsAbsent room rest) (fun room views e rest hR => ?_)
    (fun room views e rest room' calls hR hstep => ?_)
    ⟨wellFormed_new config, fun hs => absurd rfl hs, fun slot p hp => ?_, habsent⟩
  · exact step_ok hR.1 e
  · obtain ⟨hwf, hready, hagree, habsent⟩ := hR
    have hwf' := step_wellFormed hwf hstep
    have habsent' := habsent.2 room' calls hstep
    rcases step_cases hwf hstep with ⟨clock, draw, rfl, ht⟩ | hchange
    · obtain ⟨ms, rfl, hcase, -⟩ := tick_cases hwf ht
      have hviews := foldl_readCall_broadcastAll room' hcase.isForBoth views
      have hagree' : Agree ((room'.broadcastAll ms).foldl readCall views) room' := by
        rw [hviews]
        exact hcase.agree hagree hready
      exact ⟨iff_of_true hagree' trivial, fun _ => ⟨hwf', hcase.playsReady hready, hagree',
        habsent'⟩⟩
    · have hiff := hchange.agree_iff hwf hagree habsent.1
      exact ⟨hiff, fun hC => ⟨hwf', hchange.playsReady hready, hiff.2 hC, habsent'⟩⟩
  · rw [get_new] at hp
    cases hp

/-- Player 2 leaves during a round and player 3 joins in its place. -/
theorem viewsAgree_iff_along_rematch :
    viewsAgree.Accepts (fun _ => none) (moves step (new quickConfig) (toExpectingInput ++
      [.handlePlayerMessage 2 .leaveGame 0, .addPlayer 3 [],
        .handlePlayerMessage 3 (.setReadyState true) 0])) :=
  (viewsAgree_iff_along (by decide)).2 (by decide)

/-- Player 2 leaves an unready player 1 behind, whose ready flag is set.  Player 1 is told only
that player 2 has left. -/
theorem silent_ready_flag :
    ¬ ∀ (config : RoomConfig) (events : List Event), Along step JoinsAbsent (new config) events →
      viewsAgree.Accepts (fun _ => none) (moves step (new config) events) := by
  intro hall
  have hacc := hall quickConfig ([.addPlayer 1 [], .addPlayer 2 []] ++
    [.handlePlayerMessage 2 .leaveGame 0]) (by decide)
  have hrun : ∃ room calls, run step (new quickConfig) [.addPlayer 1 [], .addPlayer 2 []] =
      .ok (room, calls) ∧ ∃ room' calls',
        room.step (.handlePlayerMessage 2 .leaveGame 0) = .ok (room', calls') ∧
          calls'.foldl readCall (viewsAgree.after (fun _ => none)
            (moves step (new quickConfig) [.addPlayer 1 [], .addPlayer 2 []])) 1 =
              some ⟨.P1, false, none⟩ ∧
          (∃ p, room'.players.get .P1 = some p ∧ p.id = 1) ∧
          room'.lobbyView .P1 = some ⟨.P1, true, none⟩ :=
    ⟨_, _, rfl, _, _, rfl, by decide, ⟨_, rfl, rfl⟩, rfl⟩
  obtain ⟨room, calls, hrun, room', calls', hstep, hview, ⟨p, hp, hid⟩, hlobby⟩ := hrun
  have hagree := moves_accepts_last hacc hrun hstep .P1 p hp
  have hsame : some (⟨.P1, false, none⟩ : LobbyView) = some ⟨.P1, true, none⟩ := by
    rw [← hview, ← hlobby, ← hagree, hid]
  cases hsame

end Room
end SamuraiKirby
