/-
The sessions of the clients of the server.

A client that joins only while it has no seat is in one room at most, whatever the
other clients do.  What it is told then is what one room tells it, from one join to
the next leave, and its session tells at every moment which room it is in as far as a
client can see (`session_of_run`).
-/
import SamuraiKirby.Gameplay.Disconnection
import SamuraiKirby.Gameplay.Rooms
import SamuraiKirby.Room.Session

namespace SamuraiKirby

open Transition

/-- The session of a client, read off what gameplay does for everybody. -/
def clientSession (p : PlayerId) : Monitor Session Effect where
  next session
    | .applied _ q (.joinGame _ gameDifficulty) =>
      if q = p then .joining gameDifficulty else session
    | .applied _ q .leaveGame => if q = p then .outside else session
    | .connectivityHandled message =>
      if message = ⟨.disconnect, p⟩ then .outside else session
    | .published q m => if q = p then telling.next session m else session
    | _ => session
  ok session
    | .applied _ q (.joinGame _ _) => q = p → session = .outside
    | .published q m => q = p → telling.ok session m
    | _ => True

/-- Nothing fits the session of a client that is in no room. -/
theorem telling_outside {ms : List GameplayMessage} (h : telling.Accepts .outside ms) :
    ms = [] := by
  cases ms with
  | nil => rfl
  | cons m ms => exact absurd h.1 id

namespace Room

theorem isFull_of_isEmpty {room : Room} (h : room.isEmpty = true) : room.isFull = false := by
  rw [isEmpty, Bool.and_eq_true, Option.isNone_iff_eq_none] at h
  rw [isFull, h.1]
  rfl

theorem applies_eq_true_iff {room : Room} {q : PlayerId} {m : PlayerActionMessage} :
    room.applies q m = true ↔ m.isJoinGame = false ∧ 0 < room.seats q := by
  have hseats : (room.getPlayerById q).isSome = true ↔ 0 < room.seats q := by
    rw [Option.isSome_iff_ne_none, Ne, getPlayerById_eq_none_iff_seats, Nat.pos_iff_ne_zero]
  cases m with
  | joinGame nickname difficulty => exact ⟨nofun, fun h => by cases h.1⟩
  | _ => exact hseats.trans (and_iff_right rfl).symm

theorem Leads.outside {p : PlayerId} {room' : Room} {calls : List BrokerCall}
    (h : Leads p .outside room' calls) : told p calls = [] ∧ room'.seats p = 0 := by
  have htold := telling_outside h.accepts
  refine ⟨htold, ?_⟩
  have hafter := h.after
  rw [htold] at hafter
  rcases Nat.le_one_iff_eq_zero_or_eq_one.1 h.one with hzero | hsits
  · exact hzero
  · obtain ⟨a, player, hsits⟩ := exists_sits hsits
    rw [hsits.session] at hafter
    cases hafter

end Room

namespace Gameplay

variable {env : Environment} {gameplay gameplay' : Gameplay} {p q : PlayerId}
  {m : PlayerActionMessage} {c : Subscriber} {effects told' : List Effect} {id : RoomId}
  {room room' : Room} {calls : List BrokerCall} {e : Room.Event} {start : Session}

/-- The session of a player as it follows from the rooms. -/
def session (gameplay : Gameplay) (p : PlayerId) : Session :=
  match gameplay.roomManager.roomPlayerIsIn p with
  | none => .outside
  | some (_, room) => room.session p

theorem session_of_unseated (h : gameplay.Unseated p) : gameplay.session p = .outside := by
  rw [session, roomPlayerIsIn_eq_none_iff_seats.2 h]

theorem AtMostOneSeat.session (h : gameplay.AtMostOneSeat p)
    (hroom : gameplay.roomManager.room? id = some room) (hseat : 0 < room.seats p) :
    gameplay.session p = room.session p := by
  have hpos : 0 < gameplay.seats p id := by rwa [seats_of_room? hroom]
  cases hfirst : gameplay.roomManager.roomPlayerIsIn p with
  | none =>
    have hzero := roomPlayerIsIn_eq_none_iff_seats.1 hfirst id
    omega
  | some found =>
    obtain ⟨id', room'⟩ := found
    have hid := (h id id' hpos (seats_of_roomPlayerIsIn hfirst)).1
    have hroom' := (RoomManager.roomPlayerIsIn_eq_some hfirst).1
    rw [← hid, hroom] at hroom'
    rw [Gameplay.session, hfirst, Option.some.inj hroom']

theorem AtMostOneSeat.of_unseated (h : gameplay.Unseated p) : gameplay.AtMostOneSeat p := by
  intro id id' hid
  rw [h id] at hid
  cases hid

theorem unseated_or_seated (gameplay : Gameplay) (p : PlayerId) :
    gameplay.Unseated p ∨
      ∃ id room, gameplay.roomManager.room? id = some room ∧ 0 < room.seats p := by
  cases hfirst : gameplay.roomManager.roomPlayerIsIn p with
  | none => exact Or.inl (roomPlayerIsIn_eq_none_iff_seats.1 hfirst)
  | some found => exact Or.inr ⟨_, _, RoomManager.roomPlayerIsIn_eq_some hfirst⟩

theorem session_congr (h : gameplay.AtMostOneSeat p) (h' : gameplay'.AtMostOneSeat p)
    (hrooms : ∀ id room, gameplay.roomManager.room? id = some room → 0 < room.seats p →
      gameplay'.roomManager.room? id = some room)
    (hseats : ∀ id, gameplay'.seats p id = gameplay.seats p id) :
    gameplay'.session p = gameplay.session p := by
  rcases unseated_or_seated gameplay p with hunseated | ⟨id, room, hroom, hseat⟩
  · rw [session_of_unseated hunseated,
      session_of_unseated fun id => (hseats id).trans (hunseated id)]
  · rw [h.session hroom hseat, h'.session (hrooms id room hroom hseat) hseat]

/-! ## One room moves -/

theorem room?_eq (gameplay : Gameplay) (id : RoomId) : gameplay.roomManager.room? id =
    match gameplay.part id with
    | .alive room => some room
    | _ => none := by
  unfold part
  cases gameplay.roomManager.room? id with
  | none => split_ifs <;> rfl
  | some room => rfl

/-- What the room that moves was and has become, with the other rooms as they were. -/
structure Moved (gameplay gameplay' : Gameplay) (id : RoomId) (e : Room.Event)
    (calls : List BrokerCall) (room room' : Room) : Prop where
  wellFormed : room.WellFormed
  before : gameplay.roomManager.room? id = some room ∨
    gameplay.roomManager.room? id = none ∧ room.isEmpty = true
  step : room.step e = .ok (room', calls)
  after : gameplay'.roomManager.room? id = some room' ∨
    gameplay'.roomManager.room? id = none ∧ room'.isEmpty = true
  others : ∀ id', id' ≠ id → gameplay'.roomManager.room? id' = gameplay.roomManager.room? id'

theorem Moves.moved (hwf : gameplay.RoomsWellFormed) (h : Moves gameplay gameplay' id e calls) :
    ∃ room room', Moved gameplay gameplay' id e calls room room' := by
  have hothers : ∀ part, gameplay'.part = Function.update gameplay.part id part →
      ∀ id', id' ≠ id → gameplay'.roomManager.room? id' = gameplay.roomManager.room? id' := by
    intro part hparts id' hid
    rw [room?_eq, room?_eq, hparts, Function.update_of_ne hid]
  have hself : ∀ part, gameplay'.part = Function.update gameplay.part id part →
      gameplay'.part id = part := by
    intro part hparts
    rw [hparts, Function.update_self]
  cases h with
  | opens room room' hunborn hinitial hstep hparts =>
    obtain ⟨difficulty, draw, rfl⟩ := hinitial
    exact ⟨_, room', Room.wellFormed_new _, Or.inr ⟨by rw [room?_eq, hunborn], rfl⟩, hstep,
      Or.inl (part_eq_alive_iff.1 (hself _ hparts)), hothers _ hparts⟩
  | steps room room' halive hstep hparts =>
    have hroom := part_eq_alive_iff.1 halive
    exact ⟨room, room', hwf id room hroom, Or.inl hroom, hstep,
      Or.inl (part_eq_alive_iff.1 (hself _ hparts)), hothers _ hparts⟩
  | closes room room' halive hstep hfinal hparts =>
    have hroom := part_eq_alive_iff.1 halive
    exact ⟨room, room', hwf id room hroom, Or.inl hroom, hstep,
      Or.inr ⟨by rw [room?_eq, hself _ hparts], hfinal⟩, hothers _ hparts⟩

/-- The seats of a room that is there or was emptied. -/
theorem seats_of_outcome (h : gameplay.roomManager.room? id = some room ∨
    gameplay.roomManager.room? id = none ∧ room.isEmpty = true) (p : PlayerId) :
    gameplay.seats p id = room.seats p := by
  rcases h with h | ⟨h, hempty⟩
  · exact seats_of_room? h p
  · rw [Room.isEmpty_iff_seats.1 hempty p, seats, h]
    rfl

namespace Moved

variable (h : Moved gameplay gameplay' id e calls room room')
include h

theorem seats_of_ne {id' : RoomId} (hid : id' ≠ id) (p : PlayerId) :
    gameplay'.seats p id' = gameplay.seats p id' := by
  rw [seats, seats, h.others id' hid]

/-- The move is one of the room the player is in. -/
theorem here (hnowhere : ∀ id', id' ≠ id → gameplay.seats p id' = 0) (hone : room'.seats p ≤ 1) :
    gameplay'.AtMostOneSeat p ∧ gameplay'.session p = room'.session p := by
  have hself := seats_of_outcome h.after p
  have hzero : ∀ id', id' ≠ id → gameplay'.seats p id' = 0 := fun id' hid =>
    (h.seats_of_ne hid p).trans (hnowhere id' hid)
  have honly : ∀ id', 0 < gameplay'.seats p id' → id' = id := by
    intro id' hpos
    by_contra hid
    rw [hzero id' hid] at hpos
    exact absurd hpos (Nat.lt_irrefl 0)
  have hatMost : gameplay'.AtMostOneSeat p := by
    intro id₁ id₂ hid₁ hid₂
    rw [honly id₁ hid₁, honly id₂ hid₂]
    rw [honly id₁ hid₁] at hid₁
    exact ⟨rfl, by omega⟩
  refine ⟨hatMost, ?_⟩
  rcases Nat.eq_zero_or_pos (room'.seats p) with hempty | hseat
  · rw [Room.session_of_seats_eq_zero hempty, session_of_unseated fun id' => ?_]
    by_cases hid : id' = id
    · rw [hid, hself, hempty]
    · exact hzero id' hid
  · rcases h.after with hroom | ⟨-, hempty⟩
    · exact hatMost.session hroom hseat
    · rw [Room.isEmpty_iff_seats.1 hempty] at hseat
      exact absurd hseat (Nat.lt_irrefl 0)

/-- The move is one of a room the player is not in. -/
theorem elsewhere (hone : gameplay.AtMostOneSeat p) (hseats : room.seats p = 0)
    (hseats' : room'.seats p = 0) :
    gameplay'.AtMostOneSeat p ∧ gameplay'.session p = gameplay.session p := by
  have hbefore := seats_of_outcome h.before p
  have hafter := seats_of_outcome h.after p
  have hsame : ∀ id', gameplay'.seats p id' = gameplay.seats p id' := by
    intro id'
    by_cases hid : id' = id
    · rw [hid, hafter, hbefore, hseats, hseats']
    · exact h.seats_of_ne hid p
  have hone' : gameplay'.AtMostOneSeat p := by
    intro id₁ id₂
    rw [hsame, hsame]
    exact hone id₁ id₂
  refine ⟨hone', session_congr hone hone' (fun id' other hother hseat => ?_) hsame⟩
  have hid : id' ≠ id := by
    rintro rfl
    rw [seats_of_room? hother] at hbefore
    omega
  rw [h.others id' hid, hother]

end Moved

/-- What a room tells a client that has one seat at most fits its session, and the session stays
what the rooms are. -/
theorem Moved.leads (h : Moved gameplay gameplay' id e calls room room')
    (hone : gameplay.AtMostOneSeat p)
    (hjoin : ∀ nickname, e = .addPlayer p nickname → gameplay.Unseated p ∧ room.isFull = false) :
    telling.Accepts (room.intent p (gameplay.session p) e) (told p calls) ∧
      telling.after (room.intent p (gameplay.session p) e) (told p calls) = gameplay'.session p ∧
      gameplay'.AtMostOneSeat p := by
  have hbefore := seats_of_outcome h.before p
  have honeSeat : room.seats p ≤ 1 := by
    rcases Nat.eq_zero_or_pos (room.seats p) with hzero | hseat
    · omega
    · rw [← hbefore] at hseat ⊢
      exact Nat.le_of_eq (hone id id hseat hseat).2
  have hleads := Room.step_leads h.wellFormed honeSeat
    (fun nickname he => ⟨hbefore ▸ (hjoin nickname he).1 id, (hjoin nickname he).2⟩) h.step
  -- the client sits in the room that moves, or gets its seat there
  have hhere : (∀ id', id' ≠ id → gameplay.seats p id' = 0) →
      gameplay.session p = room.session p →
      telling.Accepts (room.intent p (gameplay.session p) e) (told p calls) ∧
        telling.after (room.intent p (gameplay.session p) e) (told p calls) =
          gameplay'.session p ∧ gameplay'.AtMostOneSeat p := by
    intro hnowhere hsame
    obtain ⟨hone', hsession⟩ := h.here hnowhere hleads.one
    rw [hsame, hsession]
    exact ⟨hleads.accepts, hleads.after, hone'⟩
  by_cases hown : ∃ nickname, e = .addPlayer p nickname
  · obtain ⟨nickname, he⟩ := hown
    have hunseated := (hjoin nickname he).1
    refine hhere (fun id' _ => hunseated id') ?_
    rw [session_of_unseated hunseated, Room.session_of_seats_eq_zero (hbefore ▸ hunseated id)]
  · have hnot : ∀ nickname, e ≠ .addPlayer p nickname := fun nickname he => hown ⟨nickname, he⟩
    rcases Nat.eq_zero_or_pos (room.seats p) with hzero | hseat
    · rw [Room.intent_of_absent hzero hnot, Room.session_of_seats_eq_zero hzero] at hleads
      obtain ⟨htold, hzero'⟩ := hleads.outside
      obtain ⟨hone', hsession⟩ := h.elsewhere hone hzero hzero'
      rw [Room.intent_of_absent hzero hnot, htold, hsession]
      exact ⟨trivial, rfl, hone'⟩
    · refine hhere (fun id' hid => ?_) ?_
      · rcases Nat.eq_zero_or_pos (gameplay.seats p id') with hzero' | hseat'
        · exact hzero'
        · exact absurd (hone id' id hseat' (hbefore ▸ hseat)).1 hid
      · rcases h.before with hroom | ⟨-, hempty⟩
        · exact hone.session hroom hseat
        · rw [Room.isEmpty_iff_seats.1 hempty] at hseat
          exact absurd hseat (Nat.lt_irrefl 0)

/-! ## The effects of a client -/

/-- The publications of a room, read by the session of a client. -/
theorem clientSession_effects (session : Session) (calls : List BrokerCall) :
    ((clientSession p).Accepts session (BrokerCall.effects calls) ↔
      telling.Accepts session (told p calls)) ∧
    (clientSession p).after session (BrokerCall.effects calls) =
      telling.after session (told p calls) := by
  induction calls generalizing session with
  | nil => exact ⟨Iff.rfl, rfl⟩
  | cons call calls ih =>
    cases call with
    | publishGameplayMessage q m =>
      show ((clientSession p).Accepts session (.published q m :: BrokerCall.effects calls) ↔ _) ∧
        (clientSession p).after session (.published q m :: BrokerCall.effects calls) = _
      rw [Monitor.accepts_cons, Monitor.after_cons]
      by_cases hq : q = p
      · have htold : told p (.publishGameplayMessage q m :: calls) = m :: told p calls :=
          List.filterMap_cons_some (if_pos hq)
        have hnext : (clientSession p).next session (.published q m) = telling.next session m :=
          if_pos hq
        rw [htold, hnext, Monitor.accepts_cons, Monitor.after_cons]
        exact ⟨and_congr ⟨fun h => h hq, fun h _ => h⟩ (ih _).1, (ih _).2⟩
      · have htold : told p (.publishGameplayMessage q m :: calls) = told p calls :=
          List.filterMap_cons_none (if_neg hq)
        have hnext : (clientSession p).next session (.published q m) = session := if_neg hq
        rw [htold, hnext]
        exact ⟨(and_iff_right fun h => absurd h hq).trans (ih _).1, (ih _).2⟩
    | _ => exact ih session

/-- What a client has been told so far fits its session, and the session is what the rooms are. -/
structure InSession (p : PlayerId) (gameplay : Gameplay) (effects : List Effect) : Prop where
  accepts : (clientSession p).Accepts .outside effects
  after : (clientSession p).after .outside effects = gameplay.session p
  one : gameplay.AtMostOneSeat p

/-- The effects of a step that lead from one session to the next. -/
theorem InSession.append (h : InSession p gameplay effects)
    (haccepts : (clientSession p).Accepts (gameplay.session p) told')
    (hafter : (clientSession p).after (gameplay.session p) told' = gameplay'.session p)
    (hone : gameplay'.AtMostOneSeat p) : InSession p gameplay' (effects ++ told') where
  accepts := by
    rw [Monitor.accepts_append, h.after]
    exact ⟨h.accepts, haccepts⟩
  after := by rw [Monitor.after_append, h.after, hafter]
  one := hone

/-- First it is known what a move means for the client, then the room tells. -/
theorem InSession.moved (h : InSession p gameplay effects)
    (hmoved : Moved gameplay gameplay' id e calls room room')
    (hjoin : ∀ nickname, e = .addPlayer p nickname → gameplay.Unseated p ∧ room.isFull = false)
    (known : List Effect) (hok : (clientSession p).Accepts (gameplay.session p) known)
    (hknown : (clientSession p).after (gameplay.session p) known =
      room.intent p (gameplay.session p) e) :
    InSession p gameplay' (effects ++ (known ++ BrokerCall.effects calls)) := by
  obtain ⟨haccepts, hafter, hone⟩ := hmoved.leads h.one hjoin
  rw [← hknown] at haccepts hafter
  obtain ⟨hiff, hsame⟩ :=
    @clientSession_effects p ((clientSession p).after (gameplay.session p) known) calls
  refine h.append ?_ ?_ hone
  · rw [Monitor.accepts_append]
    exact ⟨hok, hiff.2 haccepts⟩
  · rw [Monitor.after_append, hsame, hafter]

theorem InSession.idle (h : InSession p gameplay effects)
    (hrooms : gameplay'.roomManager = gameplay.roomManager)
    (haccepts : (clientSession p).Accepts (gameplay.session p) told')
    (hafter : (clientSession p).after (gameplay.session p) told' = gameplay.session p) :
    InSession p gameplay' (effects ++ told') := by
  have hsession : gameplay'.session p = gameplay.session p := by
    rw [session, session, hrooms]
  have hone : gameplay'.AtMostOneSeat p := by
    intro id id'
    rw [seats, seats, hrooms]
    exact h.one id id'
  exact h.append haccepts (hafter.trans hsession.symm) hone

/-- The client joins only while it has no seat; the others do what they like. -/
def joinsOutside (p : PlayerId) : Guard where
  connectivity _ _ _ := True
  action _ _ _ _ := True
  callback gameplay q m c _ := q = p → c = .gameplay → m.isJoinGame = true → gameplay.Unseated q

instance (p : PlayerId) (hub : MessageHub) (g : Gameplay) (message : PlayerConnectivityMessage) :
    Decidable ((joinsOutside p).connectivity hub g message) := inferInstanceAs (Decidable True)

instance (p : PlayerId) (g : Gameplay) (q : PlayerId) (m : PlayerActionMessage)
    (cs : List Subscriber) : Decidable ((joinsOutside p).action g q m cs) :=
  inferInstanceAs (Decidable True)

instance (p : PlayerId) (g : Gameplay) (q : PlayerId) (m : PlayerActionMessage) (c : Subscriber)
    (rest : List Subscriber) : Decidable ((joinsOutside p).callback g q m c rest) :=
  inferInstanceAs
    (Decidable (q = p → c = .gameplay → m.isJoinGame = true → g.Unseated q))

theorem InSession.joins (h : InSession p gameplay effects) (hinv : gameplay.Inv)
    {nickname : Bytes} {difficulty : GameDifficulty}
    (hfree : ∀ room, gameplay.part id = .alive room → room.isFull = false)
    (hdifficulty : ∀ room, gameplay'.part id = .alive room → room.config.difficulty = difficulty)
    (hmoves : Moves gameplay gameplay' id (.addPlayer q nickname) calls)
    (hguard : q = p → gameplay.Unseated q) : InSession p gameplay' (effects ++
      (.applied id q (.joinGame nickname difficulty) :: BrokerCall.effects calls)) := by
  obtain ⟨room, room', hmoved⟩ := hmoves.moved hinv.wellFormed
  have hfull : room.isFull = false := by
    rcases hmoved.before with hroom | ⟨-, hempty⟩
    · exact hfree room (part_of_room? hroom)
    · exact Room.isFull_of_isEmpty hempty
  have hroom' : (room.addPlayer q nickname).1 = room' :=
    congrArg Prod.fst (Except.ok.inj hmoved.step)
  have hconfig : room.config.difficulty = difficulty := by
    rcases hmoved.after with hroom | ⟨-, hempty⟩
    · rw [← Room.config_addPlayer room q nickname, hroom']
      exact hdifficulty room' (part_of_room? hroom)
    · have hseat := Room.seats_addPlayer hfull q nickname q
      rw [hroom', Room.isEmpty_iff_seats.1 hempty, if_pos rfl] at hseat
      omega
  refine h.moved hmoved (fun nickname' he => ?_) [_] ⟨fun hq => ?_, trivial⟩ ?_
  · cases he
    exact ⟨hguard rfl, hfull⟩
  · rw [session_of_unseated (hq ▸ hguard hq)]
  · rw [Room.intent, hconfig]
    rfl

theorem InSession.leaves (h : InSession p gameplay effects) (hinv : gameplay.Inv)
    (hseat : 0 < gameplay.seats q id)
    (hmoves : Moves gameplay gameplay' id (.removePlayer q) calls) :
    InSession p gameplay' (effects ++ (.applied id q .leaveGame :: BrokerCall.effects calls)) := by
  obtain ⟨room, room', hmoved⟩ := hmoves.moved hinv.wellFormed
  rw [seats_of_outcome hmoved.before] at hseat
  refine h.moved hmoved (fun nickname he => by cases he) [_] ⟨trivial, trivial⟩ ?_
  show (if q = p then Session.outside else _) = if q = p ∧ 0 < room.seats p then _ else _
  exact if_congr ⟨fun hq => ⟨hq, hq ▸ hseat⟩, And.left⟩ rfl rfl

theorem InSession.handles (h : InSession p gameplay effects) (hinv : gameplay.Inv)
    {now : ChronoTimePoint} (hroom : gameplay.roomManager.room? id = some room)
    (hmoves : Moves gameplay gameplay' id (.handlePlayerMessage q m now) calls) :
    InSession p gameplay' (effects ++
      ((if room.applies q m then [.applied id q m] else []) ++ BrokerCall.effects calls)) := by
  obtain ⟨room₁, room', hmoved⟩ := hmoves.moved hinv.wellFormed
  have hsame : room₁ = room := by
    rcases hmoved.before with hroom₁ | ⟨hnone, -⟩
    · exact Option.some.inj (hroom₁.symm.trans hroom)
    · cases hnone.symm.trans hroom
  subst hsame
  have hjoin : ∀ nickname, Room.Event.handlePlayerMessage q m now = .addPlayer p nickname →
      gameplay.Unseated p ∧ room₁.isFull = false := fun nickname he => by cases he
  cases happlies : room₁.applies q m with
  | true =>
    have happlied := Room.applies_eq_true_iff.1 happlies
    refine h.moved hmoved hjoin [.applied id q m] ⟨?_, trivial⟩ ?_
    · cases m with
      | joinGame nickname difficulty => cases happlied.1
      | _ => trivial
    · cases m with
      | joinGame nickname difficulty => cases happlied.1
      | leaveGame => exact if_congr ⟨fun hq => ⟨hq, hq ▸ happlied.2⟩, And.left⟩ rfl rfl
      | _ => rfl
  | false =>
    refine h.moved hmoved hjoin [] trivial ?_
    cases m with
    | leaveGame =>
      refine (if_neg ?_).symm
      rintro ⟨rfl, hseat⟩
      cases happlies.symm.trans (Room.applies_eq_true_iff.2 ⟨rfl, hseat⟩)
    | _ => rfl

theorem InSession.call (h : InSession p gameplay effects) (hinv : gameplay.Inv)
    (hguard : q = p → c = .gameplay → m.isJoinGame = true → gameplay.Unseated q)
    (hmoves : CallMoves q m gameplay gameplay' c told') :
    InSession p gameplay' (effects ++ told') := by
  cases hmoves with
  | idle c hsame =>
    subst hsame
    exact h.idle rfl trivial rfl
  | joins nickname difficulty id calls hm hfree hdifficulty hmoves =>
    subst hm
    exact h.joins hinv hfree hdifficulty hmoves fun hq => hguard hq rfl rfl
  | leaves id calls hm hseat hmoves =>
    subst hm
    exact h.leaves hinv hseat hmoves
  | handles id room now calls hroom hmoves => exact h.handles hinv hroom hmoves

theorem InSession.connectivity (h : InSession p gameplay effects) (hinv : gameplay.Inv)
    {message : PlayerConnectivityMessage}
    (hmoves : ConnectivityMoves gameplay gameplay' message told') :
    InSession p gameplay' (effects ++ told') := by
  cases hmoves with
  | idle message hseat hrooms =>
    refine h.idle hrooms ⟨trivial, trivial⟩ ?_
    show (if message = ⟨.disconnect, p⟩ then Session.outside else gameplay.session p) = _
    split_ifs with hmessage
    · subst hmessage
      exact (session_of_unseated (hseat rfl)).symm
    · rfl
  | leaves q id calls hseat hmoves =>
    obtain ⟨room, room', hmoved⟩ := hmoves.moved hinv.wellFormed
    rw [seats_of_outcome hmoved.before] at hseat
    have hjoin : ∀ nickname, Room.Event.removePlayer q = .addPlayer p nickname →
        gameplay.Unseated p ∧ room.isFull = false := fun nickname he => by cases he
    by_cases hq : q = p
    · subst hq
      obtain ⟨haccepts, hafter, hone⟩ := hmoved.leads h.one hjoin
      have hintent : room.intent q (gameplay.session q) (.removePlayer q) = .outside :=
        if_pos ⟨rfl, hseat⟩
      rw [hintent] at haccepts hafter
      have htold := telling_outside haccepts
      obtain ⟨hiff, hsame⟩ := @clientSession_effects q (gameplay.session q) calls
      rw [htold] at hiff hsame hafter
      refine h.append ?_ ?_ hone
      · rw [Monitor.accepts_append]
        exact ⟨hiff.2 trivial, trivial, trivial⟩
      · rw [Monitor.after_append, Monitor.after_cons, ← hafter]
        exact if_pos rfl
    · have hintent : room.intent p (gameplay.session p) (.removePlayer q) = gameplay.session p :=
        if_neg fun h => hq h.1
      have hpublished := h.moved hmoved hjoin [] trivial hintent.symm
      rw [List.nil_append] at hpublished
      rw [← List.append_assoc]
      refine hpublished.idle rfl ⟨trivial, trivial⟩ (if_neg fun heq => hq ?_)
      cases heq
      rfl

theorem tells_inSession (p : PlayerId) : Tells (joinsOutside p) (InSession p) where
  connectivity hinv h _ hstep := h.connectivity hinv (dispatchConnectivity_moves hstep)
  callback hinv h _ hguard hstep := h.call hinv hguard (call_moves hstep)
  popped h := h.idle rfl ⟨trivial, trivial⟩ rfl
  tick hinv h hstep := by
    rcases tickRoom_moves hstep with ⟨rfl, rfl⟩ | ⟨calls, hmoves, rfl⟩
    · exact h.idle rfl trivial rfl
    · obtain ⟨room, room', hmoved⟩ := hmoves.moved hinv.wellFormed
      exact h.moved hmoved (fun nickname he => by cases he) [] trivial rfl

/-- A client that joins only while it has no seat is told, whatever the other clients do, exactly
what one room tells it from a join to the next leave, and what it is told says where it is. -/
theorem session_of_run {p : PlayerId} {events : List System.Event} {system : System}
    (hguard : Along (System.step env) ((joinsOutside p).Step env) .new events)
    (hrun : run (System.step env) .new events = .ok (system, effects)) :
    InSession p system.gameplay effects :=
  (tells_inSession p).run ⟨trivial, rfl, AtMostOneSeat.of_unseated fun _ => rfl⟩ hguard hrun

theorem session_of_run_oneIsLeft :
    ∃ system effects, run (System.step stillEnvironment) .new oneIsLeft = .ok (system, effects) ∧
      InSession 1 system.gameplay effects := by
  have hguard : Along (System.step stillEnvironment) ((joinsOutside 1).Step stillEnvironment) .new
      oneIsLeft := by decide
  exact ⟨_, _, rfl, session_of_run hguard rfl⟩

end Gameplay
end SamuraiKirby
