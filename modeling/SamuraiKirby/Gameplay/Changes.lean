/-
What a step of gameplay changes, seen from the rosters and the subscriptions.

`seats` counts the slots of a room a player occupies, `entries` lists a player's
callbacks and `live` says which rooms exist.  Every call of a callback is one of
five cases (`CallCase`); in each of them these three views change in a fixed
way.  The invariants of the following files are case analyses over the five.
-/
import SamuraiKirby.Gameplay.Gameplay

namespace SamuraiKirby

/-! ## What a room's broker calls do to the table -/

namespace GameplayMessageBroker

/-- Performing broker calls appends the context as often as they subscribe the player. -/
theorem callbacksWithContext_perform (broker : GameplayMessageBroker Subscriber)
    (context : Subscriber) (calls : List BrokerCall) (q : PlayerId) :
    (broker.perform context calls).callbacksWithContext q =
      broker.callbacksWithContext q ++
        List.replicate (BrokerCall.subscriptions q calls) context := by
  induction calls generalizing broker with
  | nil => exact (List.append_nil _).symm
  | cons c calls ih =>
    cases c with
    | publishGameplayMessage p m =>
      rw [perform, ih]
      rfl
    | subscribeToPlayerActionMessages p =>
      rw [perform, ih, callbacksWithContext_subscribe, List.append_assoc]
      by_cases hq : q = p
      · subst hq
        rw [if_pos rfl, BrokerCall.subscriptions, BrokerCall.subscriptions, List.count_cons_self]
        rfl
      · rw [if_neg hq, BrokerCall.subscriptions, BrokerCall.subscriptions,
          List.count_cons_of_ne (by simpa using Ne.symm hq), List.nil_append]
    | unsubscribeToPlayerActionMessages p =>
      rw [perform, ih, callbacksWithContext_unsubscribe, BrokerCall.subscriptions,
        BrokerCall.subscriptions, List.count_cons_of_ne (by simp)]

/-- Calls about a player the table knows keep its keys. -/
theorem listeners_perform (broker : GameplayMessageBroker Subscriber) (context : Subscriber)
    {calls : List BrokerCall} {p : PlayerId} (hcalls : ∀ c ∈ calls, c.concerns p)
    (hp : p ∈ broker.listeners) : (broker.perform context calls).listeners = broker.listeners := by
  induction calls generalizing broker with
  | nil => rfl
  | cons c calls ih =>
    have htail : ∀ c ∈ calls, c.concerns p := fun c hc => hcalls c (List.mem_cons_of_mem _ hc)
    have hhead := hcalls c (List.mem_cons_self ..)
    cases c with
    | publishGameplayMessage q m => exact ih broker htail hp
    | subscribeToPlayerActionMessages q =>
      have hq : q = p := hhead
      subst hq
      have hkeys := broker.listeners_subscribe_of_mem hp context
      rw [perform, ih _ htail (by rw [hkeys]; exact hp), hkeys]
    | unsubscribeToPlayerActionMessages q =>
      have hq : q = p := hhead
      subst hq
      have hkeys := broker.listeners_unsubscribe_of_mem hp context
      rw [perform, ih _ htail (by rw [hkeys]; exact hp), hkeys]

end GameplayMessageBroker

namespace Room

theorem applies_of_seats {room : Room} {p : PlayerId} {m : PlayerActionMessage}
    (hseat : 0 < room.seats p)
    (hjoin : ∀ nickname difficulty, m ≠ .joinGame nickname difficulty) :
    room.applies p m = true := by
  have hfound : (room.getPlayerById p).isSome = true := by
    cases hg : room.getPlayerById p with
    | none =>
      rw [getPlayerById_eq_none_iff_seats] at hg
      omega
    | some found => rfl
  cases m with
  | joinGame nickname difficulty => exact absurd rfl (hjoin nickname difficulty)
  | _ => exact hfound

end Room

namespace Gameplay

/-! ## Views -/

/-- The callbacks a player's actions are dispatched to. -/
def entries (gameplay : Gameplay) (playerId : PlayerId) : List Subscriber :=
  gameplay.messageBroker.callbacksWithContext playerId

/-- The room is owned by the room manager. -/
def live (gameplay : Gameplay) (id : RoomId) : Prop :=
  (gameplay.roomManager.room? id).isSome = true

instance (gameplay : Gameplay) (id : RoomId) : Decidable (gameplay.live id) :=
  inferInstanceAs (Decidable (_ = true))

/-- How many slots of a room a player occupies, none in a room that does not exist. -/
def seats (gameplay : Gameplay) (playerId : PlayerId) (id : RoomId) : Nat :=
  ((gameplay.roomManager.room? id).map (·.seats playerId)).getD 0

/-- The player is alone in a room, in one slot. -/
def alone (gameplay : Gameplay) (playerId : PlayerId) (id : RoomId) : Prop :=
  ∃ room, gameplay.roomManager.room? id = some room ∧ room.recipients = [playerId]

def RoomsWellFormed (gameplay : Gameplay) : Prop :=
  ∀ id room, gameplay.roomManager.room? id = some room → room.WellFormed

theorem seats_of_room? {gameplay : Gameplay} {id : RoomId} {room : Room}
    (h : gameplay.roomManager.room? id = some room) (q : PlayerId) :
    gameplay.seats q id = room.seats q := by
  rw [seats, h]
  rfl

theorem live_of_room? {gameplay : Gameplay} {id : RoomId} {room : Room}
    (h : gameplay.roomManager.room? id = some room) : gameplay.live id := by
  rw [live, h]
  rfl

theorem live_of_seats {gameplay : Gameplay} {id : RoomId} {p : PlayerId}
    (h : 0 < gameplay.seats p id) : gameplay.live id := by
  unfold seats at h
  cases hroom : gameplay.roomManager.room? id with
  | none =>
    rw [hroom] at h
    exact absurd h (Nat.lt_irrefl 0)
  | some room => exact live_of_room? hroom

/-! ## Changes -/

/-- Nobody joined, nobody left, and no subscription was made. -/
structure Unmoved (gameplay gameplay' : Gameplay) : Prop where
  live : ∀ id, gameplay'.live id ↔ gameplay.live id
  seats : ∀ q id, gameplay'.seats q id = gameplay.seats q id
  entries : ∀ q, gameplay'.entries q = gameplay.entries q
  nextRoom : gameplay'.roomManager.nextRoom = gameplay.roomManager.nextRoom
  wellFormed : gameplay.RoomsWellFormed → gameplay'.RoomsWellFormed

/-- The player took a seat in a room, which exists already or is new, and the room subscribed
to the player. -/
structure Joined (p : PlayerId) (id : RoomId) (gameplay gameplay' : Gameplay) : Prop where
  live : ∀ id', gameplay'.live id' ↔ gameplay.live id' ∨ id' = id
  seats : ∀ q id', gameplay'.seats q id' =
    gameplay.seats q id' + if q = p ∧ id' = id then 1 else 0
  entries : ∀ q, gameplay'.entries q =
    gameplay.entries q ++ if q = p then [.room id] else []
  fresh : gameplay.live id ∨ id = gameplay.roomManager.nextRoom
  lt : id < gameplay'.roomManager.nextRoom
  nextRoom : gameplay.roomManager.nextRoom ≤ gameplay'.roomManager.nextRoom
  wellFormed : gameplay.RoomsWellFormed → gameplay'.RoomsWellFormed

/-- The player gave up a seat in a room, which was erased if `erased` says so.  The
subscription is still there. -/
structure Left (erased : Prop) (p : PlayerId) (id : RoomId)
    (gameplay gameplay' : Gameplay) : Prop where
  live : ∀ id', gameplay'.live id' ↔ gameplay.live id' ∧ ¬ (id' = id ∧ erased)
  seats : ∀ q id', gameplay'.seats q id' + (if q = p ∧ id' = id then 1 else 0) =
    gameplay.seats q id'
  entries : ∀ q, gameplay'.entries q = gameplay.entries q
  nextRoom : gameplay'.roomManager.nextRoom = gameplay.roomManager.nextRoom
  wellFormed : gameplay.RoomsWellFormed → gameplay'.RoomsWellFormed

theorem unmoved_refl (gameplay : Gameplay) : Unmoved gameplay gameplay :=
  ⟨fun _ => Iff.rfl, fun _ _ => rfl, fun _ => rfl, rfl, id⟩

theorem Left.seat_pos {erased : Prop} {p : PlayerId} {id : RoomId} {gameplay gameplay' : Gameplay}
    (h : Left erased p id gameplay gameplay') : 0 < gameplay.seats p id := by
  have hseats := h.seats p id
  rw [if_pos ⟨rfl, rfl⟩] at hseats
  omega

theorem entries_commit (gameplay : Gameplay) (manager : RoomManager) (id : RoomId)
    (calls : List BrokerCall) (q : PlayerId) :
    (gameplay.commit manager id calls).entries q =
      gameplay.entries q ++ List.replicate (BrokerCall.subscriptions q calls) (.room id) :=
  GameplayMessageBroker.callbacksWithContext_perform gameplay.messageBroker (.room id) calls q

/-- The seats after one room has been rewritten, in that room and in the others. -/
theorem seats_of_rewrite {gameplay gameplay' : Gameplay} {id : RoomId} {room' : Room}
    (h : ∀ id', gameplay'.roomManager.room? id' =
      if id' = id then some room' else gameplay.roomManager.room? id') (q : PlayerId)
    (id' : RoomId) :
    gameplay'.seats q id' = if id' = id then room'.seats q else gameplay.seats q id' := by
  unfold seats
  rw [h]
  by_cases hid : id' = id
  · rw [if_pos hid, if_pos hid]
    rfl
  · rw [if_neg hid, if_neg hid]

theorem live_of_rewrite {gameplay gameplay' : Gameplay} {id : RoomId} {room' : Room}
    (h : ∀ id', gameplay'.roomManager.room? id' =
      if id' = id then some room' else gameplay.roomManager.room? id') (id' : RoomId) :
    gameplay'.live id' ↔ gameplay.live id' ∨ id' = id := by
  unfold live
  rw [h]
  by_cases hid : id' = id
  · rw [if_pos hid]
    simp [hid]
  · rw [if_neg hid]
    simp [hid]

theorem wellFormed_of_rewrite {gameplay gameplay' : Gameplay} {id : RoomId} {room' : Room}
    (h : ∀ id', gameplay'.roomManager.room? id' =
      if id' = id then some room' else gameplay.roomManager.room? id')
    (hroom' : room'.WellFormed) (hwf : gameplay.RoomsWellFormed) : gameplay'.RoomsWellFormed := by
  intro id' r hr
  rw [h] at hr
  by_cases hid : id' = id
  · rw [if_pos hid] at hr
    exact Option.some.inj hr ▸ hroom'
  · rw [if_neg hid] at hr
    exact hwf id' r hr

/-- A room rewritten in place with the same players, which only publishes. -/
theorem unmoved_of_rewrite {gameplay gameplay' : Gameplay} {id : RoomId} {room room' : Room}
    (hroom : gameplay.roomManager.room? id = some room)
    (hmanager : gameplay'.roomManager = gameplay.roomManager.setRoom id room')
    (hrec : room'.recipients = room.recipients) (hwf : room.WellFormed → room'.WellFormed)
    (hentries : ∀ q, gameplay'.entries q = gameplay.entries q) : Unmoved gameplay gameplay' := by
  have hroom? : ∀ id', gameplay'.roomManager.room? id' =
      if id' = id then some room' else gameplay.roomManager.room? id' := by
    intro id'
    rw [hmanager, RoomManager.room?_setRoom hroom]
  refine ⟨fun id' => ?_, fun q id' => ?_, hentries, by rw [hmanager]; rfl,
    fun h => wellFormed_of_rewrite hroom? (hwf (h id room hroom)) h⟩
  · rw [live_of_rewrite hroom?]
    constructor
    · rintro (h | rfl)
      · exact h
      · exact live_of_room? hroom
    · exact Or.inl
  · rw [seats_of_rewrite hroom?]
    by_cases hid : id' = id
    · rw [if_pos hid, hid, seats_of_room? hroom, Room.seats_congr hrec]
    · rw [if_neg hid]

/-- A room rewritten in place after one player left it. -/
theorem left_of_rewrite {gameplay gameplay' : Gameplay} {id : RoomId} {room room' : Room}
    {p : PlayerId} (hroom : gameplay.roomManager.room? id = some room)
    (hmanager : gameplay'.roomManager = gameplay.roomManager.setRoom id room')
    (hleft : ∀ q, room'.seats q + (if q = p then 1 else 0) = room.seats q)
    (hwf : room.WellFormed → room'.WellFormed)
    (hentries : ∀ q, gameplay'.entries q = gameplay.entries q) :
    Left False p id gameplay gameplay' := by
  have hroom? : ∀ id', gameplay'.roomManager.room? id' =
      if id' = id then some room' else gameplay.roomManager.room? id' := by
    intro id'
    rw [hmanager, RoomManager.room?_setRoom hroom]
  refine ⟨fun id' => ?_, fun q id' => ?_, hentries, by rw [hmanager]; rfl,
    fun h => wellFormed_of_rewrite hroom? (hwf (h id room hroom)) h⟩
  · rw [live_of_rewrite hroom?]
    constructor
    · rintro (h | rfl)
      · exact ⟨h, fun h => h.2⟩
      · exact ⟨live_of_room? hroom, fun h => h.2⟩
    · exact fun h => Or.inl h.1
  · rw [seats_of_rewrite hroom?]
    by_cases hid : id' = id
    · simpa [hid, seats_of_room? hroom] using hleft q
    · simp [hid]

theorem joined_addPlayerToRoom (gameplay : Gameplay) (draw : RoomId → Nat) (p : PlayerId)
    (nickname : Bytes) (difficulty : GameDifficulty) {manager : RoomManager} {id : RoomId}
    {calls : List BrokerCall}
    (h : gameplay.roomManager.addPlayerToRoom draw p nickname difficulty = (manager, id, calls)) :
    Joined p id gameplay (gameplay.commit manager id calls) := by
  obtain ⟨room, hfull, hcalls, hroom?, hknown⟩ :=
    gameplay.roomManager.addPlayerToRoom_spec draw p nickname difficulty
  rw [h] at hcalls hroom? hknown
  simp only at hcalls hroom? hknown
  have hseats : gameplay.seats = fun q id' => if id' = id then room.seats q
      else gameplay.seats q id' := by
    funext q id'
    by_cases hid : id' = id
    · rw [if_pos hid, hid]
      rcases hknown with ⟨hroom, -⟩ | ⟨hnext, ⟨config, hnew⟩, -⟩
      · exact seats_of_room? hroom q
      · rw [hnew, Room.seats_new, seats, hnext, RoomManager.room?_nextRoom]
        rfl
    · rw [if_neg hid]
  have hrewrite : ∀ id', (gameplay.commit manager id calls).roomManager.room? id' =
      if id' = id then some (room.addPlayer p nickname).1 else gameplay.roomManager.room? id' :=
    hroom?
  refine ⟨live_of_rewrite hrewrite,
    fun q id' => ?_, fun q => ?_, ?_, ?_, ?_, fun hwf => ?_⟩
  · rw [seats_of_rewrite hrewrite, hseats]
    by_cases hid : id' = id
    · simp only [hid, if_true, Room.seats_addPlayer hfull, and_true]
    · simp only [hid, if_false, and_false, Nat.add_zero]
  · rw [entries_commit, hcalls, Room.subscriptions_addPlayer hfull]
    by_cases hq : q = p
    · rw [if_pos hq, if_pos hq]
      rfl
    · rw [if_neg hq, if_neg hq]
      rfl
  · rcases hknown with ⟨hroom, -⟩ | ⟨hnext, -⟩
    · exact Or.inl (live_of_room? hroom)
    · exact Or.inr hnext
  · show id < manager.nextRoom
    rcases hknown with ⟨hroom, hsame⟩ | ⟨hnext, -, hsucc⟩
    · rw [hsame]
      exact RoomManager.lt_nextRoom_of_room? hroom
    · rw [hsucc, hnext]
      exact Nat.lt_succ_self _
  · show gameplay.roomManager.nextRoom ≤ manager.nextRoom
    rcases hknown with ⟨-, hsame⟩ | ⟨-, -, hsucc⟩
    · exact Nat.le_of_eq hsame.symm
    · rw [hsucc]
      exact Nat.le_succ _
  · refine wellFormed_of_rewrite hrewrite (Room.WellFormed.addPlayer ?_ p nickname) hwf
    rcases hknown with ⟨hroom, -⟩ | ⟨-, ⟨config, hnew⟩, -⟩
    · exact hwf id room hroom
    · rw [hnew]
      exact Room.wellFormed_new config

theorem left_removePlayerFromRoom {gameplay : Gameplay} (hwf : gameplay.RoomsWellFormed)
    {p : PlayerId} {id : RoomId} {room : Room}
    (h : gameplay.roomManager.roomPlayerIsIn p = some (id, room)) :
    ∃ gameplay', gameplay.removePlayerFromRoom p =
        (gameplay', some id, BrokerCall.effects (room.removePlayer p).2) ∧
      Left (gameplay.alone p id) p id gameplay gameplay' := by
  obtain ⟨hroom, hseat⟩ := RoomManager.roomPlayerIsIn_eq_some h
  obtain ⟨manager, hremove, hnext, hroom?⟩ := RoomManager.removePlayerFromRoom_of_some h
  have halone : (room.removePlayer p).1.isEmpty = true ↔ gameplay.alone p id := by
    rw [Room.isEmpty_removePlayer_iff (hwf id room hroom) hseat]
    constructor
    · exact fun hrec => ⟨room, hroom, hrec⟩
    · rintro ⟨room', hroom', hrec⟩
      rw [hroom] at hroom'
      cases hroom'
      exact hrec
  refine ⟨gameplay.commit manager id (room.removePlayer p).2, ?_, fun id' => ?_,
    fun q id' => ?_, fun q => ?_, hnext, fun _ id' r hr => ?_⟩
  · rw [removePlayerFromRoom, hremove]
  · show ((manager.room? id').isSome = true) ↔ _
    rw [hroom?, ← halone]
    by_cases hid : id' = id
    · subst hid
      by_cases hempty : (room.removePlayer p).1.isEmpty = true
      · simp [hempty]
      · simp [hempty, live_of_room? hroom]
    · simp [hid, live]
  · show ((manager.room? id').map (·.seats q)).getD 0 + _ = _
    rw [hroom?]
    by_cases hid : id' = id
    · subst hid
      have hleft := Room.seats_removePlayer (hwf id' room hroom) hseat q
      rw [seats_of_room? hroom]
      by_cases hempty : (room.removePlayer p).1.isEmpty = true
      · rw [Room.isEmpty_iff_seats.1 hempty q] at hleft
        simpa [hempty] using hleft
      · simpa [hempty] using hleft
    · simp [hid, seats]
  · rw [entries_commit, Room.subscriptions_removePlayer]
    exact List.append_nil _
  · have hr' : manager.room? id' = some r := hr
    rw [hroom?] at hr'
    by_cases hid : id' = id
    · rw [if_pos hid] at hr'
      by_cases hempty : (room.removePlayer p).1.isEmpty = true
      · rw [if_pos hempty] at hr'
        cases hr'
      · rw [if_neg hempty] at hr'
        exact Option.some.inj hr' ▸ (hwf id room hroom).removePlayer p
    · rw [if_neg hid] at hr'
      exact hwf id' r hr'

theorem removePlayerFromRoom_of_none {gameplay : Gameplay} {p : PlayerId}
    (h : gameplay.roomManager.roomPlayerIsIn p = none) :
    gameplay.removePlayerFromRoom p = (gameplay, none, []) := by
  rw [removePlayerFromRoom, RoomManager.removePlayerFromRoom, h]

theorem roomPlayerIsIn_eq_none_iff_seats {gameplay : Gameplay} {p : PlayerId} :
    gameplay.roomManager.roomPlayerIsIn p = none ↔ ∀ id, gameplay.seats p id = 0 := by
  rw [RoomManager.roomPlayerIsIn_eq_none_iff]
  constructor
  · intro h id
    cases hroom : gameplay.roomManager.room? id with
    | none => simp [seats, hroom]
    | some room => exact (seats_of_room? hroom p).trans (h id room hroom)
  · intro h id room hroom
    exact (seats_of_room? hroom p).symm.trans (h id)

/-- The player sits in no room. -/
def Unseated (gameplay : Gameplay) (p : PlayerId) : Prop := ∀ id, gameplay.seats p id = 0

instance (gameplay : Gameplay) (p : PlayerId) : Decidable (gameplay.Unseated p) :=
  decidable_of_iff (gameplay.roomManager.roomPlayerIsIn p = none) roomPlayerIsIn_eq_none_iff_seats

/-! ## The five cases of a call -/

/-- What a callback of `p` can do with the message `m`. -/
inductive CallCase (p : PlayerId) (m : PlayerActionMessage) (gameplay : Gameplay) :
    Subscriber → Gameplay → List Effect → Prop where
  /-- The message does not concern the callback, or its sender sits nowhere it looks. -/
  | ignored (c : Subscriber) (hlive : ∀ id, c = .room id → gameplay.live id)
      (hjoin : ∀ nickname difficulty, c = .gameplay → m ≠ .joinGame nickname difficulty)
      (hleave : c = .gameplay → m = .leaveGame → ∀ id, gameplay.seats p id = 0)
      (hroom : ∀ id, c = .room id →
        (∃ nickname difficulty, m = .joinGame nickname difficulty) ∨ gameplay.seats p id = 0) :
      CallCase p m gameplay c gameplay []
  /-- Gameplay seats the sender. -/
  | joined (nickname : Bytes) (difficulty : GameDifficulty) (id : RoomId)
      (calls : List BrokerCall) (gameplay' : Gameplay) (hm : m = .joinGame nickname difficulty)
      (h : Joined p id gameplay gameplay') :
      CallCase p m gameplay .gameplay gameplay' (.applied id p m :: BrokerCall.effects calls)
  /-- Gameplay makes the sender leave the first room it is found in. -/
  | left (id : RoomId) (room : Room) (calls : List BrokerCall) (gameplay' : Gameplay)
      (hm : m = .leaveGame)
      (hfirst : gameplay.roomManager.roomPlayerIsIn p = some (id, room))
      (h : Left (gameplay.alone p id) p id gameplay gameplay') :
      CallCase p m gameplay .gameplay gameplay' (.applied id p m :: BrokerCall.effects calls)
  /-- A room makes the sender leave. -/
  | leftRoom (id : RoomId) (calls : List BrokerCall) (gameplay' : Gameplay) (hm : m = .leaveGame)
      (h : Left False p id gameplay gameplay') :
      CallCase p m gameplay (.room id) gameplay' (.applied id p m :: BrokerCall.effects calls)
  /-- A room handles the message of one of its players. -/
  | handled (id : RoomId) (calls : List BrokerCall) (gameplay' : Gameplay)
      (hjoin : ∀ nickname difficulty, m ≠ .joinGame nickname difficulty) (hleave : m ≠ .leaveGame)
      (hlive : gameplay.live id) (hseat : 0 < gameplay.seats p id)
      (h : Unmoved gameplay gameplay') :
      CallCase p m gameplay (.room id) gameplay' (.applied id p m :: BrokerCall.effects calls)

variable {env : Environment} {gameplay gameplay' : Gameplay} {p : PlayerId}
  {m : PlayerActionMessage} {c : Subscriber} {effects : List Effect}

theorem handlePlayerMessage_cases (hwf : gameplay.RoomsWellFormed) :
    CallCase p m gameplay .gameplay (gameplay.handlePlayerMessage env p m).1
      (gameplay.handlePlayerMessage env p m).2 := by
  have hother : (∀ nickname difficulty, m ≠ .joinGame nickname difficulty) → m ≠ .leaveGame →
      CallCase p m gameplay .gameplay gameplay [] := fun hjoin hleave =>
    .ignored .gameplay (fun _ h => by cases h) (fun n d _ => hjoin n d)
      (fun _ h => absurd h hleave) (fun _ h => by cases h)
  cases m with
  | joinGame nickname difficulty =>
    exact .joined nickname difficulty _ _ _ rfl
      (joined_addPlayerToRoom gameplay env.draw p nickname difficulty rfl)
  | leaveGame =>
    cases hfirst : gameplay.roomManager.roomPlayerIsIn p with
    | none =>
      rw [handlePlayerMessage, removePlayerFromRoom_of_none hfirst]
      exact .ignored .gameplay (fun _ h => by cases h) (fun _ _ _ h => by cases h)
        (fun _ _ => roomPlayerIsIn_eq_none_iff_seats.1 hfirst) (fun _ h => by cases h)
    | some found =>
      obtain ⟨id, room⟩ := found
      obtain ⟨gameplay', hremove, hleft⟩ := left_removePlayerFromRoom hwf hfirst
      rw [handlePlayerMessage, hremove]
      exact .left id room _ gameplay' rfl hfirst hleft
  | _ => exact hother (fun _ _ h => by cases h) (fun h => by cases h)

theorem handleRoomMessage_of_dead {id : RoomId} (h : ¬ gameplay.live id) :
    gameplay.handleRoomMessage env id p m = .error (.useAfterFree id) := by
  unfold live at h
  unfold handleRoomMessage
  cases hroom : gameplay.roomManager.room? id with
  | none => rfl
  | some room => exact absurd (by rw [hroom]; rfl) h

theorem commit_setRoom_self {id : RoomId} {room : Room}
    (h : gameplay.roomManager.room? id = some room) :
    gameplay.commit (gameplay.roomManager.setRoom id room) id [] = gameplay := by
  rw [RoomManager.setRoom_self h]
  rfl

/-- A live room that ignores a message leaves everything as it was. -/
theorem handleRoomMessage_of_ignored {id : RoomId} {room : Room}
    (hroom : gameplay.roomManager.room? id = some room)
    (hm : (∃ nickname difficulty, m = .joinGame nickname difficulty) ∨ room.seats p = 0) :
    gameplay.handleRoomMessage env id p m = .ok (gameplay, []) := by
  have hcall : ∀ now, room.handlePlayerMessage p m now = (room, []) := by
    intro now
    rcases hm with ⟨nickname, difficulty, rfl⟩ | hseat
    · exact Room.handlePlayerMessage_joinGame room p nickname difficulty now
    · exact Room.handlePlayerMessage_of_absent hseat m now
  have hclock : room.readsClock p m = false := by
    rcases hm with ⟨nickname, difficulty, rfl⟩ | hseat
    · rfl
    · cases m <;> simp [Room.readsClock, Room.getPlayerById_eq_none_iff_seats.2 hseat]
  have happlies : room.applies p m = false := by
    rcases hm with ⟨nickname, difficulty, rfl⟩ | hseat
    · rfl
    · cases m <;> simp [Room.applies, Room.getPlayerById_eq_none_iff_seats.2 hseat]
  unfold handleRoomMessage
  rw [hroom]
  simp only [hcall, hclock, happlies, Bool.false_eq_true, if_false, Nat.add_zero,
    commit_setRoom_self hroom]
  rfl

theorem handleRoomMessage_cases (hwf : gameplay.RoomsWellFormed) {id : RoomId} {room : Room}
    (hroom : gameplay.roomManager.room? id = some room) :
    ∃ gameplay' effects, gameplay.handleRoomMessage env id p m = .ok (gameplay', effects) ∧
      CallCase p m gameplay (.room id) gameplay' effects := by
  by_cases hm : (∃ nickname difficulty, m = .joinGame nickname difficulty) ∨ room.seats p = 0
  · refine ⟨gameplay, [], handleRoomMessage_of_ignored hroom hm, ?_⟩
    refine .ignored (.room id) (fun id' h => ?_) (fun _ _ h => by cases h)
      (fun h => by cases h) (fun id' h => ?_)
    · cases h
      exact live_of_room? hroom
    · cases h
      rw [seats_of_room? hroom]
      exact hm
  · simp only [not_or, not_exists] at hm
    obtain ⟨hjoin, hne⟩ := hm
    have hseat : 0 < room.seats p := Nat.pos_of_ne_zero hne
    have hok : gameplay.handleRoomMessage env id p m = .ok
        ({ gameplay.commit (gameplay.roomManager.setRoom id
              (room.handlePlayerMessage p m (env.now gameplay.clockReads)).1) id
              (room.handlePlayerMessage p m (env.now gameplay.clockReads)).2 with
            clockReads := gameplay.clockReads + if room.readsClock p m then 1 else 0 },
          .applied id p m :: BrokerCall.effects
            (room.handlePlayerMessage p m (env.now gameplay.clockReads)).2) := by
      rw [handleRoomMessage, hroom]
      simp only [Room.applies_of_seats hseat hjoin, if_true]
      rfl
    refine ⟨_, _, hok, ?_⟩
    have hentries : ∀ q, (gameplay.commit (gameplay.roomManager.setRoom id
        (room.handlePlayerMessage p m (env.now gameplay.clockReads)).1) id
        (room.handlePlayerMessage p m (env.now gameplay.clockReads)).2).entries q =
          gameplay.entries q := by
      intro q
      rw [entries_commit, Room.subscriptions_handlePlayerMessage]
      exact List.append_nil _
    by_cases hleave : m = .leaveGame
    · refine .leftRoom id _ _ hleave (left_of_rewrite hroom rfl (fun q => ?_)
        (fun h => h.handlePlayerMessage p m _) hentries)
      rw [hleave, Room.handlePlayerMessage_leaveGame]
      exact Room.seats_removePlayer (hwf id room hroom) hseat q
    · exact .handled id _ _ hjoin hleave (live_of_room? hroom)
        (by rw [seats_of_room? hroom]; exact hseat)
        (unmoved_of_rewrite hroom rfl (Room.recipients_handlePlayerMessage room p hleave _)
          (fun h => h.handlePlayerMessage p m _) hentries)

theorem call_of_dead {id : RoomId} (h : ¬ gameplay.live id) :
    gameplay.call env p m (.room id) = .error (.useAfterFree id) := handleRoomMessage_of_dead h

/-- A call succeeds unless the callback belongs to a room that is gone. -/
theorem call_ok (env : Environment) (hwf : gameplay.RoomsWellFormed)
    (hlive : ∀ id, c = .room id → gameplay.live id) :
    ∃ gameplay' effects, gameplay.call env p m c = .ok (gameplay', effects) ∧
      CallCase p m gameplay c gameplay' effects := by
  cases c with
  | gameplay => exact ⟨_, _, rfl, handlePlayerMessage_cases hwf⟩
  | room id =>
    obtain ⟨room, hroom⟩ := Option.isSome_iff_exists.1 (hlive id rfl)
    exact handleRoomMessage_cases hwf hroom

theorem call_cases (hwf : gameplay.RoomsWellFormed)
    (h : gameplay.call env p m c = .ok (gameplay', effects)) :
    CallCase p m gameplay c gameplay' effects := by
  have hlive : ∀ id, c = .room id → gameplay.live id := by
    intro id hc
    by_cases hlive : gameplay.live id
    · exact hlive
    · rw [hc, call_of_dead hlive] at h
      cases h
  obtain ⟨gameplay₁, effects₁, hok, hcase⟩ := call_ok env hwf hlive
  rw [h] at hok
  cases hok
  exact hcase

end Gameplay

end SamuraiKirby
