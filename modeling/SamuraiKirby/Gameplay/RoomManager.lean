/-
The room manager: which rooms exist, and who owns them.

The source keeps rooms in a vector of `std::unique_ptr`, so a room lives exactly
while the vector holds it.  Here a room is held under the number of its
allocation.  The number is what a pointer to the room stands for: it is never
given to another room, so what is said of a number is said of one object.

Joining and leaving return the broker calls of the room they went to, together
with that room, which is the context of its subscriptions.
-/
import SamuraiKirby.Room.Seats
import Mathlib.Data.List.Nodup

namespace SamuraiKirby

abbrev RoomId := Nat

structure RoomManager where
  rooms : List (RoomId × Room)
  /-- The number of the next room to be allocated. -/
  nextRoom : RoomId
  nodup : (rooms.map Prod.fst).Nodup
  allocated : ∀ r ∈ rooms, r.1 < nextRoom

namespace RoomManager

def empty : RoomManager where
  rooms := []
  nextRoom := 0
  nodup := List.nodup_nil
  allocated := by simp

/-! ## The vector of rooms -/

/-- The room a pointer leads to, as long as it is owned. -/
def room? (manager : RoomManager) (id : RoomId) : Option Room :=
  (manager.rooms.find? (·.1 = id)).map Prod.snd

/-- Writing the room held under a number keeps the numbers. -/
theorem map_fst_write (rooms : List (RoomId × Room)) (id : RoomId) (room : Room) :
    (rooms.map fun r => if r.1 = id then (id, room) else r).map Prod.fst =
      rooms.map Prod.fst := by
  rw [List.map_map]
  apply List.map_congr_left
  intro r _
  by_cases hr : r.1 = id
  · simp [hr]
  · simp [hr]

/-- Write through the pointer to a room. -/
def setRoom (manager : RoomManager) (id : RoomId) (room : Room) : RoomManager :=
  { manager with
    rooms := manager.rooms.map fun r => if r.1 = id then (id, room) else r
    nodup := by
      rw [map_fst_write]
      exact manager.nodup
    allocated := by
      intro r hr
      have hmem := List.mem_map_of_mem (f := Prod.fst) hr
      rw [map_fst_write] at hmem
      obtain ⟨r', hr', heq⟩ := List.mem_map.1 hmem
      rw [← heq]
      exact manager.allocated r' hr' }

/-- `rooms.push_back(std::move(room))` -/
def pushRoom (manager : RoomManager) (room : Room) : RoomManager where
  rooms := manager.rooms ++ [(manager.nextRoom, room)]
  nextRoom := manager.nextRoom + 1
  nodup := by
    rw [List.map_append]
    refine List.nodup_append.2 ⟨manager.nodup, by simp, ?_⟩
    intro id hid id' hid' heq
    obtain ⟨r, hr, rfl⟩ := List.mem_map.1 hid
    have hlt := manager.allocated r hr
    rw [heq, List.mem_singleton.1 hid'] at hlt
    exact Nat.lt_irrefl _ hlt
  allocated := by
    intro r hr
    rcases List.mem_append.1 hr with hr | hr
    · exact Nat.lt_succ_of_lt (manager.allocated r hr)
    · rw [List.mem_singleton.1 hr]
      exact Nat.lt_succ_self _

/-- `rooms.erase(...)`, which destroys the room. -/
def eraseRoom (manager : RoomManager) (id : RoomId) : RoomManager :=
  { manager with
    rooms := manager.rooms.filter (·.1 ≠ id)
    nodup := manager.nodup.sublist (List.filter_sublist.map Prod.fst)
    allocated := fun r hr => manager.allocated r (List.mem_of_mem_filter hr) }

theorem eq_of_fst_eq (manager : RoomManager) {r r' : RoomId × Room} (hr : r ∈ manager.rooms)
    (hr' : r' ∈ manager.rooms) (h : r.1 = r'.1) : r = r' :=
  List.inj_on_of_nodup_map manager.nodup hr hr' h

theorem mem_setRoom {manager : RoomManager} {id : RoomId} {room : Room} {r : RoomId × Room} :
    r ∈ (manager.setRoom id room).rooms ↔
      ∃ r' ∈ manager.rooms, (if r'.1 = id then (id, room) else r') = r := List.mem_map

theorem room?_eq_some_iff {manager : RoomManager} {id : RoomId} {room : Room} :
    manager.room? id = some room ↔ (id, room) ∈ manager.rooms := by
  unfold room?
  rw [Option.map_eq_some_iff]
  constructor
  · rintro ⟨⟨id', room'⟩, hfind, rfl⟩
    have hid : id' = id := by simpa using List.find?_some hfind
    subst hid
    exact List.mem_of_find?_eq_some hfind
  · intro hmem
    cases hfind : manager.rooms.find? (·.1 = id) with
    | none => simpa using List.find?_eq_none.1 hfind _ hmem
    | some r =>
      have hid : r.1 = id := by simpa using List.find?_some hfind
      have heq : r = (id, room) :=
        manager.eq_of_fst_eq (List.mem_of_find?_eq_some hfind) hmem hid
      exact ⟨r, rfl, by rw [heq]⟩

theorem lt_nextRoom_of_room? {manager : RoomManager} {id : RoomId} {room : Room}
    (h : manager.room? id = some room) : id < manager.nextRoom :=
  manager.allocated _ (room?_eq_some_iff.1 h)

theorem room?_nextRoom (manager : RoomManager) : manager.room? manager.nextRoom = none := by
  cases h : manager.room? manager.nextRoom with
  | none => rfl
  | some room => exact absurd (lt_nextRoom_of_room? h) (Nat.lt_irrefl _)

/-- Two managers answer alike when their vectors hold the same rooms. -/
theorem room?_eq_of_mem_iff {manager manager' : RoomManager} {id id' : RoomId}
    (h : ∀ room, (id', room) ∈ manager'.rooms ↔ (id, room) ∈ manager.rooms) :
    manager'.room? id' = manager.room? id := by
  apply Option.ext
  intro room
  rw [room?_eq_some_iff, room?_eq_some_iff]
  exact h room

theorem room?_setRoom {manager : RoomManager} {id : RoomId} {old : Room}
    (h : manager.room? id = some old) (room : Room) (id' : RoomId) :
    (manager.setRoom id room).room? id' = if id' = id then some room else manager.room? id' := by
  by_cases hid : id' = id
  · subst hid
    rw [if_pos rfl, room?_eq_some_iff]
    exact mem_setRoom.2 ⟨(id', old), room?_eq_some_iff.1 h, if_pos rfl⟩
  · rw [if_neg hid]
    apply room?_eq_of_mem_iff
    intro r
    constructor
    · intro hmem
      obtain ⟨r', hr', heq⟩ := mem_setRoom.1 hmem
      by_cases hr : r'.1 = id
      · rw [if_pos hr] at heq
        exact absurd (congrArg Prod.fst heq).symm hid
      · rw [if_neg hr] at heq
        exact heq ▸ hr'
    · intro hmem
      exact mem_setRoom.2 ⟨(id', r), hmem, if_neg hid⟩

theorem room?_pushRoom (manager : RoomManager) (room : Room) (id : RoomId) :
    (manager.pushRoom room).room? id =
      if id = manager.nextRoom then some room else manager.room? id := by
  by_cases hid : id = manager.nextRoom
  · subst hid
    rw [if_pos rfl, room?_eq_some_iff]
    exact List.mem_append_right _ (List.mem_singleton_self _)
  · rw [if_neg hid]
    apply room?_eq_of_mem_iff
    intro r
    show (id, r) ∈ manager.rooms ++ [(manager.nextRoom, room)] ↔ _
    simp [hid]

theorem room?_eraseRoom (manager : RoomManager) (id id' : RoomId) :
    (manager.eraseRoom id).room? id' = if id' = id then none else manager.room? id' := by
  by_cases hid : id' = id
  · subst hid
    rw [if_pos rfl]
    apply Option.eq_none_iff_forall_ne_some.2
    intro room hroom
    have hmem := room?_eq_some_iff.1 hroom
    simpa using List.of_mem_filter hmem
  · rw [if_neg hid]
    apply room?_eq_of_mem_iff
    intro r
    show (id', r) ∈ manager.rooms.filter (·.1 ≠ id) ↔ _
    simp [hid]

/-! ## Joining and leaving -/

/-- The first room that is not full and has the difficulty, or else a new one, takes the
player.  `draw` supplies the random device for each room allocated. -/
def addPlayerToRoom (manager : RoomManager) (draw : RoomId → Nat) (playerId : PlayerId)
    (nickname : Bytes) (difficulty : GameDifficulty) : RoomManager × RoomId × List BrokerCall :=
  match manager.rooms.find? fun r => r.2.isFull = false ∧ r.2.config.difficulty = difficulty with
  | some (id, room) =>
    let (room', calls) := room.addPlayer playerId nickname
    (manager.setRoom id room', id, calls)
  | none =>
    let room := Room.new (.ofDifficulty difficulty (draw manager.nextRoom))
    let (room', calls) := room.addPlayer playerId nickname
    (manager.pushRoom room', manager.nextRoom, calls)

/-- The first room a player is found in. -/
def roomPlayerIsIn (manager : RoomManager) (playerId : PlayerId) : Option (RoomId × Room) :=
  manager.rooms.find? fun r => r.2.hasPlayerWithId playerId

/-- The player leaves the first room it is found in, which is erased when that leaves it empty. -/
def removePlayerFromRoom (manager : RoomManager) (playerId : PlayerId) :
    Option (RoomManager × RoomId × List BrokerCall) :=
  match manager.roomPlayerIsIn playerId with
  | none => none
  | some (id, room) =>
    let (room', calls) := room.removePlayer playerId
    let manager' := manager.setRoom id room'
    some (if room'.isEmpty then manager'.eraseRoom id else manager', id, calls)

/-- Who joins gets a seat in a room with a free slot, which exists already or is the next one
allocated. -/
theorem addPlayerToRoom_spec (manager : RoomManager) (draw : RoomId → Nat) (playerId : PlayerId)
    (nickname : Bytes) (difficulty : GameDifficulty) :
    ∃ room, room.isFull = false ∧
      (manager.addPlayerToRoom draw playerId nickname difficulty).2.2 =
        (room.addPlayer playerId nickname).2 ∧
      (∀ id, (manager.addPlayerToRoom draw playerId nickname difficulty).1.room? id =
        if id = (manager.addPlayerToRoom draw playerId nickname difficulty).2.1 then
          some (room.addPlayer playerId nickname).1
        else manager.room? id) ∧
      ((manager.room? (manager.addPlayerToRoom draw playerId nickname difficulty).2.1 = some room ∧
          (manager.addPlayerToRoom draw playerId nickname difficulty).1.nextRoom =
            manager.nextRoom) ∨
        ((manager.addPlayerToRoom draw playerId nickname difficulty).2.1 = manager.nextRoom ∧
          (∃ config, room = Room.new config) ∧
          (manager.addPlayerToRoom draw playerId nickname difficulty).1.nextRoom =
            manager.nextRoom + 1)) := by
  unfold addPlayerToRoom
  cases hfind : manager.rooms.find? fun r =>
      r.2.isFull = false ∧ r.2.config.difficulty = difficulty with
  | none =>
    refine ⟨Room.new (.ofDifficulty difficulty (draw manager.nextRoom)), rfl, rfl, ?_,
      Or.inr ⟨rfl, ⟨_, rfl⟩, rfl⟩⟩
    exact fun id => room?_pushRoom manager _ id
  | some r =>
    obtain ⟨id, room⟩ := r
    have htest : room.isFull = false ∧ room.config.difficulty = difficulty := by
      simpa using List.find?_some hfind
    have hroom : manager.room? id = some room :=
      room?_eq_some_iff.2 (List.mem_of_find?_eq_some hfind)
    exact ⟨room, htest.1, rfl, fun id' => room?_setRoom hroom _ id', Or.inl ⟨hroom, rfl⟩⟩

theorem roomPlayerIsIn_eq_some {manager : RoomManager} {playerId : PlayerId} {id : RoomId}
    {room : Room} (h : manager.roomPlayerIsIn playerId = some (id, room)) :
    manager.room? id = some room ∧ 0 < room.seats playerId := by
  have hfound : room.hasPlayerWithId playerId = true := by simpa using List.find?_some h
  exact ⟨room?_eq_some_iff.2 (List.mem_of_find?_eq_some h),
    Room.hasPlayerWithId_iff_seats.1 hfound⟩

theorem roomPlayerIsIn_eq_none_iff {manager : RoomManager} {playerId : PlayerId} :
    manager.roomPlayerIsIn playerId = none ↔
      ∀ id room, manager.room? id = some room → room.seats playerId = 0 := by
  unfold roomPlayerIsIn
  rw [List.find?_eq_none]
  constructor
  · intro h id room hroom
    have hnot := h _ (room?_eq_some_iff.1 hroom)
    exact Nat.eq_zero_of_not_pos fun hpos => hnot (Room.hasPlayerWithId_iff_seats.2 hpos)
  · intro h r hr hfound
    have hpos := Room.hasPlayerWithId_iff_seats.1 hfound
    have hzero := h r.1 r.2 (room?_eq_some_iff.2 hr)
    omega

/-- Who leaves gives up a seat in the room it is found in, which is erased exactly when this
leaves it empty. -/
theorem removePlayerFromRoom_of_some {manager : RoomManager} {playerId : PlayerId} {id : RoomId}
    {room : Room} (h : manager.roomPlayerIsIn playerId = some (id, room)) :
    ∃ manager', manager.removePlayerFromRoom playerId =
        some (manager', id, (room.removePlayer playerId).2) ∧
      manager'.nextRoom = manager.nextRoom ∧
      ∀ id', manager'.room? id' =
        if id' = id then
          if (room.removePlayer playerId).1.isEmpty then none
          else some (room.removePlayer playerId).1
        else manager.room? id' := by
  have hroom := (roomPlayerIsIn_eq_some h).1
  have heq : manager.removePlayerFromRoom playerId = some
      (if (room.removePlayer playerId).1.isEmpty then
        (manager.setRoom id (room.removePlayer playerId).1).eraseRoom id
      else manager.setRoom id (room.removePlayer playerId).1, id,
      (room.removePlayer playerId).2) := by
    rw [removePlayerFromRoom, h]
  refine ⟨_, heq, ?_, fun id' => ?_⟩
  · by_cases hempty : (room.removePlayer playerId).1.isEmpty = true
    · rw [if_pos hempty]
      rfl
    · rw [if_neg hempty]
      rfl
  · by_cases hempty : (room.removePlayer playerId).1.isEmpty = true
    · simp only [hempty, if_true, room?_eraseRoom, room?_setRoom hroom]
      by_cases hid : id' = id
      · rw [if_pos hid, if_pos hid]
      · rw [if_neg hid, if_neg hid, if_neg hid]
    · simp only [hempty, room?_setRoom hroom, Bool.false_eq_true, if_false]

/-- Writing back what a pointer leads to changes nothing. -/
theorem setRoom_self {manager : RoomManager} {id : RoomId} {room : Room}
    (h : manager.room? id = some room) : manager.setRoom id room = manager := by
  have hrooms : (manager.setRoom id room).rooms = manager.rooms := by
    show manager.rooms.map (fun r => if r.1 = id then (id, room) else r) = manager.rooms
    refine (List.map_congr_left fun r hr => ?_).trans (List.map_id _)
    by_cases hid : r.1 = id
    · rw [if_pos hid]
      exact manager.eq_of_fst_eq (room?_eq_some_iff.1 h) hr hid.symm
    · rw [if_neg hid]
      rfl
  cases manager
  simp only [setRoom, RoomManager.mk.injEq, and_true] at hrooms ⊢
  exact hrooms

end RoomManager

end SamuraiKirby
