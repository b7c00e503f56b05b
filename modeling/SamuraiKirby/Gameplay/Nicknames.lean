/-
Where nicknames come from.

A nickname enters the game with a `joinGame` action, is kept in a slot and is
copied into messages.  So whatever holds of the nicknames that clients join with
holds of all that the rooms publish (`nicknames_of_effects`).

A dispatch that ends in a fault has published something before it.  The effects
of a run are listed here up to the fault.
-/
import SamuraiKirby.Gameplay.Matchmaking

namespace SamuraiKirby

variable (P : Bytes → Prop)

def GameplayMessage.AllNicknames (message : GameplayMessage) : Prop :=
  ∀ nickname ∈ message.nicknames, P nickname

def PlayerActionMessage.AllNicknames (message : PlayerActionMessage) : Prop :=
  ∀ nickname ∈ message.nickname?, P nickname

def BrokerCall.AllNicknames : BrokerCall → Prop
  | .publishGameplayMessage _ message => message.AllNicknames P
  | _ => True

def Effect.AllNicknames : Effect → Prop
  | .published _ message => message.AllNicknames P
  | _ => True

def Room.AllNicknames (room : Room) : Prop :=
  ∀ a p, room.players.get a = some p → P p.nickname

def Gameplay.AllNicknames (gameplay : Gameplay) : Prop :=
  ∀ id room, gameplay.roomManager.room? id = some room → room.AllNicknames P

variable {P}

/-! ## Rooms -/

/-- What a tick broadcasts carries no nickname. -/
theorem GameplayMessage.nicknames_of_isForBoth {m : GameplayMessage} (h : m.isForBoth = true) :
    m.nicknames = [] := by
  cases m <;> first | rfl | cases h

namespace Room

variable {room room' : Room} {calls : List BrokerCall} {clock : Readings} {draw : Nat}
  {ms : List GameplayMessage}

theorem allNicknames_new (config : RoomConfig) : (new config).AllNicknames P := by
  intro a p hp
  rw [get_new] at hp
  cases hp

theorem allNicknames_broadcast (room : Room) {m : GameplayMessage} (hm : m.AllNicknames P) :
    ∀ c ∈ room.broadcastGameplayMessage m, c.AllNicknames P := by
  intro c hc
  rw [broadcastGameplayMessage_eq] at hc
  obtain ⟨id, -, rfl⟩ := List.mem_map.1 hc
  exact hm

theorem AllNicknames.modifyPlayer (h : room.AllNicknames P) {slot : PlayerAssignment}
    {f : Player → Player} (hf : ∀ p, (f p).nickname = p.nickname) :
    (room.modifyPlayer slot f).AllNicknames P := by
  intro a p hp
  obtain ⟨q, hq, heq⟩ := of_get_modifyPlayer_field Player.nickname hf hp
  rw [heq]
  exact h a q hq

/-- The nicknames of a room are those it had and the one it is joined with. -/
theorem Change.allNicknames {h : Happening} (hchange : Change room h room' calls)
    (hroom : room.AllNicknames P)
    (hjoin : ∀ slot id nickname, h = .joins slot id nickname → P nickname) :
    room'.AllNicknames P ∧ ∀ c ∈ calls, c.AllNicknames P := by
  cases hchange with
  | nothing => exact ⟨hroom, fun c hc => absurd hc List.not_mem_nil⟩
  | joins slot id nickname hs hfree =>
    have hnew := hjoin slot id nickname rfl
    constructor
    · intro a p hp
      rcases of_get_occupy hp with ⟨-, rfl⟩ | ⟨-, hp⟩
      · exact hnew
      · exact hroom a p hp
    · intro c hc
      simp only [List.cons_append, List.mem_cons, List.mem_append, List.mem_map,
        List.not_mem_nil, or_false, Option.mem_toList] at hc
      rcases hc with rfl | ⟨other, hother, rfl⟩ | rfl
      · intro n hn
        simp only [GameplayMessage.nicknames, List.mem_map, Option.mem_toList] at hn
        obtain ⟨dto, hdto, rfl⟩ := hn
        obtain ⟨other, hother, rfl⟩ := Option.map_eq_some_iff.1 hdto
        exact hroom slot.other other hother
      · intro n hn
        rw [List.mem_singleton.1 hn]
        exact hnew
      · trivial
  | leaves slot p hp =>
    constructor
    · intro a q hq
      obtain ⟨-, q', hq', rfl⟩ := of_get_vacate hq
      exact hroom a q' hq'
    · intro c hc
      rcases List.mem_cons.1 hc with rfl | hc
      · trivial
      · exact allNicknames_broadcast _ (fun n hn => absurd hn List.not_mem_nil) c hc
  | setsReady slot p isReady hs hp =>
    exact ⟨hroom.modifyPlayer fun _ => rfl,
      allNicknames_broadcast _ fun n hn => absurd hn List.not_mem_nil⟩
  | canPlay slot p hp =>
    exact ⟨hroom.modifyPlayer fun _ => rfl, fun c hc => absurd hc List.not_mem_nil⟩
  | presses slot p inputPressed timeToPress now hp =>
    exact ⟨hroom.modifyPlayer fun _ => rfl, fun c hc => absurd hc List.not_mem_nil⟩
  | setsReplayReady slot p isReadyToReplay hp =>
    exact ⟨hroom.modifyPlayer fun _ => rfl,
      allNicknames_broadcast _ fun n hn => absurd hn List.not_mem_nil⟩

theorem Turn.allNicknames {handler : Handler} (hroom : room.AllNicknames P)
    (ht : Turn clock draw room handler room' ms) : room'.AllNicknames P := by
  cases ht with
  | replay =>
    intro a p hp
    obtain ⟨q, hq, rfl⟩ := of_get_map hp
    exact hroom a q hq
  | _ => exact hroom

theorem addPlayer_allNicknames (h : WellFormed room) (hroom : room.AllNicknames P) {id : PlayerId}
    {nickname : Bytes} (hnickname : P nickname) :
    (room.addPlayer id nickname).1.AllNicknames P ∧
      ∀ c ∈ (room.addPlayer id nickname).2, c.AllNicknames P := by
  refine (addPlayer_change h id nickname).allNicknames hroom fun slot id' nickname' hjoins => ?_
  simp only [happening] at hjoins
  split at hjoins
  · cases hjoins
  · cases hjoins
    exact hnickname

theorem removePlayer_allNicknames (h : WellFormed room) (hroom : room.AllNicknames P)
    (id : PlayerId) : (room.removePlayer id).1.AllNicknames P ∧
      ∀ c ∈ (room.removePlayer id).2, c.AllNicknames P := by
  cases hg : room.getPlayerById id with
  | none =>
    rw [removePlayer, hg]
    exact ⟨hroom, fun c hc => absurd hc List.not_mem_nil⟩
  | some found => exact (removePlayer_change h hg).allNicknames hroom fun _ _ _ heq => by cases heq

theorem handlePlayerMessage_allNicknames (h : WellFormed room) (hroom : room.AllNicknames P)
    (id : PlayerId) (message : PlayerActionMessage) (now : ChronoTimePoint) :
    (room.handlePlayerMessage id message now).1.AllNicknames P ∧
      ∀ c ∈ (room.handlePlayerMessage id message now).2, c.AllNicknames P := by
  refine (handlePlayerMessage_change h id message now).allNicknames hroom fun _ _ _ hjoins => ?_
  -- no message makes anybody join a room
  simp only [happening] at hjoins
  split at hjoins
  · cases hjoins
  · cases message <;> simp only [Happening.ofMessage] at hjoins <;> (try split at hjoins) <;>
      cases hjoins

theorem tick_allNicknames (h : WellFormed room) (hroom : room.AllNicknames P)
    (ht : room.tick clock draw = .ok (room', calls)) :
    room'.AllNicknames P ∧ ∀ c ∈ calls, c.AllNicknames P := by
  obtain ⟨ms, rfl, hcase, -⟩ := tick_cases h ht
  constructor
  · exact @TickCase.preserves clock draw room room' ms Unit (fun _ room => room.AllNicknames P)
      (fun b _ => b) (fun hroom ht => ht.allNicknames hroom) () hroom hcase
  · intro c hc
    obtain ⟨m, hm, hc⟩ := List.mem_flatMap.1 hc
    refine allNicknames_broadcast room' (fun n hn => ?_) c hc
    rw [GameplayMessage.nicknames_of_isForBoth (hcase.isForBoth m hm)] at hn
    exact absurd hn List.not_mem_nil

end Room

/-! ## Gameplay -/

namespace Gameplay

open Transition

variable {env : Environment} {gameplay gameplay' : Gameplay} {p : PlayerId}
  {m : PlayerActionMessage} {c : Subscriber} {effects : List Effect}

theorem effects_allNicknames {calls : List BrokerCall} (h : ∀ c ∈ calls, c.AllNicknames P) :
    ∀ o ∈ BrokerCall.effects calls, o.AllNicknames P := by
  intro o ho
  obtain ⟨call, hcall, heffect⟩ := List.mem_filterMap.1 ho
  cases call with
  | publishGameplayMessage q message =>
    cases heffect
    exact h _ hcall
  | _ => cases heffect

/-- A room rewritten, and perhaps erased, beside rooms that stay as they were. -/
theorem AllNicknames.rewrite (h : gameplay.AllNicknames P) {room' : Room}
    (hroom' : room'.AllNicknames P)
    (hrooms : ∀ id room, gameplay'.roomManager.room? id = some room →
      room = room' ∨ gameplay.roomManager.room? id = some room) : gameplay'.AllNicknames P := by
  intro id room hroom
  rcases hrooms id room hroom with rfl | hsame
  · exact hroom'
  · exact h id room hsame

theorem removePlayerFromRoom_allNicknames (hwf : gameplay.RoomsWellFormed)
    (h : gameplay.AllNicknames P) (p : PlayerId) :
    (gameplay.removePlayerFromRoom p).1.AllNicknames P ∧
      ∀ o ∈ (gameplay.removePlayerFromRoom p).2.2, o.AllNicknames P := by
  cases hfirst : gameplay.roomManager.roomPlayerIsIn p with
  | none =>
    rw [removePlayerFromRoom_of_none hfirst]
    exact ⟨h, fun o ho => absurd ho List.not_mem_nil⟩
  | some found =>
    obtain ⟨id, room⟩ := found
    have hroom := (RoomManager.roomPlayerIsIn_eq_some hfirst).1
    obtain ⟨hroom', hcalls⟩ :=
      Room.removePlayer_allNicknames (hwf id room hroom) (h id room hroom) p
    obtain ⟨manager, hremove, -, hroom?⟩ := RoomManager.removePlayerFromRoom_of_some hfirst
    rw [removePlayerFromRoom, hremove]
    refine ⟨h.rewrite hroom' fun id' r hr => ?_, effects_allNicknames hcalls⟩
    have hr' : manager.room? id' = some r := hr
    rw [hroom?] at hr'
    split_ifs at hr' with hid hempty
    · exact Or.inl (Option.some.inj hr').symm
    · exact Or.inr hr'

theorem addPlayerToRoom_allNicknames (hwf : gameplay.RoomsWellFormed)
    (h : gameplay.AllNicknames P) {nickname : Bytes} (hnickname : P nickname)
    (difficulty : GameDifficulty) (env : Environment) :
    (gameplay.handlePlayerMessage env p (.joinGame nickname difficulty)).1.AllNicknames P ∧
      ∀ o ∈ (gameplay.handlePlayerMessage env p (.joinGame nickname difficulty)).2,
        o.AllNicknames P := by
  obtain ⟨room, -, hcalls, hroom?, hknown⟩ :=
    gameplay.roomManager.addPlayerToRoom_spec env.draw p nickname difficulty
  have hroom : room.WellFormed ∧ room.AllNicknames P := by
    rcases hknown with ⟨hroom, -⟩ | ⟨-, ⟨config, rfl⟩, -⟩
    · exact ⟨hwf _ room hroom, h _ room hroom⟩
    · exact ⟨Room.wellFormed_new config, Room.allNicknames_new config⟩
  obtain ⟨hroom', hall⟩ := @Room.addPlayer_allNicknames P room hroom.1 hroom.2 p nickname hnickname
  constructor
  · refine h.rewrite hroom' fun id r hr => ?_
    have hr' := (hroom? id).symm.trans hr
    split_ifs at hr' with hid
    · exact Or.inl (Option.some.inj hr').symm
    · exact Or.inr hr'
  · intro o ho
    rcases List.mem_cons.1 ho with rfl | ho
    · trivial
    · exact effects_allNicknames (hcalls ▸ hall) o ho

theorem call_allNicknames (hwf : gameplay.RoomsWellFormed) (h : gameplay.AllNicknames P)
    (hm : m.AllNicknames P) (hcall : gameplay.call env p m c = .ok (gameplay', effects)) :
    gameplay'.AllNicknames P ∧ ∀ o ∈ effects, o.AllNicknames P := by
  cases c with
  | gameplay =>
    have heq := Except.ok.inj hcall
    rw [show gameplay' = (gameplay.handlePlayerMessage env p m).1 from (congrArg Prod.fst heq).symm,
      show effects = (gameplay.handlePlayerMessage env p m).2 from (congrArg Prod.snd heq).symm]
    cases m with
    | joinGame nickname difficulty =>
      exact addPlayerToRoom_allNicknames hwf h (hm nickname rfl) difficulty env
    | leaveGame =>
      obtain ⟨hleft, hpublished⟩ := removePlayerFromRoom_allNicknames hwf h p
      refine ⟨hleft, fun o ho => ?_⟩
      rcases List.mem_append.1 ho with ho | ho
      · obtain ⟨id, -, rfl⟩ := List.mem_map.1 ho
        trivial
      · exact hpublished o ho
    | _ => exact ⟨h, fun o ho => absurd ho List.not_mem_nil⟩
  | room id =>
    cases hroom : gameplay.roomManager.room? id with
    | none =>
      simp only [call, handleRoomMessage, hroom] at hcall
      cases hcall
    | some room =>
      obtain ⟨hroom', hcalls⟩ := Room.handlePlayerMessage_allNicknames (hwf id room hroom)
        (h id room hroom) p m (env.now gameplay.clockReads)
      simp only [call, handleRoomMessage, hroom] at hcall
      cases hcall
      refine ⟨h.rewrite hroom' fun id' r hr => ?_, fun o ho => ?_⟩
      · have hr' := (RoomManager.room?_setRoom hroom _ id').symm.trans hr
        split_ifs at hr' with hid
        · exact Or.inl (Option.some.inj hr').symm
        · exact Or.inr hr'
      · rcases List.mem_append.1 ho with ho | ho
        · split_ifs at ho with happlies
          · rw [List.mem_singleton.1 ho]
            trivial
          · exact absurd ho List.not_mem_nil
        · exact effects_allNicknames hcalls o ho

theorem dispatchConnectivity_allNicknames (hwf : gameplay.RoomsWellFormed)
    (h : gameplay.AllNicknames P) {message : PlayerConnectivityMessage}
    (hstep : gameplay.dispatchConnectivity message = .ok (gameplay', effects)) :
    gameplay'.AllNicknames P ∧ ∀ o ∈ effects, o.AllNicknames P := by
  have hhandled : ∀ os : List Effect, (∀ o ∈ os, o.AllNicknames P) →
      ∀ o ∈ os ++ [.connectivityHandled message], o.AllNicknames P := by
    intro os hos o ho
    rcases List.mem_append.1 ho with ho | ho
    · exact hos o ho
    · rw [List.mem_singleton.1 ho]
      trivial
  obtain ⟨messageType, p⟩ := message
  cases messageType with
  | connect =>
    cases hstep
    exact ⟨h, hhandled [] fun o ho => absurd ho List.not_mem_nil⟩
  | disconnect =>
    obtain ⟨hleft, hpublished⟩ := removePlayerFromRoom_allNicknames hwf h p
    cases hstep
    exact ⟨hleft, hhandled _ hpublished⟩

theorem tickRoom_allNicknames (hwf : gameplay.RoomsWellFormed) (h : gameplay.AllNicknames P)
    {readings : RoomId → Readings} {draws : RoomId → Nat} {id : RoomId}
    (hstep : gameplay.tickRoom readings draws id = .ok (gameplay', effects)) :
    gameplay'.AllNicknames P ∧ ∀ o ∈ effects, o.AllNicknames P := by
  cases hroom : gameplay.roomManager.room? id with
  | none =>
    simp only [tickRoom, hroom] at hstep
    cases hstep
    exact ⟨h, fun o ho => absurd ho List.not_mem_nil⟩
  | some room =>
    cases htick : room.tick (readings id) (draws id) with
    | error e =>
      simp only [tickRoom, hroom, htick] at hstep
      cases hstep
    | ok outcome =>
      obtain ⟨room', calls⟩ := outcome
      obtain ⟨hroom', hcalls⟩ :=
        Room.tick_allNicknames (hwf id room hroom) (h id room hroom) htick
      simp only [tickRoom, hroom, htick] at hstep
      cases hstep
      refine ⟨h.rewrite hroom' fun id' r hr => ?_, effects_allNicknames hcalls⟩
      have hr' := (RoomManager.room?_setRoom hroom _ id').symm.trans hr
      split_ifs at hr' with hid
      · exact Or.inl (Option.some.inj hr').symm
      · exact Or.inr hr'

/-! ## Runs up to a fault -/

/-- What passing an action to the callbacks does before one of them faults. -/
def actionEffects (env : Environment) (playerId : PlayerId) (callbacksWithContext : List Subscriber)
    (gameplay : Gameplay) (message : PlayerActionMessage) : List Effect :=
  emissions (call env playerId message) (fun _ _ => []) gameplay callbacksWithContext

/-- What a pass over the actions of a player does up to its end or its fault. -/
def playerEffects (env : Environment) (hub : MessageHub) (gameplay : Gameplay)
    (playerId : PlayerId) : List Effect :=
  let callbacksWithContext := gameplay.messageBroker.callbacksWithContext playerId
  emissions (dispatchAction env playerId callbacksWithContext)
    (actionEffects env playerId callbacksWithContext) gameplay
    (hub.playerActionMessagesByPlayerId playerId)

/-- What a dispatch does up to its end or its fault. -/
def dispatchEffects (env : Environment) (hub : MessageHub) (preference : List PlayerId)
    (gameplay : Gameplay) : List Effect :=
  match run dispatchConnectivity gameplay hub.playerConnectivityMessages with
  | .error _ => []
  | .ok (gameplay', effects) =>
    effects ++ emissions (dispatchPlayer env hub) (playerEffects env hub) gameplay'
      (gameplay'.messageBroker.visitOrder preference)

variable (P) in
/-- A state that gameplay goes through, with nicknames that satisfy `P`. -/
structure Clean (gameplay : Gameplay) : Prop where
  reachable : Reachable gameplay
  nicknames : gameplay.AllNicknames P

variable {hub : MessageHub}

theorem Clean.call (h : gameplay.Clean P) (hm : m.AllNicknames P)
    (hcall : gameplay.call env p m c = .ok (gameplay', effects)) :
    gameplay'.Clean P ∧ ∀ o ∈ effects, o.AllNicknames P := by
  obtain ⟨hg, ho⟩ := call_allNicknames h.reachable.roomsWellFormed h.nicknames hm hcall
  exact ⟨⟨h.reachable.call hcall, hg⟩, ho⟩

theorem Clean.dispatchAction (h : gameplay.Clean P) (hm : m.AllNicknames P)
    {callbacksWithContext : List Subscriber}
    (hact : gameplay.dispatchAction env p callbacksWithContext m = .ok (gameplay', effects)) :
    gameplay'.Clean P ∧ ∀ o ∈ effects, o.AllNicknames P := by
  obtain ⟨g, os, os', hcalls, hpop, rfl⟩ := seq_eq_ok.1 hact
  cases hpop
  obtain ⟨hg, ho⟩ := run_emits (fun _ _ _ _ _ hs hcall => Clean.call hs hm hcall) h hcalls
  refine ⟨hg, fun o hmem => ?_⟩
  rcases List.mem_append.1 hmem with hmem | hmem
  · exact ho o hmem
  · rw [List.mem_singleton.1 hmem]
    trivial

theorem Clean.actionEffects (h : gameplay.Clean P) (hm : m.AllNicknames P)
    (callbacksWithContext : List Subscriber) :
    ∀ o ∈ actionEffects env p callbacksWithContext gameplay m, o.AllNicknames P :=
  mem_emissions (fun _ _ _ _ _ hs hcall => Clean.call hs hm hcall)
    (fun _ _ _ _ _ ho => absurd ho List.not_mem_nil) h

theorem Clean.dispatchPlayer (h : gameplay.Clean P)
    (hqueue : ∀ m ∈ hub.playerActionMessagesByPlayerId p, m.AllNicknames P)
    (hplayer : gameplay.dispatchPlayer env hub p = .ok (gameplay', effects)) :
    gameplay'.Clean P ∧ ∀ o ∈ effects, o.AllNicknames P :=
  run_emits (fun _ m _ _ hmem hs hact => hs.dispatchAction (hqueue m hmem) hact) h hplayer

theorem Clean.playerEffects (h : gameplay.Clean P)
    (hqueue : ∀ m ∈ hub.playerActionMessagesByPlayerId p, m.AllNicknames P) :
    ∀ o ∈ playerEffects env hub gameplay p, o.AllNicknames P :=
  mem_emissions (fun _ m _ _ hmem hs hact => Clean.dispatchAction hs (hqueue m hmem) hact)
    (fun _ m hmem hs => hs.actionEffects (hqueue m hmem) _) h

theorem Clean.run_dispatchConnectivity (h : gameplay.Clean P)
    {messages : List PlayerConnectivityMessage}
    (hrun : run Gameplay.dispatchConnectivity gameplay messages = .ok (gameplay', effects)) :
    gameplay'.Clean P ∧ ∀ o ∈ effects, o.AllNicknames P := by
  refine run_emits (fun g message g' os _ (hs : g.Clean P) hstep => ?_) h hrun
  obtain ⟨hg, ho⟩ :=
    dispatchConnectivity_allNicknames hs.reachable.roomsWellFormed hs.nicknames hstep
  exact ⟨⟨hs.reachable.dispatchConnectivity hstep, hg⟩, ho⟩

theorem Clean.tickRoom (h : gameplay.Clean P) {readings : RoomId → Readings}
    {draws : RoomId → Nat} {id : RoomId}
    (hstep : gameplay.tickRoom readings draws id = .ok (gameplay', effects)) :
    gameplay'.Clean P ∧ ∀ o ∈ effects, o.AllNicknames P := by
  obtain ⟨hg, ho⟩ := tickRoom_allNicknames h.reachable.roomsWellFormed h.nicknames hstep
  exact ⟨⟨h.reachable.tickRoom hstep, hg⟩, ho⟩

end Gameplay

theorem MessageHub.mem_of_mem_replay {hub : MessageHub} {effects : List Effect} {p : PlayerId}
    {m : PlayerActionMessage} (h : m ∈ (hub.replay effects).playerActionMessagesByPlayerId p) :
    m ∈ hub.playerActionMessagesByPlayerId p := by
  induction effects generalizing hub with
  | nil => exact h
  | cons o effects ih =>
    have hm := @ih (hub.perform o) h
    cases o with
    | actionHandled q message =>
      rw [perform, playerActionMessages_popAction] at hm
      split_ifs at hm with hp
      · exact hp ▸ List.mem_of_mem_tail hm
      · exact hm
    | _ => exact hm

namespace System

open Transition Gameplay

/-- What a step does up to its end or its fault. -/
def stepEffects (env : Environment) (system : System) : Event → List Effect
  | .dispatchMessages preference =>
    system.gameplay.dispatchEffects env system.messageHub preference
  | .tickAllRooms readings draws =>
    emissions (tickRoom readings draws) (fun _ _ => []) system.gameplay
      (system.gameplay.roomManager.rooms.map Prod.fst)
  | _ => []

/-- What a run does up to its end or its fault. -/
def effects (env : Environment) (system : System) (events : List Event) : List Effect :=
  emissions (step env) (stepEffects env) system events

variable (P) in
/-- The nicknames in the game and in the queues satisfy `P`. -/
structure Clean (system : System) : Prop where
  gameplay : system.gameplay.Clean P
  queues : ∀ p, ∀ m ∈ system.messageHub.playerActionMessagesByPlayerId p, m.AllNicknames P

variable {env : Environment} {system system' : System} {os : List Effect}

/-- A run without a fault has the effects it ends with. -/
theorem effects_of_run {events : List Event}
    (hrun : run (step env) system events = .ok (system', os)) : effects env system events = os :=
  emissions_of_run hrun

theorem Clean.stepEffects (h : system.Clean P) (e : Event) :
    ∀ o ∈ stepEffects env system e, o.AllNicknames P := by
  cases e with
  | dispatchMessages preference =>
    simp only [System.stepEffects, dispatchEffects]
    cases hconn : run dispatchConnectivity system.gameplay
        system.messageHub.playerConnectivityMessages with
    | error fault => exact fun o ho => absurd ho List.not_mem_nil
    | ok outcome =>
      obtain ⟨g, os⟩ := outcome
      obtain ⟨hg, hos⟩ := h.gameplay.run_dispatchConnectivity hconn
      intro o ho
      rcases List.mem_append.1 ho with ho | ho
      · exact hos o ho
      · exact mem_emissions (fun _ p _ _ _ hs hplayer => Gameplay.Clean.dispatchPlayer hs
          (h.queues p) hplayer) (fun _ p _ hs => hs.playerEffects (h.queues p)) hg o ho
  | tickAllRooms readings draws =>
    exact mem_emissions (fun _ _ _ _ _ hs htick => Gameplay.Clean.tickRoom hs htick)
      (fun _ _ _ _ _ ho => absurd ho List.not_mem_nil) h.gameplay
  | _ => exact fun o ho => absurd ho List.not_mem_nil

theorem Clean.perform (h : system.Clean P) {outcome : Except Fault (Gameplay × List Effect)}
    (houtcome : ∀ g os, outcome = .ok (g, os) → g.Clean P ∧ ∀ o ∈ os, o.AllNicknames P)
    (hstep : system.perform outcome = .ok (system', os)) :
    system'.Clean P ∧ ∀ o ∈ os, o.AllNicknames P := by
  cases outcome with
  | error fault => cases hstep
  | ok r =>
    cases hstep
    obtain ⟨hg, ho⟩ := houtcome r.1 r.2 rfl
    exact ⟨⟨hg, fun p m hm => h.queues p m (MessageHub.mem_of_mem_replay hm)⟩, ho⟩

theorem Clean.step (h : system.Clean P) {e : Event}
    (he : ∀ p m, e = .publishPlayerActionMessage p m → m.AllNicknames P)
    (hstep : system.step env e = .ok (system', os)) :
    system'.Clean P ∧ ∀ o ∈ os, o.AllNicknames P := by
  cases e with
  | publishPlayerConnectivityMessage message =>
    cases hstep
    exact ⟨⟨h.gameplay, h.queues⟩, fun o ho => absurd ho List.not_mem_nil⟩
  | publishPlayerActionMessage p m =>
    cases hstep
    refine ⟨⟨h.gameplay, fun q m' hm' => ?_⟩, fun o ho => absurd ho List.not_mem_nil⟩
    rw [MessageHub.playerActionMessages_pushAction] at hm'
    rcases List.mem_append.1 hm' with hm' | hm'
    · exact h.queues q m' hm'
    · split_ifs at hm' with hq
      · rw [List.mem_singleton.1 hm']
        exact he p m rfl
      · exact absurd hm' List.not_mem_nil
  | dispatchMessages preference =>
    refine h.perform (fun g os hok => ?_) hstep
    obtain ⟨g₁, os₁, os₂, hconn, hplayers, rfl⟩ := seq_eq_ok.1 hok
    obtain ⟨hg₁, ho₁⟩ := h.gameplay.run_dispatchConnectivity hconn
    obtain ⟨hg, ho₂⟩ := run_emits (fun _ p _ _ _ hs hplayer =>
      Gameplay.Clean.dispatchPlayer hs (h.queues p) hplayer) hg₁ hplayers
    refine ⟨hg, fun o ho => ?_⟩
    rcases List.mem_append.1 ho with ho | ho
    · exact ho₁ o ho
    · exact ho₂ o ho
  | tickAllRooms readings draws =>
    exact h.perform (fun g os hok => run_emits (fun _ _ _ _ _ hs htick =>
      Gameplay.Clean.tickRoom hs htick) h.gameplay hok) hstep

theorem clean_new : Clean P new where
  gameplay := ⟨.new, fun id room hroom => by cases hroom⟩
  queues p m hm := absurd hm List.not_mem_nil

/-- Whatever holds of the nicknames in all actions that are published holds of the nicknames in
all messages that gameplay publishes. -/
theorem nicknames_of_effects {events : List Event}
    (hevents : ∀ p m, .publishPlayerActionMessage p m ∈ events → m.AllNicknames P) :
    ∀ o ∈ effects env new events, o.AllNicknames P :=
  mem_emissions (fun _ _ _ _ he hs hstep => Clean.step hs (fun p m heq => hevents p m (heq ▸ he))
    hstep) (fun _ e _ hs => hs.stepEffects e) clean_new

end System
end SamuraiKirby
