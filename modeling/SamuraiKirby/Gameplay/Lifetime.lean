/-
When no callback of a destroyed room is called.

Unsubscribing removes no entry, so a player keeps the entries of every room it
ever joined.  A run is free of calls into destroyed rooms exactly when each
action it handles finds all rooms of the copied entries alive, and none of them
is destroyed while its callback is still to be called for that action
(`no_stale_call_iff_along`).
-/
import SamuraiKirby.Gameplay.Dispatch

namespace SamuraiKirby
namespace Gameplay

open Transition

variable {env : Environment} {gameplay gameplay' : Gameplay} {p : PlayerId}
  {m : PlayerActionMessage} {c : Subscriber} {effects : List Effect}

/-- Calling `c` takes the only player of a room out of it, which destroys the room. -/
structure Destroys (gameplay : Gameplay) (p : PlayerId) (m : PlayerActionMessage)
    (c : Subscriber) (id : RoomId) : Prop where
  callback : c = .gameplay
  message : m = .leaveGame
  onlyPlayer : ∃ room, gameplay.roomManager.roomPlayerIsIn p = some (id, room) ∧
    room.recipients = [p]

/-- An action goes to rooms that exist, and destroys none whose callback comes later. -/
def callsLiveRooms : Guard where
  connectivity _ _ _ := True
  action gameplay _ _ callbacksWithContext :=
    ∀ id, .room id ∈ callbacksWithContext → gameplay.live id
  callback gameplay p m c rest := ∀ id, Destroys gameplay p m c id → .room id ∉ rest

/-- A room allocated before a call is alive after it unless the call destroyed it. -/
theorem CallCase.live_iff (h : CallCase p m gameplay c gameplay' effects) {id : RoomId}
    (hid : id < gameplay.roomManager.nextRoom) :
    gameplay'.live id ↔ gameplay.live id ∧ ¬ Destroys gameplay p m c id := by
  cases h with
  | ignored _ hlive hjoin hleave hroom =>
    refine ⟨fun h => ⟨h, fun hd => ?_⟩, fun h => h.1⟩
    obtain ⟨room, hfirst, -⟩ := hd.onlyPlayer
    rw [roomPlayerIsIn_eq_none_iff_seats.2 (hleave hd.callback hd.message)] at hfirst
    cases hfirst
  | joined nickname difficulty id' calls gameplay' hm hj =>
    rw [hj.live]
    constructor
    · intro h
      refine ⟨?_, fun hd => ?_⟩
      · rcases h with h | rfl
        · exact h
        · rcases hj.fresh with h | h
          · exact h
          · rw [h] at hid
            exact absurd hid (Nat.lt_irrefl _)
      · rw [hd.message] at hm
        cases hm
    · exact fun h => Or.inl h.1
  | left id' room calls gameplay' hm hfirst hl =>
    rw [hl.live]
    refine and_congr_right fun _ => not_congr ⟨?_, fun hd => ?_⟩
    · rintro ⟨rfl, room', hroom', hrec⟩
      rw [(RoomManager.roomPlayerIsIn_eq_some hfirst).1] at hroom'
      cases hroom'
      exact ⟨rfl, hm, room, hfirst, hrec⟩
    · obtain ⟨room', hfirst', hrec⟩ := hd.onlyPlayer
      rw [hfirst] at hfirst'
      cases hfirst'
      exact ⟨rfl, room, (RoomManager.roomPlayerIsIn_eq_some hfirst).1, hrec⟩
  | leftRoom id' calls gameplay' hm hl =>
    rw [hl.live]
    refine and_congr_right fun _ => not_congr ⟨fun h => h.2.elim, fun hd => ?_⟩
    cases hd.callback
  | handled id' calls gameplay' hjoin hleave hlive hseat hu =>
    rw [hu.live]
    refine ⟨fun h => ⟨h, fun hd => ?_⟩, fun h => h.1⟩
    cases hd.callback

/-- Passing an action to callbacks ends without a fault exactly when the guard holds. -/
theorem run_call_ok_iff {callbacksWithContext : List Subscriber}
    (hs : Calling p callbacksWithContext gameplay) :
    (∃ r, run (call env p m) gameplay callbacksWithContext = .ok r) ↔
      callsLiveRooms.Action env p callbacksWithContext gameplay m := by
  induction callbacksWithContext generalizing gameplay with
  | nil => exact ⟨fun _ => ⟨fun _ h => (by cases h), trivial⟩, fun _ => ⟨_, rfl⟩⟩
  | cons c rest ih =>
    have hallocated : ∀ id, .room id ∈ rest → id < gameplay.roomManager.nextRoom := fun id hid =>
      hs.inv.allocated p id (hs.subset _ (List.mem_cons_of_mem _ hid))
    have htail : ∀ gameplay' effects, gameplay.call env p m c = .ok (gameplay', effects) →
        Calling p rest gameplay' := by
      intro gameplay' effects hcall
      exact (hs.call (List.mem_cons_self ..) hcall).tail
    constructor
    · rintro ⟨⟨gameplay'', os⟩, hr⟩
      obtain ⟨gameplay', os₁, os₂, hcall, hrest, -⟩ := run_cons_eq_ok.1 hr
      have hcase := call_cases hs.inv.wellFormed hcall
      obtain ⟨hlive', halong'⟩ := (ih (htail _ _ hcall)).1 ⟨_, hrest⟩
      refine ⟨fun id hid => ?_, fun id hd hid => ?_, fun g os hg => ?_⟩
      · rcases List.mem_cons.1 hid with rfl | hid
        · by_cases hlive : gameplay.live id
          · exact hlive
          · rw [call_of_dead hlive] at hcall
            cases hcall
        · exact ((hcase.live_iff (hallocated id hid)).1 (hlive' id hid)).1
      · exact ((hcase.live_iff (hallocated id hid)).1 (hlive' id hid)).2 hd
      · rw [hcall] at hg
        cases hg
        exact halong'
    · rintro ⟨hlive, hkeeps, halong⟩
      obtain ⟨gameplay', os₁, hcall, hcase⟩ := call_ok env (c := c) (p := p) (m := m)
        hs.inv.wellFormed fun id hc => hlive id (hc ▸ List.mem_cons_self ..)
      have hlive' : ∀ id, .room id ∈ rest → gameplay'.live id := fun id hid =>
        (hcase.live_iff (hallocated id hid)).2
          ⟨hlive id (List.mem_cons_of_mem _ hid), fun hd => hkeeps id hd hid⟩
      obtain ⟨⟨gameplay'', os₂⟩, hrest⟩ :=
        (ih (htail _ _ hcall)).2 ⟨hlive', halong _ _ hcall⟩
      exact ⟨_, run_cons_eq_ok.2 ⟨gameplay', os₁, os₂, hcall, hrest, rfl⟩⟩

theorem callsLiveRooms_decidesOk : DecidesOk callsLiveRooms where
  connectivity _ _ _ := trivial
  action hs := run_call_ok_iff hs

/-! ## The only fault -/

def IsUseAfterFree (fault : Fault) : Prop := ∃ id, fault = .useAfterFree id

theorem call_error {fault : Fault} (h : gameplay.call env p m c = .error fault) :
    IsUseAfterFree fault := by
  cases c with
  | gameplay => cases h
  | room id =>
    simp only [call, handleRoomMessage] at h
    cases hroom : gameplay.roomManager.room? id with
    | none =>
      rw [hroom] at h
      cases h
      exact ⟨id, rfl⟩
    | some room =>
      rw [hroom] at h
      cases h

theorem dispatchPlayer_error {hub : MessageHub} {fault : Fault}
    (h : gameplay.dispatchPlayer env hub p = .error fault) : IsUseAfterFree fault := by
  refine run_error_of_steps (fun g m fault hact => ?_) h
  rcases seq_eq_error.1 hact with hcalls | ⟨g', os, -, hpop⟩
  · exact run_error_of_steps (fun _ _ _ hcall => call_error hcall) hcalls
  · cases hpop

theorem dispatchMessages_error {hub : MessageHub} {preference : List PlayerId} {fault : Fault}
    (h : gameplay.dispatchMessages env hub preference = .error fault) :
    IsUseAfterFree fault := by
  rcases seq_eq_error.1 h with hconn | ⟨g', os, -, hplayers⟩
  · obtain ⟨g', os, hok⟩ := run_dispatchConnectivity_ok gameplay hub.playerConnectivityMessages
    rw [hok] at hconn
    cases hconn
  · exact run_error_of_steps (fun _ _ _ hstep => dispatchPlayer_error hstep) hplayers

/-- A reachable system can fail in one way only. -/
theorem step_error {system : System} {e : System.Event} {fault : Fault}
    (hinv : system.gameplay.Inv) (h : system.step env e = .error fault) :
    IsUseAfterFree fault := by
  cases e with
  | publishPlayerConnectivityMessage message => cases h
  | publishPlayerActionMessage playerId message => cases h
  | dispatchMessages preference =>
    cases hd : system.gameplay.dispatchMessages env system.messageHub preference with
    | error fault' =>
      simp only [System.step, System.perform, hd, Except.error.injEq] at h
      exact h ▸ dispatchMessages_error hd
    | ok outcome =>
      simp only [System.step, System.perform, hd] at h
      cases h
  | tickAllRooms readings draws =>
    obtain ⟨gameplay', os, htick, -, -⟩ :=
      tickAllRooms_unmoved readings draws hinv.wellFormed
    simp only [System.step, System.perform, htick] at h
    cases h

/-- A run never calls into a destroyed room exactly when every action it handles goes to rooms
that exist, none of which is destroyed before its callback is called for that action. -/
theorem no_stale_call_iff_along (env : Environment) (events : List System.Event) :
    (∀ id, run (System.step env) .new events ≠ .error (.useAfterFree id)) ↔
      Along (System.step env) (callsLiveRooms.Step env) .new events := by
  rw [← callsLiveRooms_decidesOk.run events]
  constructor
  · intro h
    cases hrun : run (System.step env) .new events with
    | ok r => exact ⟨r, rfl⟩
    | error fault =>
      obtain ⟨id, rfl⟩ : IsUseAfterFree fault :=
        run_error (P := fun s : System => s.gameplay.Inv)
          (E := IsUseAfterFree)
          (fun _ _ _ hs hstep => step_error hs hstep) (fun _ _ _ _ hs hstep => step_inv hs hstep)
          inv_new hrun
      exact absurd hrun (h id)
  · rintro ⟨r, hr⟩ id hid
    rw [hr] at hid
    cases hid

/-- A clock and a random device that always read zero. -/
def stillEnvironment : Environment := ⟨fun _ => 0, fun _ => 0⟩

/-- Player 0 connects, joins a room alone, and leaves it in a later dispatch. -/
def leaveAlone : List System.Event :=
  [.publishPlayerConnectivityMessage ⟨.connect, 0⟩,
    .publishPlayerActionMessage 0 (.joinGame [] .easy), .dispatchMessages [],
    .publishPlayerActionMessage 0 .leaveGame, .dispatchMessages []]

/-- Leaving destroys the room whose callback is next in the list. -/
theorem leaveAlone_calls_destroyed_room :
    ¬ ∀ (env : Environment) (events : List System.Event) (id : RoomId),
      run (System.step env) .new events ≠ .error (.useAfterFree id) := by
  intro h
  exact h stillEnvironment leaveAlone 0 rfl

end Gameplay
end SamuraiKirby
