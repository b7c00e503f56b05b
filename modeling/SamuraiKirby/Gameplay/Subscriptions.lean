/-
When the subscriptions match the rosters.

A seat is subscribed to when it is taken, and the subscription outlives the seat.
So the two stay in step exactly as long as nobody who sits in a room leaves or
disconnects (`matches_iff_along`).
-/
import SamuraiKirby.Gameplay.Lifetime

namespace SamuraiKirby
namespace Gameplay

open Transition

variable {env : Environment} {gameplay gameplay' : Gameplay} {p : PlayerId}
  {m : PlayerActionMessage} {c : Subscriber} {effects : List Effect}

/-- A player has as many entries for a room as slots in it, and so none for a room that does
not exist. -/
def Matches (gameplay : Gameplay) : Prop :=
  ∀ q id, (gameplay.entries q).count (.room id) = gameplay.seats q id

/-- Nobody leaves a seat: no disconnection of a seated player is handled, and no callback is
called with the leave message of a player who sits where the callback looks. -/
def keepsSeats : Guard where
  connectivity _ gameplay message :=
    message.messageType = .disconnect → ∀ id, gameplay.seats message.playerId id = 0
  action _ _ _ _ := True
  callback gameplay p m c _ :=
    m = .leaveGame → (c = .gameplay → ∀ id, gameplay.seats p id = 0) ∧
      ∀ id, c = .room id → gameplay.seats p id = 0

theorem matches_new : Matches new := fun _ _ => rfl

theorem Unmoved.matches_iff (h : Unmoved gameplay gameplay') :
    Matches gameplay' ↔ Matches gameplay := by
  unfold Matches
  simp only [h.entries, h.seats]

/-- The entry of a seat that has been left cannot be accounted for any more. -/
theorem Left.not_matches {erased : Prop} {id : RoomId} (hinv : gameplay.Inv)
    (h : Left erased p id gameplay gameplay') : ¬ Matches gameplay' := by
  intro hm
  have hcount := hm p id
  have hseats := h.seats p id
  have hsubscribed := hinv.subscribed p id
  rw [h.entries] at hcount
  rw [if_pos ⟨rfl, rfl⟩] at hseats
  omega

theorem Joined.matches_iff {id : RoomId} (h : Joined p id gameplay gameplay') :
    Matches gameplay' ↔ Matches gameplay := by
  have hcount : ∀ q id', (gameplay'.entries q).count (.room id') =
      (gameplay.entries q).count (.room id') + if q = p ∧ id' = id then 1 else 0 := by
    intro q id'
    rw [h.entries, List.count_append]
    by_cases hq : q = p
    · by_cases hid : id' = id
      · simp [hq, hid]
      · simp [hq, hid, Ne.symm hid]
    · simp [hq]
  unfold Matches
  simp only [hcount, h.seats, Nat.add_right_cancel_iff]

theorem Connected.matches_iff (h : Connected p gameplay gameplay') :
    Matches gameplay' ↔ Matches gameplay := by
  have hcount : ∀ q id, (gameplay'.entries q).count (.room id) =
      (gameplay.entries q).count (.room id) := by
    intro q id
    rw [h.entries, List.count_append]
    by_cases hq : q = p
    · simp [hq]
    · simp [hq]
  unfold Matches
  simp only [hcount, h.seats]

theorem keepsSeats_decides : Decides keepsSeats Matches where
  connectivity hinv hcase := by
    cases hcase with
    | connected p gameplay' hc =>
      rw [hc.matches_iff]
      exact ⟨fun h => ⟨h, fun h => by cases h⟩, fun h => h.1⟩
    | absent p gameplay' hseat hu =>
      rw [hu.matches_iff]
      exact ⟨fun h => ⟨h, fun _ => hseat⟩, fun h => h.1⟩
    | left p id room calls gameplay' hfirst hl =>
      refine ⟨fun h => absurd h (hl.not_matches hinv), fun h => ?_⟩
      exact absurd (h.2 rfl id) (Nat.ne_of_gt hl.seat_pos)
  action _ _ _ _ := trivial
  callback hinv hc hcase := by
    cases hcase with
    | ignored c hlive hjoin hleave hroom =>
      refine ⟨fun h => ⟨h, fun hm => ⟨fun hc => hleave hc hm, fun id hc => ?_⟩⟩, fun h => h.1⟩
      rcases hroom id hc with ⟨nickname, difficulty, hjoins⟩ | hzero
      · rw [hm] at hjoins
        cases hjoins
      · exact hzero
    | joined nickname difficulty id calls gameplay' hm hj =>
      rw [hj.matches_iff]
      refine ⟨fun h => ⟨h, fun hleave => ?_⟩, fun h => h.1⟩
      rw [hm] at hleave
      cases hleave
    | left id room calls gameplay' hm hfirst hl =>
      refine ⟨fun h => absurd h (hl.not_matches hinv), fun h => ?_⟩
      exact absurd ((h.2 hm).1 rfl id) (Nat.ne_of_gt hl.seat_pos)
    | leftRoom id calls gameplay' hm hl =>
      refine ⟨fun h => absurd h (hl.not_matches hinv), fun h => ?_⟩
      exact absurd ((h.2 hm).2 id rfl) (Nat.ne_of_gt hl.seat_pos)
    | handled id calls gameplay' hjoin hleave hlive hseat hu =>
      rw [hu.matches_iff]
      exact ⟨fun h => ⟨h, fun hm => absurd hm hleave⟩, fun h => h.1⟩
  unmoved hu := hu.matches_iff

/-! ## What a match is good for -/

/-- Gameplay's own callback passes over everything but joining and leaving. -/
theorem run_call_gameplay (hjoin : ∀ nickname difficulty, m ≠ .joinGame nickname difficulty)
    (hleave : m ≠ .leaveGame) {cs : List Subscriber} (hcs : ∀ c ∈ cs, c = .gameplay) :
    run (call env p m) gameplay cs = .ok (gameplay, []) := by
  have hcall : gameplay.call env p m .gameplay = .ok (gameplay, []) := by
    cases m with
    | joinGame nickname difficulty => exact absurd rfl (hjoin nickname difficulty)
    | leaveGame => exact absurd rfl hleave
    | _ => rfl
  induction cs with
  | nil => rfl
  | cons c cs ih =>
    rw [hcs c (List.mem_cons_self ..), run_cons, hcall, seq_ok_nil]
    exact ih fun c hc => hcs c (List.mem_cons_of_mem _ hc)

/-- When the subscriptions match, an action of a player with one seat is one call of the
handler of its room. -/
theorem Matches.dispatchAction_eq (h : Matches gameplay) {id : RoomId}
    (hseats : ∀ id', gameplay.seats p id' = if id' = id then 1 else 0)
    (hjoin : ∀ nickname difficulty, m ≠ .joinGame nickname difficulty)
    (hleave : m ≠ .leaveGame) :
    gameplay.dispatchAction env p (gameplay.entries p) m =
      seq (gameplay.handleRoomMessage env id p m) fun gameplay' =>
        .ok (gameplay', [.actionHandled p m]) := by
  have hmem : Subscriber.room id ∈ gameplay.entries p := by
    apply List.count_pos_iff.1
    rw [h p id, hseats, if_pos rfl]
    exact Nat.one_pos
  obtain ⟨pre, post, hentries⟩ := List.append_of_mem hmem
  -- besides this one entry there are only entries of gameplay
  have hothers : ∀ c ∈ pre ++ post, c = .gameplay := by
    intro c hc
    cases c with
    | gameplay => rfl
    | room id' =>
      have hpos := List.count_pos_iff.2 hc
      have hcount := h p id'
      rw [hentries, hseats, List.count_append] at hcount
      rw [List.count_append] at hpos
      by_cases hid : id' = id
      · simp only [hid, List.count_cons_self, if_true] at hcount hpos
        omega
      · rw [List.count_cons_of_ne (by simpa using Ne.symm hid), if_neg hid] at hcount
        omega
  have hcalls : run (call env p m) gameplay (gameplay.entries p) =
      gameplay.handleRoomMessage env id p m := by
    rw [hentries, run_append, run_call_gameplay hjoin hleave fun c hc =>
      hothers c (List.mem_append_left _ hc), seq_ok_nil, run_cons]
    refine (congrArg _ (funext fun gameplay' => ?_)).trans (seq_pure _)
    exact run_call_gameplay hjoin hleave fun c hc => hothers c (List.mem_append_right _ hc)
  rw [dispatchAction, hcalls]

/-- The subscriptions match after a run exactly when nobody has left a seat in it; and then an
action of a player with one seat is handled by its room, once. -/
theorem matches_iff_along {events : List System.Event} {system : System}
    (hrun : run (System.step env) .new events = .ok (system, effects)) :
    (Matches system.gameplay ↔
        Along (System.step env) (keepsSeats.Step env) .new events) ∧
      (Matches system.gameplay → ∀ p id m,
        (∀ id', system.gameplay.seats p id' = if id' = id then 1 else 0) →
        (∀ nickname difficulty, m ≠ .joinGame nickname difficulty) → m ≠ .leaveGame →
        system.gameplay.dispatchAction env p (system.gameplay.entries p) m =
          seq (system.gameplay.handleRoomMessage env id p m) fun gameplay' =>
            .ok (gameplay', [.actionHandled p m])) :=
  ⟨keepsSeats_decides.run matches_new hrun,
    fun h _ _ _ hseats hjoin hleave => h.dispatchAction_eq hseats hjoin hleave⟩

theorem matches_iff_along_leaveAlone :
    ∃ system effects, run (System.step stillEnvironment) .new (leaveAlone.take 3) =
        .ok (system, effects) ∧
      (Matches system.gameplay ↔ Along (System.step stillEnvironment)
        (keepsSeats.Step stillEnvironment) .new (leaveAlone.take 3)) :=
  ⟨_, _, rfl, (matches_iff_along rfl).1⟩

/-- Players 0 and 1 join a room and player 0 leaves it. -/
def leaveTogether : List System.Event :=
  [.publishPlayerConnectivityMessage ⟨.connect, 0⟩,
    .publishPlayerConnectivityMessage ⟨.connect, 1⟩,
    .publishPlayerActionMessage 0 (.joinGame [] .easy),
    .publishPlayerActionMessage 1 (.joinGame [] .easy), .dispatchMessages [],
    .publishPlayerActionMessage 0 .leaveGame, .dispatchMessages []]

/-- The room player 0 has left still listens to player 0. -/
theorem leaveTogether_keeps_subscription :
    ¬ ∀ (env : Environment) (events : List System.Event) (system : System)
      (effects : List Effect), run (System.step env) .new events = .ok (system, effects) →
        Matches system.gameplay := by
  intro h
  have hcount : ∃ system effects, run (System.step stillEnvironment) .new leaveTogether =
      .ok (system, effects) ∧ (system.gameplay.entries 0).count (.room 0) = 1 ∧
        system.gameplay.seats 0 0 = 0 := ⟨_, _, rfl, rfl, rfl⟩
  obtain ⟨system, effects, hrun, hentries, hseats⟩ := hcount
  have hmatch := h _ _ _ _ hrun 0 0
  rw [hentries, hseats] at hmatch
  cases hmatch

end Gameplay
end SamuraiKirby
