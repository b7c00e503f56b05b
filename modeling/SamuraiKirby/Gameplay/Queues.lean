/-
What a dispatch takes from the hub, and in which order.

A dispatch handles all pending connectivity messages and then, player by player,
all pending actions of the players the broker has a key for.  Seen from one
player this is a list of client events, read off the effects by `handled`.  The
hub it leaves behind has nothing pending for any of these players.
-/
import SamuraiKirby.Gameplay.Dispatch

namespace SamuraiKirby

/-- What gameplay learns about one client. -/
inductive ClientEvent where
  | connect
  | action (message : PlayerActionMessage)
  | disconnect
deriving DecidableEq, Repr

def PlayerConnectivityMessage.clientEvent? (p : PlayerId) (message : PlayerConnectivityMessage) :
    Option ClientEvent :=
  if message.playerId = p then
    match message.messageType with
    | .connect => some .connect
    | .disconnect => some .disconnect
  else none

namespace Effect

def clientEvent? (p : PlayerId) : Effect → Option ClientEvent
  | .connectivityHandled message => message.clientEvent? p
  | .actionHandled q message => if q = p then some (.action message) else none
  | _ => none

/-- The effect takes nothing from the inbound queues. -/
def isQuiet : Effect → Bool
  | .published _ _ | .applied _ _ _ => true
  | _ => false

end Effect

/-- The events of a client among effects, in the order they were handled. -/
def handled (p : PlayerId) (effects : List Effect) : List ClientEvent :=
  effects.filterMap (Effect.clientEvent? p)

theorem handled_append (p : PlayerId) (os os' : List Effect) :
    handled p (os ++ os') = handled p os ++ handled p os' := List.filterMap_append

theorem handled_of_isQuiet {os : List Effect} (h : ∀ o ∈ os, o.isQuiet = true) (p : PlayerId) :
    handled p os = [] := by
  apply List.filterMap_eq_nil_iff.2
  intro o ho
  have hquiet := h o ho
  cases o <;> first | rfl | cases hquiet

namespace MessageHub

theorem replay_append (hub : MessageHub) (os os' : List Effect) :
    hub.replay (os ++ os') = (hub.replay os).replay os' := List.foldl_append

theorem replay_of_isQuiet (hub : MessageHub) {os : List Effect}
    (h : ∀ o ∈ os, o.isQuiet = true) :
    (hub.replay os).playerConnectivityMessages = hub.playerConnectivityMessages ∧
      (hub.replay os).playerActionMessagesByPlayerId = hub.playerActionMessagesByPlayerId := by
  induction os generalizing hub with
  | nil => exact ⟨rfl, rfl⟩
  | cons o os ih =>
    have hquiet := h o (List.mem_cons_self ..)
    have htail := ih (hub.perform o) fun o' ho' => h o' (List.mem_cons_of_mem _ ho')
    cases o with
    | published p m => exact htail
    | applied id p m => exact htail
    | _ => cases hquiet

end MessageHub

namespace Gameplay

open Transition

variable {env : Environment} {gameplay gameplay' : Gameplay} {p q : PlayerId}
  {m : PlayerActionMessage} {c : Subscriber} {effects : List Effect} {hub : MessageHub}

theorem effects_isQuiet (calls : List BrokerCall) :
    ∀ o ∈ BrokerCall.effects calls, o.isQuiet = true := by
  intro o ho
  obtain ⟨call, -, heffect⟩ := List.mem_filterMap.1 ho
  cases call with
  | publishGameplayMessage q m =>
    cases heffect
    rfl
  | _ => cases heffect

theorem CallCase.isQuiet (h : CallCase p m gameplay c gameplay' effects) :
    ∀ o ∈ effects, o.isQuiet = true := by
  have hcons : ∀ id calls, ∀ o ∈ Effect.applied id p m :: BrokerCall.effects calls,
      o.isQuiet = true := by
    intro id calls o ho
    rcases List.mem_cons.1 ho with rfl | ho
    · rfl
    · exact effects_isQuiet calls o ho
  cases h with
  | ignored => simp
  | joined nickname difficulty id calls => exact hcons id calls
  | left id room calls => exact hcons id calls
  | leftRoom id calls => exact hcons id calls
  | handled id calls => exact hcons id calls

theorem ConnectivityCase.effects_eq {message : PlayerConnectivityMessage}
    (h : ConnectivityCase gameplay message gameplay' effects) :
    ∃ quiet, effects = quiet ++ [.connectivityHandled message] ∧
      ∀ o ∈ quiet, o.isQuiet = true := by
  cases h with
  | connected => exact ⟨[], rfl, by simp⟩
  | absent => exact ⟨[], rfl, by simp⟩
  | left p id room calls => exact ⟨_, rfl, effects_isQuiet calls⟩

theorem run_call_isQuiet {cs : List Subscriber} (hs : Calling p cs gameplay)
    (hrun : run (call env p m) gameplay cs = .ok (gameplay', effects)) :
    ∀ o ∈ effects, o.isQuiet = true := by
  induction cs generalizing gameplay effects with
  | nil =>
    cases hrun
    simp
  | cons c cs ih =>
    obtain ⟨gameplay₁, os₁, os₂, hcall, hrest, rfl⟩ := run_cons_eq_ok.1 hrun
    intro o ho
    rcases List.mem_append.1 ho with ho | ho
    · exact (call_cases hs.inv.wellFormed hcall).isQuiet o ho
    · exact ih (hs.call (List.mem_cons_self ..) hcall).tail hrest o ho

theorem dispatchAction_effects_eq {cs : List Subscriber} (hs : Calling q cs gameplay)
    (hrun : gameplay.dispatchAction env q cs m = .ok (gameplay', effects)) :
    ∃ quiet, effects = quiet ++ [.actionHandled q m] ∧ ∀ o ∈ quiet, o.isQuiet = true := by
  obtain ⟨gameplay₁, os₁, os₂, hcalls, hpop, rfl⟩ := seq_eq_ok.1 hrun
  cases hpop
  exact ⟨os₁, rfl, run_call_isQuiet hs hcalls⟩

/-! ## The loop over connectivity messages -/

theorem run_dispatchConnectivity_handled {messages : List PlayerConnectivityMessage}
    (hinv : gameplay.Inv)
    (hrun : run dispatchConnectivity gameplay messages = .ok (gameplay', effects)) :
    (∀ p, handled p effects = messages.filterMap (PlayerConnectivityMessage.clientEvent? p)) ∧
      ∀ (hub : MessageHub) tail, hub.playerConnectivityMessages = messages ++ tail →
        (hub.replay effects).playerConnectivityMessages = tail ∧
          (hub.replay effects).playerActionMessagesByPlayerId =
            hub.playerActionMessagesByPlayerId := by
  induction messages generalizing gameplay effects with
  | nil =>
    cases hrun
    exact ⟨fun _ => rfl, fun hub tail h => ⟨h, rfl⟩⟩
  | cons message messages ih =>
    obtain ⟨gameplay₁, os₁, os₂, hstep, hrest, rfl⟩ := run_cons_eq_ok.1 hrun
    have hcase := dispatchConnectivity_cases hinv.wellFormed hstep
    obtain ⟨quiet, rfl, hquiet⟩ := hcase.effects_eq
    obtain ⟨hhandled, hqueues⟩ := ih (hinv.connectivity hcase) hrest
    constructor
    · intro p
      rw [handled_append, handled_append, handled_of_isQuiet hquiet, List.nil_append, hhandled,
        List.filterMap_cons]
      cases hevent : message.clientEvent? p <;> simp [handled, Effect.clientEvent?, hevent]
    · intro hub tail h
      rw [MessageHub.replay_append, MessageHub.replay_append]
      obtain ⟨hconn, hactions⟩ := hub.replay_of_isQuiet hquiet
      obtain ⟨hconn', hactions'⟩ := hqueues
        ((hub.replay quiet).replay [.connectivityHandled message]) tail (by
          show (hub.replay quiet).playerConnectivityMessages.tail = messages ++ tail
          rw [hconn, h]
          rfl)
      exact ⟨hconn', hactions'.trans hactions⟩

/-! ## The loops over players and their actions -/

theorem run_dispatchAction_handled {cs : List Subscriber} {ms : List PlayerActionMessage}
    (hs : Calling q cs gameplay)
    (hrun : run (dispatchAction env q cs) gameplay ms = .ok (gameplay', effects)) :
    (∀ p, handled p effects = if p = q then ms.map .action else []) ∧
      ∀ hub : MessageHub, hub.playerActionMessagesByPlayerId q = ms →
        (hub.replay effects).playerConnectivityMessages = hub.playerConnectivityMessages ∧
          ∀ p, (hub.replay effects).playerActionMessagesByPlayerId p =
            if p = q then [] else hub.playerActionMessagesByPlayerId p := by
  induction ms generalizing gameplay effects with
  | nil =>
    cases hrun
    refine ⟨fun p => ?_, fun hub h => ⟨rfl, fun p => ?_⟩⟩
    · by_cases hp : p = q
      · rw [if_pos hp]
        rfl
      · rw [if_neg hp]
        rfl
    · by_cases hp : p = q
      · rw [if_pos hp, hp]
        exact h
      · rw [if_neg hp]
        rfl
  | cons m ms ih =>
    obtain ⟨gameplay₁, os₁, os₂, hstep, hrest, rfl⟩ := run_cons_eq_ok.1 hrun
    obtain ⟨quiet, rfl, hquiet⟩ := dispatchAction_effects_eq hs hstep
    obtain ⟨hhandled, hqueues⟩ := ih (hs.dispatchAction hstep) hrest
    constructor
    · intro p
      rw [handled_append, handled_append, handled_of_isQuiet hquiet, List.nil_append, hhandled]
      by_cases hp : p = q
      · simp [handled, Effect.clientEvent?, hp]
      · simp [handled, Effect.clientEvent?, hp, Ne.symm hp]
    · intro hub h
      rw [MessageHub.replay_append, MessageHub.replay_append]
      obtain ⟨hconn, hactions⟩ := hub.replay_of_isQuiet hquiet
      have hpop : ((hub.replay quiet).replay
          [.actionHandled q m]).playerActionMessagesByPlayerId =
            Function.update hub.playerActionMessagesByPlayerId q ms := by
        show Function.update (hub.replay quiet).playerActionMessagesByPlayerId q
          ((hub.replay quiet).playerActionMessagesByPlayerId q).tail = _
        rw [hactions, h]
        rfl
      obtain ⟨hconn', hactions'⟩ := hqueues ((hub.replay quiet).replay [.actionHandled q m])
        (by rw [hpop, Function.update_self])
      refine ⟨hconn'.trans hconn, fun p => ?_⟩
      rw [hactions' p, hpop]
      by_cases hp : p = q
      · rw [if_pos hp, if_pos hp]
      · rw [if_neg hp, if_neg hp, Function.update_of_ne hp]

/-- Each player of the list is passed once. -/
theorem run_dispatchPlayer_handled {players : List PlayerId} (hnodup : players.Nodup)
    (hinv : gameplay.Inv)
    (hrun : run (dispatchPlayer env hub) gameplay players = .ok (gameplay', effects)) :
    (∀ p, handled p effects =
        if p ∈ players then (hub.playerActionMessagesByPlayerId p).map .action else []) ∧
      ∀ hub' : MessageHub, (∀ p ∈ players, hub'.playerActionMessagesByPlayerId p =
          hub.playerActionMessagesByPlayerId p) →
        (hub'.replay effects).playerConnectivityMessages = hub'.playerConnectivityMessages ∧
          ∀ p, (hub'.replay effects).playerActionMessagesByPlayerId p =
            if p ∈ players then [] else hub'.playerActionMessagesByPlayerId p := by
  induction players generalizing gameplay effects with
  | nil =>
    cases hrun
    exact ⟨fun _ => rfl, fun hub' _ => ⟨rfl, fun _ => rfl⟩⟩
  | cons q players ih =>
    obtain ⟨hq, hnodup⟩ := List.nodup_cons.1 hnodup
    obtain ⟨gameplay₁, os₁, os₂, hstep, hrest, rfl⟩ := run_cons_eq_ok.1 hrun
    obtain ⟨hhandled₁, hqueues₁⟩ := run_dispatchAction_handled (calling_entries hinv q) hstep
    obtain ⟨hhandled₂, hqueues₂⟩ := ih hnodup (dispatchPlayer_inv hinv hstep) hrest
    constructor
    · intro p
      rw [handled_append, hhandled₁, hhandled₂]
      by_cases hp : p = q
      · subst hp
        simp [hq]
      · simp [hp]
    · intro hub' h
      rw [MessageHub.replay_append]
      obtain ⟨hconn₁, hactions₁⟩ := hqueues₁ hub' (h q (List.mem_cons_self ..))
      obtain ⟨hconn₂, hactions₂⟩ := hqueues₂ (hub'.replay os₁) fun p hp => by
        have hne : p ≠ q := by
          intro heq
          exact hq (heq ▸ hp)
        rw [hactions₁, if_neg hne]
        exact h p (List.mem_cons_of_mem _ hp)
      refine ⟨hconn₂.trans hconn₁, fun p => ?_⟩
      rw [hactions₂, hactions₁]
      by_cases hp : p = q
      · simp [hp]
      · simp [hp]

/-! ## The keys stay the same while the map is visited -/

theorem handlePlayerMessage_listeners (gameplay : Gameplay) (env : Environment)
    (hp : p ∈ gameplay.messageBroker.listeners) (m : PlayerActionMessage) :
    (gameplay.handlePlayerMessage env p m).1.messageBroker.listeners =
      gameplay.messageBroker.listeners := by
  cases m with
  | joinGame nickname difficulty =>
    obtain ⟨room, -, hcalls, -⟩ :=
      gameplay.roomManager.addPlayerToRoom_spec env.draw p nickname difficulty
    show (gameplay.messageBroker.perform _
      (gameplay.roomManager.addPlayerToRoom env.draw p nickname difficulty).2.2).listeners = _
    rw [hcalls]
    exact gameplay.messageBroker.listeners_perform _ (room.addPlayer_concerns p nickname) hp
  | leaveGame =>
    cases hfirst : gameplay.roomManager.roomPlayerIsIn p with
    | none => rw [handlePlayerMessage, removePlayerFromRoom_of_none hfirst]
    | some found =>
      obtain ⟨id, room⟩ := found
      obtain ⟨manager, hremove, -⟩ := RoomManager.removePlayerFromRoom_of_some hfirst
      simp only [handlePlayerMessage, removePlayerFromRoom, hremove]
      exact gameplay.messageBroker.listeners_perform _ (room.removePlayer_concerns p) hp
  | _ => rfl

theorem call_listeners (hp : p ∈ gameplay.messageBroker.listeners)
    (hcall : gameplay.call env p m c = .ok (gameplay', effects)) :
    gameplay'.messageBroker.listeners = gameplay.messageBroker.listeners := by
  cases c with
  | gameplay =>
    have heq : (gameplay.handlePlayerMessage env p m).1 = gameplay' :=
      congrArg Prod.fst (Except.ok.inj hcall)
    rw [← heq]
    exact handlePlayerMessage_listeners gameplay env hp m
  | room id =>
    simp only [call, handleRoomMessage] at hcall
    cases hroom : gameplay.roomManager.room? id with
    | none =>
      rw [hroom] at hcall
      cases hcall
    | some room =>
      rw [hroom] at hcall
      cases hcall
      exact gameplay.messageBroker.listeners_perform _
        (room.handlePlayerMessage_concerns p m _) hp

theorem dispatchPlayer_listeners (hinv : gameplay.Inv)
    (hrun : gameplay.dispatchPlayer env hub p = .ok (gameplay', effects)) :
    gameplay'.messageBroker.listeners = gameplay.messageBroker.listeners := by
  refine dispatchPlayer_preserves
    (P := fun g => g.messageBroker.listeners = gameplay.messageBroker.listeners)
    (fun {g _ _ _ _} _ hkeys hc hcall => ?_) hinv rfl hrun
  have hp := g.messageBroker.mem_listeners_of_mem_callbacksWithContext hc
  exact (call_listeners hp hcall).trans hkeys

/-- Calling callbacks inserts no key, so the range the dispatch visits is stable. -/
theorem run_dispatchPlayer_listeners {players : List PlayerId} (hinv : gameplay.Inv)
    (hrun : run (dispatchPlayer env hub) gameplay players = .ok (gameplay', effects)) :
    gameplay'.messageBroker.listeners = gameplay.messageBroker.listeners := by
  refine run_dispatchPlayer_preserves
    (P := fun g => g.messageBroker.listeners = gameplay.messageBroker.listeners)
    (fun hinv hkeys hplayer => ?_) hinv rfl hrun
  exact (dispatchPlayer_listeners hinv hplayer).trans hkeys

/-! ## A whole dispatch -/

/-- A dispatch handles, for each client, the pending connectivity messages in order and then,
if the client is among the keys, its pending actions in order; and it leaves nothing of these
behind. -/
theorem dispatchMessages_handled {preference : List PlayerId} (hinv : gameplay.Inv)
    (hrun : gameplay.dispatchMessages env hub preference = .ok (gameplay', effects))
    (p : PlayerId) :
    handled p effects =
        hub.playerConnectivityMessages.filterMap (PlayerConnectivityMessage.clientEvent? p) ++
          (if p ∈ gameplay'.messageBroker.listeners then
            (hub.playerActionMessagesByPlayerId p).map .action else []) ∧
      (hub.replay effects).playerConnectivityMessages = [] ∧
      (hub.replay effects).playerActionMessagesByPlayerId p =
        if p ∈ gameplay'.messageBroker.listeners then []
        else hub.playerActionMessagesByPlayerId p := by
  obtain ⟨gameplay₁, os₁, os₂, hconn, hplayers, rfl⟩ := seq_eq_ok.1 hrun
  have hinv₁ := run_dispatchConnectivity_inv hinv hconn
  obtain ⟨hhandled₁, hqueues₁⟩ := run_dispatchConnectivity_handled hinv hconn
  obtain ⟨hhandled₂, hqueues₂⟩ :=
    run_dispatchPlayer_handled (gameplay₁.messageBroker.visitOrder_nodup preference) hinv₁ hplayers
  have hmem : p ∈ gameplay₁.messageBroker.visitOrder preference ↔
      p ∈ gameplay'.messageBroker.listeners := by
    rw [GameplayMessageBroker.mem_visitOrder, run_dispatchPlayer_listeners hinv₁ hplayers]
  obtain ⟨hconn₁, hactions₁⟩ := hqueues₁ hub [] (List.append_nil _).symm
  obtain ⟨hconn₂, hactions₂⟩ := hqueues₂ (hub.replay os₁) fun q _ => by rw [hactions₁]
  refine ⟨?_, ?_, ?_⟩
  · rw [handled_append, hhandled₁, hhandled₂]
    simp only [hmem]
  · rw [MessageHub.replay_append, hconn₂, hconn₁]
  · rw [MessageHub.replay_append, hactions₂, hactions₁]
    simp only [hmem]

end Gameplay
end SamuraiKirby
