/-
From the sockets of the clients to the callbacks of gameplay.

What comes from a client and can be read waits in the hub until gameplay handles
it, in the order it came.  The connectivity queue is drained before the others, so
by the time gameplay looks for the actions of a client it has a key for the client,
and a dispatch leaves nothing behind (`requests_of_run`).
-/
import SamuraiKirby.Network.Threads

namespace SamuraiKirby

open Transition

/-! ## The keys of the table of subscriptions -/

/-- No broker call removes a key. -/
theorem GameplayMessageBroker.mem_listeners_perform (broker : GameplayMessageBroker Subscriber)
    (context : Subscriber) (calls : List BrokerCall) {p : PlayerId} (hp : p ∈ broker.listeners) :
    p ∈ (broker.perform context calls).listeners := by
  induction calls generalizing broker with
  | nil => exact hp
  | cons c calls ih =>
    have haccess : ∀ q, p ∈ (broker.access q).listeners := fun q =>
      (mem_listeners_access broker q p).2 (Or.inr hp)
    cases c with
    | publishGameplayMessage q m => exact ih broker hp
    | subscribeToPlayerActionMessages q => exact ih _ (haccess q)
    | unsubscribeToPlayerActionMessages q => exact ih _ (haccess q)

namespace Gameplay

variable {gameplay gameplay' : Gameplay} {effects : List Effect} {p : PlayerId}

theorem tickAllRooms_listeners {readings : RoomId → Readings} {draws : RoomId → Nat}
    (hrun : gameplay.tickAllRooms readings draws = .ok (gameplay', effects))
    (hp : p ∈ gameplay.messageBroker.listeners) : p ∈ gameplay'.messageBroker.listeners := by
  refine run_invariant (P := fun g : Gameplay => p ∈ g.messageBroker.listeners)
    (fun g id g' os hp htick => ?_) hp hrun
  unfold tickRoom at htick
  cases hroom : g.roomManager.room? id with
  | none =>
    rw [hroom] at htick
    cases htick
    exact hp
  | some room =>
    simp only [hroom] at htick
    cases hroomtick : room.tick (readings id) (draws id) with
    | error _ =>
      simp only [hroomtick] at htick
      cases htick
    | ok outcome =>
      simp only [hroomtick] at htick
      cases htick
      exact g.messageBroker.mem_listeners_perform _ _ hp

/-- A connectivity message makes a key for its client. -/
theorem dispatchConnectivity_listeners {message : PlayerConnectivityMessage}
    (h : gameplay.dispatchConnectivity message = .ok (gameplay', effects))
    (hp : p ∈ gameplay.messageBroker.listeners ∨ p = message.playerId) :
    p ∈ gameplay'.messageBroker.listeners := by
  obtain ⟨messageType, q⟩ := message
  cases messageType with
  | connect =>
    cases h
    exact (GameplayMessageBroker.mem_listeners_access gameplay.messageBroker q p).2 hp.symm
  | disconnect =>
    cases h
    refine (GameplayMessageBroker.mem_listeners_access _ q p).2 (hp.symm.imp id fun hp => ?_)
    show p ∈ (gameplay.removePlayerFromRoom q).1.messageBroker.listeners
    unfold removePlayerFromRoom
    cases gameplay.roomManager.removePlayerFromRoom q with
    | none => exact hp
    | some outcome => exact gameplay.messageBroker.mem_listeners_perform _ _ hp

theorem run_dispatchConnectivity_listeners {messages : List PlayerConnectivityMessage}
    (hrun : run dispatchConnectivity gameplay messages = .ok (gameplay', effects))
    (hp : p ∈ gameplay.messageBroker.listeners ∨ ∃ message ∈ messages, p = message.playerId) :
    p ∈ gameplay'.messageBroker.listeners := by
  induction messages generalizing gameplay effects with
  | nil =>
    cases hrun
    rcases hp with hp | ⟨message, hmessage, -⟩
    · exact hp
    · cases hmessage
  | cons message messages ih =>
    obtain ⟨gameplay₁, os₁, os₂, hstep, hrest, rfl⟩ := run_cons_eq_ok.1 hrun
    refine ih hrest ?_
    rcases hp with hp | ⟨message', hmessage', hid⟩
    · exact Or.inl (dispatchConnectivity_listeners hstep (Or.inl hp))
    · rcases List.mem_cons.1 hmessage' with rfl | hmessage'
      · exact Or.inl (dispatchConnectivity_listeners hstep (Or.inr hid))
      · exact Or.inr ⟨message', hmessage', hid⟩

theorem dispatchMessages_listeners {env : Environment} {hub : MessageHub}
    {preference : List PlayerId} (hinv : gameplay.Inv)
    (hrun : gameplay.dispatchMessages env hub preference = .ok (gameplay', effects))
    (hp : p ∈ gameplay.messageBroker.listeners ∨
      ∃ message ∈ hub.playerConnectivityMessages, p = message.playerId) :
    p ∈ gameplay'.messageBroker.listeners := by
  obtain ⟨gameplay₁, os₁, os₂, hconn, hplayers, -⟩ := seq_eq_ok.1 hrun
  rw [run_dispatchPlayer_listeners (run_dispatchConnectivity_inv hinv hconn) hplayers]
  exact run_dispatchConnectivity_listeners hconn hp

end Gameplay

namespace Process

variable {env : Environment}
  {deserialize : Bytes → Except DeserializeFailure PlayerActionMessage}
  {dumpFloat : Rat → Bytes} {process process' : Process} {effects told : List Effect}
  {outside : Outside} {input : Input} {inputs : List Input} {p : PlayerId}

/-! ## The way in -/

/-- Something that could be read came from a client. -/
def Effect.request? (deserialize : Bytes → Except DeserializeFailure PlayerActionMessage)
    (p : PlayerId) : Effect → Option PlayerActionMessage
  | .received q (.data bytes) => if q = p then (deserialize bytes).toOption else none
  | _ => none

/-- Gameplay has passed an action to the callbacks of a client. -/
def Effect.answered? (p : PlayerId) : Effect → Option PlayerActionMessage
  | .gameplay (.actionHandled q message) => if q = p then some message else none
  | _ => none

/-- What came from a client. -/
def requests (deserialize : Bytes → Except DeserializeFailure PlayerActionMessage) (p : PlayerId)
    (effects : List Effect) : List PlayerActionMessage :=
  effects.filterMap (Effect.request? deserialize p)

/-- What gameplay has handled of a client. -/
def answered (p : PlayerId) (effects : List Effect) : List PlayerActionMessage :=
  effects.filterMap (Effect.answered? p)

/-- The actions of a client that wait for gameplay. -/
def pending (process : Process) (p : PlayerId) : List PlayerActionMessage :=
  process.messageHub.playerActionMessagesByPlayerId p

/-- Gameplay has a key for the client, or will have one before it looks for actions. -/
def Announced (process : Process) (p : PlayerId) : Prop :=
  p ∈ process.gameplay.messageBroker.listeners ∨
    ∃ message ∈ process.messageHub.playerConnectivityMessages, p = message.playerId

theorem requests_append (os os' : List Effect) :
    requests deserialize p (os ++ os') = requests deserialize p os ++ requests deserialize p os' :=
  List.filterMap_append

theorem answered_append (os os' : List Effect) :
    answered p (os ++ os') = answered p os ++ answered p os' := List.filterMap_append

/-- What came from a client was handled or waits, in the order it came, and who has something
waiting or is connected is known to gameplay or about to be. -/
structure Receives (deserialize : Bytes → Except DeserializeFailure PlayerActionMessage)
    (process : Process) (told : List Effect) : Prop where
  inv : process.gameplay.Inv
  inbound : ∀ p, requests deserialize p told = answered p told ++ process.pending p
  clients : ∀ p ∈ Server.ids process.connectedClients, process.Announced p
  waits : ∀ p, process.pending p ≠ [] → process.Announced p

theorem receives_new : Receives deserialize new [] where
  inv := Gameplay.inv_new
  inbound _ := rfl
  clients _ hp := absurd hp List.not_mem_nil
  waits _ h := absurd rfl h

theorem pending_publishAll (process : Process) (events : List System.Event) (p : PlayerId) :
    (process.publishAll events).pending p = process.pending p ++
      events.filterMap fun
        | .publishPlayerActionMessage q message => if q = p then some message else none
        | _ => none := by
  show (events.foldl MessageHub.publish process.messageHub).playerActionMessagesByPlayerId p =
    process.messageHub.playerActionMessagesByPlayerId p ++ _
  generalize process.messageHub = hub
  induction events generalizing hub with
  | nil => exact (List.append_nil _).symm
  | cons e events ih =>
    rw [List.foldl_cons, ih]
    cases e with
    | publishPlayerActionMessage q message =>
      simp only [MessageHub.publish, MessageHub.playerActionMessages_pushAction,
        List.filterMap_cons]
      by_cases hq : q = p
      · rw [if_pos hq, if_pos hq, List.append_assoc]
        rfl
      · rw [if_neg hq, if_neg hq, List.append_nil]
    | _ => rfl

/-- A client publishes what could be read of what came. -/
theorem pending_received {client client' : ConnectedClient} {result : RecvResult}
    {events : List System.Event}
    (h : client.receiveFromNetwork deserialize result = (client', events)) (p : PlayerId) :
    (process.publishAll events).pending p = process.pending p ++
      requests deserialize p (.received client.id result :: events.map .published) := by
  have hquiet : requests deserialize p (events.map .published) = [] := by
    unfold requests
    rw [List.filterMap_map]
    exact List.filterMap_eq_nil_iff.2 fun _ _ => rfl
  rw [pending_publishAll, requests, List.filterMap_cons, ← requests, hquiet]
  refine congrArg (process.pending p ++ ·) ?_
  cases result with
  | data bytes =>
    simp only [ConnectedClient.receiveFromNetwork] at h
    cases hmessage : deserialize bytes with
    | error failure =>
      rw [hmessage] at h
      cases h
      by_cases hp : client.id = p <;> simp [Effect.request?, hmessage, Except.toOption, hp]
    | ok message =>
      rw [hmessage] at h
      cases h
      by_cases hp : client.id = p <;> simp [Effect.request?, hmessage, Except.toOption, hp]
  | _ =>
    cases h
    rfl

/-- What a client publishes is about the client. -/
theorem announced_publishAll (h : process.Announced p) (events : List System.Event) :
    (process.publishAll events).Announced p := by
  refine h.imp id fun ⟨message, hmessage, hid⟩ => ⟨message, ?_, hid⟩
  show message ∈ (events.foldl MessageHub.publish process.messageHub).playerConnectivityMessages
  revert hmessage
  generalize process.messageHub = hub
  intro hmessage
  induction events generalizing hub with
  | nil => exact hmessage
  | cons e events ih =>
    refine ih _ ?_
    cases e with
    | publishPlayerConnectivityMessage message' => exact List.mem_append_left _ hmessage
    | _ => exact hmessage

theorem request?_handed {handed : List (Handed PlayerId)} {clients : List ConnectedClient}
    (hsent : handed.mapM (callBack dumpFloat clients) = .ok effects) (p : PlayerId) :
    requests deserialize p effects = [] ∧ answered p effects = [] := by
  constructor <;> refine List.filterMap_eq_nil_iff.2 fun o ho => ?_
  · obtain ⟨handed, bytes, rfl⟩ := unseen_of_callBack hsent o ho
    rfl
  · obtain ⟨handed, bytes, rfl⟩ := unseen_of_callBack hsent o ho
    rfl

/-- Nothing came from anybody and nothing was handled. -/
theorem Receives.idle (h : Receives deserialize process told)
    (hgameplay : process'.gameplay = process.gameplay)
    (hinbound : process.messageHub.SameInbound process'.messageHub)
    (hids : ∀ p ∈ Server.ids process'.connectedClients, p ∈ Server.ids process.connectedClients)
    (hquiet : ∀ p, requests deserialize p effects = [] ∧ answered p effects = []) :
    Receives deserialize process' (told ++ effects) := by
  have hpending : process'.pending = process.pending := hinbound.actions
  have hannounced : ∀ p, process.Announced p → process'.Announced p := by
    intro p hp
    unfold Announced at hp ⊢
    rwa [hgameplay, hinbound.connectivity]
  exact
    { inv := hgameplay ▸ h.inv
      inbound := fun p => by
        rw [requests_append, answered_append, (hquiet p).1, (hquiet p).2, List.append_nil,
          List.append_nil, h.inbound, hpending]
      clients := fun p hp => hannounced p (h.clients p (hids p hp))
      waits := fun p hp => hannounced p (h.waits p (hpending ▸ hp)) }

/-- A client has received. -/
theorem Receives.received (h : Receives deserialize process told) {client client' : ConnectedClient}
    {result : RecvResult} {events : List System.Event}
    (hreceive : client.receiveFromNetwork deserialize result = (client', events))
    (hclient : client.id ∈ Server.ids process.connectedClients) (loop : Loop)
    (hids : ∀ p ∈ Server.ids loop.connectedClients, p ∈ Server.ids process.connectedClients) :
    Receives deserialize { process.publishAll events with loop := loop }
      (told ++ (.received client.id result :: events.map .published)) where
  inv := h.inv
  inbound p := by
    have hanswered : answered p (.received client.id result :: events.map .published) = [] := by
      unfold answered
      rw [List.filterMap_cons, List.filterMap_map]
      exact List.filterMap_eq_nil_iff.2 fun _ _ => rfl
    rw [requests_append, answered_append, hanswered, List.append_nil, h.inbound, List.append_assoc]
    exact congrArg (answered p told ++ ·) (pending_received hreceive p).symm
  clients p hp := announced_publishAll (h.clients p (hids p hp)) events
  waits p hp := by
    show (process.publishAll events).Announced p
    refine announced_publishAll ?_ events
    by_cases hself : client.id = p
    · exact h.clients p (hself ▸ hclient)
    · refine h.waits p fun hnil => hp ?_
      have hpending := @pending_received deserialize process client client' result events hreceive p
      rw [hnil] at hpending
      refine hpending.trans (List.filterMap_eq_nil_iff.2 fun o ho => ?_)
      rcases List.mem_cons.1 ho with rfl | ho
      · cases result with
        | data bytes => exact if_neg hself
        | _ => rfl
      · obtain ⟨e, -, rfl⟩ := List.mem_map.1 ho
        rfl

theorem NetworkCase.inbound (hcase : NetworkCase deserialize dumpFloat process outside process'
    effects) (h : Receives deserialize process told) :
    Receives deserialize process' (told ++ effects) := by
  have hquiet : ∀ p, requests deserialize p [] = [] ∧ answered p [] = [] := fun _ => ⟨rfl, rfl⟩
  cases hcase with
  | refuses clients hloop haccept => exact h.idle rfl (.refl _) (fun p hp => hp) hquiet
  | begins clients hloop haccept =>
    refine h.idle rfl (.refl _) (fun p hp => ?_) hquiet
    rw [connectedClients, hloop]
    exact hp
  | ends before hloop =>
    refine h.idle rfl (.refl _) (fun p hp => ?_) hquiet
    rw [connectedClients, hloop, Loop.connectedClients, List.append_nil]
    exact hp
  | accepts clients hloop haccept =>
    have hannounced : ∀ p, process.Announced p ∨ p = process.nextClientId →
        Announced { process with
          messageHub := process.messageHub.pushConnectivity ⟨.connect, process.nextClientId⟩
          messageBroker := process.messageBroker.subscribeToGameplayMessagesForPlayer
            process.nextClientId process.nextClientId
          loop := .receiving [] (clients ++ [⟨process.nextClientId, false⟩])
          nextClientId := process.nextClientId + 1 } p := by
      rintro p (hp | rfl)
      · exact hp.imp id (Exists.imp fun _ h => ⟨List.mem_append_left _ h.1, h.2⟩)
      · exact Or.inr ⟨_, List.mem_append_right _ (List.mem_singleton_self _), rfl⟩
    refine ⟨h.inv, fun p => ?_, fun p hp => hannounced p ?_, fun p hp => hannounced p ?_⟩
    · rw [requests_append, answered_append]
      exact (List.append_nil _).trans ((h.inbound p).trans
        (congrArg (· ++ process.pending p) (List.append_nil _).symm))
    · have hids : Server.ids (clients ++ [⟨process.nextClientId, false⟩]) =
          Server.ids clients ++ [process.nextClientId] := List.map_append
      have hmem : p ∈ Server.ids clients ++ [process.nextClientId] := hids ▸ hp
      rcases List.mem_append.1 hmem with hmem | hmem
      · refine Or.inl (h.clients p ?_)
        rw [connectedClients, hloop]
        exact hmem
      · exact Or.inr (List.mem_singleton.1 hmem)
    · exact Or.inl (h.waits p hp)
  | fails before client rest hloop hrecv =>
    have hids : ∀ p ∈ Server.ids (before ++ client :: rest),
        p ∈ Server.ids process.connectedClients := by
      intro p hp
      rw [connectedClients, hloop]
      exact hp
    have hreceive : client.receiveFromNetwork deserialize .failed =
        (client, [.publishPlayerConnectivityMessage ⟨.disconnect, client.id⟩]) := rfl
    exact h.received hreceive (hids _ (List.mem_map_of_mem (List.mem_append_right _
      (List.mem_cons_self ..)))) (.accepting (before ++ client :: rest)) hids
  | receives before client client' rest events hloop hrecv hreceive =>
    have hids : ∀ p ∈ Server.ids (before ++ client :: rest),
        p ∈ Server.ids process.connectedClients := by
      intro p hp
      rw [connectedClients, hloop]
      exact hp
    refine h.received hreceive (hids _ (List.mem_map_of_mem (List.mem_append_right _
      (List.mem_cons_self ..)))) (.dispatching before client' rest) fun p hp => hids p ?_
    simpa only [Loop.connectedClients, Server.ids, List.map_append, List.map_cons,
      ConnectedClient.id_receiveFromNetwork hreceive] using hp
  | keeps before client rest delivery handed sent hloop hdispatch hsent hclient =>
    refine h.idle rfl (Delivery.dispatchMessages_sameInbound hdispatch) (fun p hp => ?_)
      fun p => ?_
    · rw [connectedClients, hloop]
      simpa only [connectedClients, Loop.connectedClients, List.append_assoc,
        List.singleton_append] using hp
    · obtain ⟨hrequests, hanswered⟩ := @request?_handed deserialize dumpFloat sent handed _ hsent p
      rw [requests_append, answered_append, hrequests, hanswered]
      exact ⟨rfl, rfl⟩
  | erases before client rest delivery handed sent hloop hdispatch hsent hclient =>
    refine h.idle rfl (Delivery.dispatchMessages_sameInbound hdispatch) (fun p hp => ?_)
      fun p => ?_
    · rw [connectedClients, hloop]
      have hsub : (before ++ rest).Sublist (before ++ client :: rest) :=
        (List.sublist_cons_self client rest).append_left before
      exact (hsub.map (·.id)).subset hp
    · obtain ⟨hrequests, hanswered⟩ := @request?_handed deserialize dumpFloat sent handed _ hsent p
      rw [requests_append, answered_append, hrequests, hanswered]
      exact ⟨rfl, rfl⟩

theorem answered_gameplay (os : List SamuraiKirby.Effect) (p : PlayerId) :
    answered p (os.map .gameplay) = (handled p os).filterMap fun
      | .action message => some message
      | _ => none := by
  unfold answered handled
  rw [List.filterMap_map, List.filterMap_filterMap]
  refine List.filterMap_congr fun o _ => ?_
  cases o with
  | connectivityHandled message =>
    obtain ⟨messageType, q⟩ := message
    by_cases hq : q = p <;> cases messageType <;>
      simp [SamuraiKirby.Effect.clientEvent?, PlayerConnectivityMessage.clientEvent?, hq,
        Effect.answered?]
  | actionHandled q message =>
    by_cases hq : q = p <;> simp [SamuraiKirby.Effect.clientEvent?, hq, Effect.answered?]
  | _ => rfl

theorem requests_gameplay (os : List SamuraiKirby.Effect) (p : PlayerId) :
    requests deserialize p (os.map .gameplay) = [] := by
  unfold requests
  rw [List.filterMap_map]
  exact List.filterMap_eq_nil_iff.2 fun _ _ => rfl

/-- A dispatch handles all that waits. -/
theorem Receives.dispatch (h : Receives deserialize process told) {preference : List PlayerId}
    {gameplay' : Gameplay} {os : List SamuraiKirby.Effect}
    (hrun : process.gameplay.dispatchMessages env process.messageHub preference =
      .ok (gameplay', os)) (p : PlayerId) :
    answered p (os.map .gameplay) = process.pending p ∧
      (process.messageHub.replay os).playerActionMessagesByPlayerId p = [] := by
  obtain ⟨hhandled, -, hactions⟩ := Gameplay.dispatchMessages_handled h.inv hrun p
  have hconn : (process.messageHub.playerConnectivityMessages.filterMap
      (PlayerConnectivityMessage.clientEvent? p)).filterMap (fun
        | .action message => some message
        | _ => none) = [] := by
    rw [List.filterMap_filterMap]
    refine List.filterMap_eq_nil_iff.2 fun message _ => ?_
    obtain ⟨messageType, q⟩ := message
    by_cases hq : q = p <;> cases messageType <;>
      simp [PlayerConnectivityMessage.clientEvent?, hq]
  rw [answered_gameplay, hhandled, List.filterMap_append, hconn, hactions]
  by_cases hp : p ∈ gameplay'.messageBroker.listeners
  · rw [if_pos hp, if_pos hp, List.filterMap_map]
    exact ⟨List.filterMap_some, rfl⟩
  · rw [if_neg hp, if_neg hp]
    have hnil : process.pending p = [] := by
      by_contra hne
      exact hp (Gameplay.dispatchMessages_listeners h.inv hrun (h.waits p hne))
    exact ⟨hnil.symm, hnil⟩

theorem step_receives (h : Receives deserialize process told)
    (hstep : process.step env deserialize dumpFloat input = .ok (process', effects)) :
    Receives deserialize process' (told ++ effects) := by
  cases step_cases hstep with
  | network outside process' effects hcase => exact hcase.inbound h
  | gameplay input e hcall s os hsystem =>
    have hcalled : ∀ os : List SamuraiKirby.Effect, ∀ p,
        requests deserialize p (.called e :: os.map .gameplay) = [] ∧
          answered p (.called e :: os.map .gameplay) = answered p (os.map .gameplay) :=
      fun os p => ⟨requests_gameplay os p, rfl⟩
    have hinv : process.system.gameplay.Inv := h.inv
    cases Gameplay.step_cases hinv hsystem with
    | publishConnectivity message => cases input <;> cases hcall
    | publishAction playerId message => cases input <;> cases hcall
    | dispatch preference gameplay' os hrun =>
      have hlisteners : ∀ p, process.Announced p → Announced { process with
          messageHub := process.messageHub.replay os, gameplay := gameplay' } p :=
        fun p hp => Or.inl (Gameplay.dispatchMessages_listeners hinv hrun hp)
      refine ⟨Gameplay.dispatchMessages_inv hinv hrun, fun p => ?_,
        fun p hp => hlisteners p (h.clients p hp), fun p hp => ?_⟩
      · obtain ⟨hanswered, hnil⟩ := h.dispatch hrun p
        rw [requests_append, answered_append, (hcalled os p).1, (hcalled os p).2, hanswered,
          List.append_nil, h.inbound]
        exact (List.append_nil _).symm.trans (congrArg _ hnil.symm)
      · exact absurd (h.dispatch hrun p).2 hp
    | tick readings draws gameplay' os hunmoved hpublished =>
      have hquiet : ∀ o ∈ os, o.isQuiet = true := by
        intro o ho
        obtain ⟨q, message, rfl⟩ := hpublished o ho
        rfl
      have htick : process.gameplay.tickAllRooms readings draws = .ok (gameplay', os) := by
        simp only [System.step, System.perform] at hsystem
        cases htick : process.system.gameplay.tickAllRooms readings draws with
        | error fault =>
          rw [htick] at hsystem
          cases hsystem
        | ok outcome =>
          rw [htick] at hsystem
          simp only [Except.ok.injEq, Prod.mk.injEq, System.mk.injEq] at hsystem
          obtain ⟨⟨-, hgameplay⟩, hos⟩ := hsystem
          rw [← hgameplay, ← hos]
          exact htick
      obtain ⟨hconn, hactions⟩ := process.messageHub.replay_of_isQuiet hquiet
      have hannounced : ∀ p, process.Announced p → Announced { process with
          messageHub := process.messageHub.replay os, gameplay := gameplay' } p := by
        intro p hp
        refine hp.imp (Gameplay.tickAllRooms_listeners htick) fun hp => ?_
        rwa [← hconn] at hp
      refine ⟨Gameplay.step_inv hinv hsystem, fun p => ?_,
        fun p hp => hannounced p (h.clients p hp), fun p hp => hannounced p (h.waits p ?_)⟩
      · rw [requests_append, answered_append, (hcalled os p).1, (hcalled os p).2,
          answered_gameplay, handled_of_isQuiet hquiet, List.filterMap_nil, List.append_nil,
          List.append_nil, h.inbound]
        exact congrArg _ (congrFun hactions p).symm
      · rwa [pending, ← hactions]

theorem run_receives
    (hrun : run (step env deserialize dumpFloat) new inputs = .ok (process, effects)) :
    Receives deserialize process effects := by
  have hend : Receives deserialize process ([] ++ effects) := by
    refine run_told (C := fun _ _ _ => True) (fun s told a rest s' os _ h _ hstep => ?_)
      receives_new (along_true _ _) hrun
    exact step_receives h hstep
  exact hend

/-- Whatever the clients send and whichever thread goes on, gameplay handles of each client what
came from it and could be read, each once and in the order it came, as far as the last dispatch:
what came since then waits.  A dispatch is one step here; in the source, which takes no lock, an
action published behind the visit of its queue waits for the next dispatch. -/
theorem requests_of_run
    (hrun : run (step env deserialize dumpFloat) new inputs = .ok (process, effects))
    (p : PlayerId) :
    requests deserialize p effects = answered p effects ++ process.pending p ∧
      ∀ before preference, inputs = before ++ [.dispatchMessages preference] →
        process.pending p = [] := by
  refine ⟨(run_receives hrun).inbound p, ?_⟩
  rintro before preference rfl
  obtain ⟨process₁, os₁, os₂, hbefore, hlast, -⟩ := run_append_eq_ok.1 hrun
  rw [run_singleton] at hlast
  simp only [step, play, System.step, System.perform] at hlast
  cases hdispatch : process₁.system.gameplay.dispatchMessages env process₁.system.messageHub
      preference with
  | error fault =>
    simp only [hdispatch] at hlast
    cases hlast
  | ok outcome =>
    simp only [hdispatch] at hlast
    cases hlast
    exact ((run_receives hbefore).dispatch hdispatch p).2

/-- A client is accepted and joins, and says something that cannot be read. -/
def joinsAndMumbles : List Input :=
  [.network ⟨.accepted, .wouldBlock, [], []⟩,
    .network ⟨.wouldBlock, .data Serializer.joinText, [], []⟩,
    .network ⟨.wouldBlock, .wouldBlock, [], []⟩, .network ⟨.wouldBlock, .wouldBlock, [], []⟩,
    .network ⟨.wouldBlock, .wouldBlock, [], []⟩, .network ⟨.wouldBlock, .data [], [], []⟩]

theorem requests_of_run_joinsAndMumbles :
    ∃ process effects,
      run (step Gameplay.stillEnvironment (Serializer.deserializePlayerActionMessage
          ⟨fun _ => 0, fun _ => 0⟩ Serializer.parseJoin) fun _ => []) new
          (joinsAndMumbles ++ [.dispatchMessages []]) = .ok (process, effects) ∧
        answered 0 effects = [.joinGame (ascii "Kirby") .easy] := by
  refine ⟨_, _, rfl, ?_⟩
  have hrequests := @requests_of_run Gameplay.stillEnvironment
    (Serializer.deserializePlayerActionMessage ⟨fun _ => 0, fun _ => 0⟩ Serializer.parseJoin)
    (fun _ => []) _ _ (joinsAndMumbles ++ [.dispatchMessages []]) rfl 0
  have hanswered := hrequests.1
  rw [hrequests.2 joinsAndMumbles [] rfl, List.append_nil] at hanswered
  exact hanswered.symm.trans rfl

end Process
end SamuraiKirby
