/-
The two threads of the server, taken apart.

The threads share nothing but the queues of the hub, so each can be seen by itself.
A run of the whole process is a run of `System` (`run_agrees`): gameplay does what it
would do if the network were only a list of publications.  On the network side the
clients and their callbacks belong together at every moment (`run_serves`).
-/
import SamuraiKirby.Network.Process

namespace SamuraiKirby

open Transition

/-! ## Lists of calls -/

theorem mapM_eq_ok {α β ε : Type} {f : α → Except ε β} {as : List α} {bs : List β}
    (h : as.mapM f = .ok bs) : List.Forall₂ (fun a b => f a = .ok b) as bs := by
  induction as generalizing bs with
  | nil =>
    cases h
    exact .nil
  | cons a as ih =>
    rw [List.mapM_cons] at h
    cases hf : f a with
    | error e =>
      rw [hf] at h
      cases h
    | ok b =>
      cases hrest : as.mapM f with
      | error e =>
        rw [hf, hrest] at h
        cases h
      | ok bs' =>
        rw [hf, hrest] at h
        cases h
        exact .cons hf (ih hrest)

namespace NetworkMessageBroker

variable {κ : Type}

theorem mem_registered_subscribe (broker : NetworkMessageBroker κ) (q : PlayerId) (callback : κ)
    (p : PlayerId) : p ∈ (broker.subscribeToGameplayMessagesForPlayer q callback).registered ↔
      p ∈ broker.registered ∨ p = q := by
  by_cases h : p = q
  · simp [registered, subscribeToGameplayMessagesForPlayer, h]
  · simp [registered, subscribeToGameplayMessagesForPlayer, h]

theorem mem_registered_unsubscribe (broker : NetworkMessageBroker κ) (q p : PlayerId) :
    p ∈ (broker.unsubscribeToGameplayMessagesForPlayer q).registered ↔
      p ∈ broker.registered ∧ p ≠ q := by
  simp [registered, unsubscribeToGameplayMessagesForPlayer]

end NetworkMessageBroker

theorem ConnectedClient.id_receiveFromNetwork
    {deserialize : Bytes → Except DeserializeFailure PlayerActionMessage}
    {client client' : ConnectedClient} {result : RecvResult} {events : List System.Event}
    (h : client.receiveFromNetwork deserialize result = (client', events)) :
    client'.id = client.id := by
  have hfst := congrArg Prod.fst h
  rw [Server.receiveFromNetwork_fst] at hfst
  rw [← show _ = client' from hfst]
  split_ifs <;> rfl

/-- The clients the iterator is not at. -/
def Loop.others : Loop → List ConnectedClient
  | .accepting connectedClients => connectedClients
  | .receiving before rest => before ++ rest
  | .dispatching before _ rest => before ++ rest

namespace Process

variable {env : Environment}
  {deserialize : Bytes → Except DeserializeFailure PlayerActionMessage}
  {dumpFloat : Rat → Bytes} {process process' : Process} {effects : List Effect}
  {outside : Outside} {input : Input} {inputs : List Input}

/-! ## Clients and callbacks -/

/-- The clients and the callbacks fit together: whoever has a callback is there, and the callback
is its own. -/
structure Serves (process : Process) : Prop where
  distinct : (Server.ids process.connectedClients).Nodup
  fresh : ∀ p ∈ Server.ids process.connectedClients, p < process.nextClientId
  connected : ∀ client ∈ process.loop.others, client.hasBeenDisconnected = false
  registered : ∀ p, p ∈ process.messageBroker.registered ↔
    p ∈ Server.ids process.connectedClients
  own : ∀ entry ∈ process.messageBroker.gameplayMessageCallbackByPlayerId, entry.2 = entry.1

theorem serves_new : Serves new where
  distinct := List.nodup_nil
  fresh _ h := absurd h List.not_mem_nil
  connected _ h := absurd h List.not_mem_nil
  registered _ := Iff.rfl
  own _ h := absurd h List.not_mem_nil

/-- The iterator moves, and the clients stay. -/
theorem Serves.moves (h : Serves process)
    (hids : Server.ids process'.connectedClients = Server.ids process.connectedClients)
    (hbroker : process'.messageBroker = process.messageBroker)
    (hnext : process'.nextClientId = process.nextClientId)
    (hothers : ∀ client ∈ process'.loop.others, client.hasBeenDisconnected = false) :
    Serves process' where
  distinct := by
    rw [hids]
    exact h.distinct
  fresh := by
    rw [hids, hnext]
    exact h.fresh
  connected := hothers
  registered := by
    rw [hids, hbroker]
    exact h.registered
  own := by
    rw [hbroker]
    exact h.own

theorem NetworkCase.serves (hcase : NetworkCase deserialize dumpFloat process outside process'
    effects) (h : Serves process) : Serves process' := by
  have hconnected := h.connected
  have hfresh := h.fresh
  have hdistinct := h.distinct
  have hregistered := h.registered
  cases hcase with
  | refuses clients hloop haccept => exact h
  | begins clients hloop haccept =>
    rw [hloop] at hconnected
    exact h.moves (by rw [connectedClients, connectedClients, hloop]; rfl) rfl rfl hconnected
  | accepts clients hloop haccept =>
    simp only [connectedClients, hloop, Loop.connectedClients, Loop.others] at *
    have hids : Server.ids (clients ++ [⟨process.nextClientId, false⟩]) =
        Server.ids clients ++ [process.nextClientId] := List.map_append
    refine ⟨?_, fun p hp => ?_, fun client hclient => ?_, fun p => ?_, fun entry hentry => ?_⟩
    · show (Server.ids (clients ++ [⟨process.nextClientId, false⟩])).Nodup
      rw [hids]
      refine List.nodup_append.2 ⟨hdistinct, List.nodup_singleton _, fun p hp q hq heq => ?_⟩
      have hlt := hfresh p hp
      rw [heq, List.mem_singleton.1 hq] at hlt
      exact Int.lt_irrefl _ hlt
    · have hp' : p ∈ Server.ids clients ++ [process.nextClientId] := hids ▸ hp
      rcases List.mem_append.1 hp' with hp | hp
      · exact Int.lt_trans (hfresh p hp) (Int.lt_succ _)
      · rw [List.mem_singleton.1 hp]
        exact Int.lt_succ _
    · rcases List.mem_append.1 (show client ∈ clients ++ [_] from hclient) with hclient | hclient
      · exact hconnected client hclient
      · rw [List.mem_singleton.1 hclient]
    · show p ∈ (process.messageBroker.subscribeToGameplayMessagesForPlayer _ _).registered ↔
        p ∈ Server.ids (clients ++ [⟨process.nextClientId, false⟩])
      rw [NetworkMessageBroker.mem_registered_subscribe, hregistered, hids, List.mem_append,
        List.mem_singleton]
    · rcases List.mem_append.1 hentry with hentry | hentry
      · exact h.own entry (List.mem_filter.1 hentry).1
      · rw [List.mem_singleton.1 hentry]
  | ends before hloop =>
    rw [hloop, Loop.others, List.append_nil] at hconnected
    refine h.moves ?_ rfl rfl hconnected
    rw [connectedClients, connectedClients, hloop, Loop.connectedClients, Loop.connectedClients,
      List.append_nil]
  | fails before client rest hloop hrecv =>
    rw [hloop] at hconnected
    exact h.moves (by rw [connectedClients, connectedClients, hloop]; rfl) rfl rfl hconnected
  | receives before client client' rest events hloop hrecv hreceive =>
    rw [hloop] at hconnected
    refine h.moves ?_ rfl rfl fun other hother => hconnected other ?_
    · simp only [connectedClients, hloop, Loop.connectedClients, Server.ids, List.map_append,
        List.map_cons, ConnectedClient.id_receiveFromNetwork hreceive]
    · rcases List.mem_append.1 hother with hother | hother
      · exact List.mem_append_left _ hother
      · exact List.mem_append_right _ (List.mem_cons_of_mem _ hother)
  | keeps before client rest delivery handed sent hloop hdispatch hsent hclient =>
    rw [hloop] at hconnected
    refine h.moves ?_ rfl rfl fun other hother => ?_
    · simp only [connectedClients, hloop, Loop.connectedClients, List.append_assoc,
        List.singleton_append]
    · rcases List.mem_append.1 hother with hother | hother
      · rcases List.mem_append.1 hother with hother | hother
        · exact hconnected other (List.mem_append_left _ hother)
        · rw [List.mem_singleton.1 hother]
          exact hclient
      · exact hconnected other (List.mem_append_right _ hother)
  | erases before client rest delivery handed sent hloop hdispatch hsent hclient =>
    simp only [connectedClients, hloop, Loop.connectedClients, Loop.others] at *
    have hsub : (Server.ids (before ++ rest)).Sublist (Server.ids (before ++ client :: rest)) :=
      ((List.sublist_cons_self client rest).append_left before).map _
    have hids : ∀ p, p ∈ Server.ids (before ++ client :: rest) ↔
        p ∈ Server.ids (before ++ rest) ∨ p = client.id := by
      intro p
      simp only [Server.ids, List.map_append, List.map_cons, List.mem_append, List.mem_cons]
      tauto
    have hgone : client.id ∉ Server.ids (before ++ rest) := by
      have hperm : (Server.ids (before ++ client :: rest)).Perm
          (client.id :: Server.ids (before ++ rest)) :=
        (@List.perm_middle _ client before rest).map _
      exact (List.nodup_cons.1 (hperm.nodup_iff.1 hdistinct)).1
    refine ⟨hsub.nodup hdistinct, fun p hp => hfresh p (hsub.subset hp), hconnected, fun p => ?_,
      fun entry hentry => h.own entry (List.mem_filter.1 hentry).1⟩
    show p ∈ (process.messageBroker.unsubscribeToGameplayMessagesForPlayer _).registered ↔
      p ∈ Server.ids (before ++ rest)
    rw [NetworkMessageBroker.mem_registered_unsubscribe, hregistered, hids]
    constructor
    · rintro ⟨hp | rfl, hne⟩
      · exact hp
      · exact absurd rfl hne
    · intro hp
      refine ⟨Or.inl hp, ?_⟩
      rintro rfl
      exact hgone hp

end Process

/-! ## Inbound and outbound queues -/

/-- What is pending for gameplay is the same.  What waits for the clients may differ. -/
structure MessageHub.SameInbound (hub hub' : MessageHub) : Prop where
  connectivity : hub'.playerConnectivityMessages = hub.playerConnectivityMessages
  actions : hub'.playerActionMessagesByPlayerId = hub.playerActionMessagesByPlayerId

namespace MessageHub

variable {hub hub' hub'' : MessageHub}

theorem SameInbound.refl (hub : MessageHub) : SameInbound hub hub := ⟨rfl, rfl⟩

theorem SameInbound.trans (h : SameInbound hub hub') (h' : SameInbound hub' hub'') :
    SameInbound hub hub'' :=
  ⟨h'.connectivity.trans h.connectivity, h'.actions.trans h.actions⟩

theorem SameInbound.publish (h : SameInbound hub hub') (e : System.Event) :
    SameInbound (hub.publish e) (hub'.publish e) := by
  obtain ⟨hconnectivity, hactions⟩ := h
  cases e with
  | publishPlayerConnectivityMessage message =>
    exact ⟨congrArg (· ++ [message]) hconnectivity, hactions⟩
  | publishPlayerActionMessage p message =>
    refine ⟨hconnectivity, ?_⟩
    simp only [MessageHub.publish, pushAction, hactions]
  | _ => exact ⟨hconnectivity, hactions⟩

theorem SameInbound.replay (h : SameInbound hub hub') (effects : List Effect) :
    SameInbound (hub.replay effects) (hub'.replay effects) := by
  induction effects generalizing hub hub' with
  | nil => exact h
  | cons effect effects ih =>
    refine @ih (hub.perform effect) (hub'.perform effect) ?_
    obtain ⟨hconnectivity, hactions⟩ := h
    cases effect with
    | connectivityHandled message => exact ⟨congrArg List.tail hconnectivity, hactions⟩
    | actionHandled p message =>
      refine ⟨hconnectivity, ?_⟩
      simp only [MessageHub.perform, popAction, hactions]
    | _ => exact ⟨hconnectivity, hactions⟩

end MessageHub

/-- A dispatch reads what is pending for gameplay and nothing else. -/
theorem Gameplay.dispatchMessages_congr {hub hub' : MessageHub} (h : hub.SameInbound hub')
    (env : Environment) (preference : List PlayerId) (gameplay : Gameplay) :
    gameplay.dispatchMessages env hub' preference =
      gameplay.dispatchMessages env hub preference := by
  have hplayer : dispatchPlayer env hub' = dispatchPlayer env hub := by
    funext g p
    rw [dispatchPlayer, dispatchPlayer, h.actions]
  rw [dispatchMessages, dispatchMessages, h.connectivity, hplayer]

/-- The network thread takes nothing from what is pending for gameplay. -/
theorem Delivery.dispatchMessages_sameInbound {κ : Type} {delivery delivery' : Delivery κ}
    {preference : List PlayerId} {handed : List (Handed κ)}
    (hrun : delivery.dispatchMessages preference = .ok (delivery', handed)) :
    delivery.messageHub.SameInbound delivery'.messageHub := by
  refine run_invariant (P := fun d : Delivery κ => delivery.messageHub.SameInbound d.messageHub)
    (fun d p d' os h hplayer => ?_) (.refl _) hrun
  unfold dispatchPlayer at hplayer
  split at hplayer
  · cases hplayer
    exact h
  · refine run_invariant (P := fun d : Delivery κ => delivery.messageHub.SameInbound d.messageHub)
      (fun d₁ message d₂ os h hmessage => ?_) h hplayer
    cases hmessage
    exact ⟨h.connectivity, h.actions⟩

namespace Process

variable {env : Environment}
  {deserialize : Bytes → Except DeserializeFailure PlayerActionMessage}
  {dumpFloat : Rat → Bytes} {process process' : Process} {effects : List Effect}
  {outside : Outside} {input : Input} {inputs : List Input} {system : System}

/-! ## Gameplay by itself -/

namespace Effect

/-- What was published for gameplay, and the calls of its loop. -/
def event? : Effect → Option System.Event
  | .published event | .called event => some event
  | _ => none

def gameplay? : Effect → Option SamuraiKirby.Effect
  | .gameplay effect => some effect
  | _ => none

end Effect

/-- Gameplay is where it would be without the network thread. -/
structure Agrees (process : Process) (system : System) : Prop where
  gameplay : system.gameplay = process.gameplay
  inbound : process.messageHub.SameInbound system.messageHub

theorem agrees_new : Agrees new .new := ⟨rfl, .refl _⟩

/-- Publications and nothing else. -/
def Publishes (events : List System.Event) : Prop :=
  ∀ e ∈ events, (∃ message, e = .publishPlayerConnectivityMessage message) ∨
    ∃ p message, e = .publishPlayerActionMessage p message

theorem publishes_receiveFromNetwork {client client' : ConnectedClient} {result : RecvResult}
    {events : List System.Event}
    (h : client.receiveFromNetwork deserialize result = (client', events)) : Publishes events := by
  intro e he
  cases result with
  | data bytes =>
    simp only [ConnectedClient.receiveFromNetwork] at h
    split at h
    · cases h
      exact Or.inr ⟨_, _, List.mem_singleton.1 he⟩
    · cases h
      exact absurd he List.not_mem_nil
  | wouldBlock =>
    cases h
    exact absurd he List.not_mem_nil
  | _ =>
    cases h
    exact Or.inl ⟨_, List.mem_singleton.1 he⟩

theorem event?_published (events : List System.Event) :
    (events.map Effect.published).filterMap Effect.event? = events := by
  rw [List.filterMap_map]
  exact List.filterMap_some

theorem gameplay?_published (events : List System.Event) :
    (events.map Effect.published).filterMap Effect.gameplay? = [] := by
  rw [List.filterMap_map]
  exact List.filterMap_eq_nil_iff.2 fun _ _ => rfl

theorem gameplay?_gameplay (os : List SamuraiKirby.Effect) :
    (os.map Effect.gameplay).filterMap Effect.gameplay? = os := by
  rw [List.filterMap_map]
  exact List.filterMap_some

/-- What the network thread publishes is published in `System`. -/
theorem Agrees.publish (h : Agrees process system) (env : Environment)
    {events : List System.Event} (hevents : Publishes events) :
    ∃ system', run (System.step env) system events = .ok (system', []) ∧
      Agrees (process.publishAll events) system' := by
  induction events generalizing process system with
  | nil => exact ⟨system, rfl, h⟩
  | cons e events ih =>
    have hstep : system.step env e =
        .ok ({ system with messageHub := system.messageHub.publish e }, []) := by
      rcases hevents e (List.mem_cons_self ..) with ⟨message, rfl⟩ | ⟨p, message, rfl⟩ <;> rfl
    obtain ⟨system', hrun, hagrees⟩ := @ih (process.publishAll [e])
      { system with messageHub := system.messageHub.publish e }
      ⟨h.gameplay, h.inbound.publish e⟩ fun e he => hevents e (List.mem_cons_of_mem _ he)
    exact ⟨system', run_cons_eq_ok.2 ⟨_, _, _, hstep, hrun, rfl⟩, hagrees⟩

/-- A step of one system is a step of the other, with the same effects or the same fault. -/
theorem Agrees.step (h : Agrees process system) (e : System.Event) :
    (∀ fault, process.system.step env e = .error fault → system.step env e = .error fault) ∧
      ∀ s os, process.system.step env e = .ok (s, os) →
        ∃ s', system.step env e = .ok (s', os) ∧ s'.gameplay = s.gameplay ∧
          s.messageHub.SameInbound s'.messageHub := by
  obtain ⟨hgameplay, hinbound⟩ := h
  obtain ⟨hub, gameplay⟩ := system
  simp only at hgameplay hinbound
  subst hgameplay
  have hperform : ∀ outcome : Except SamuraiKirby.Fault (Gameplay × List SamuraiKirby.Effect),
      (∀ fault, process.system.perform outcome = .error fault →
        System.perform ⟨hub, process.gameplay⟩ outcome = .error fault) ∧
      ∀ s os, process.system.perform outcome = .ok (s, os) →
        ∃ s', System.perform ⟨hub, process.gameplay⟩ outcome = .ok (s', os) ∧
          s'.gameplay = s.gameplay ∧ s.messageHub.SameInbound s'.messageHub := by
    intro outcome
    cases outcome with
    | error fault => exact ⟨fun _ h => h, fun s os h => by cases h⟩
    | ok r =>
      refine ⟨(fun fault h => by cases h), fun s os h => ?_⟩
      cases h
      exact ⟨_, rfl, rfl, hinbound.replay _⟩
  cases e with
  | publishPlayerConnectivityMessage message =>
    refine ⟨(fun fault h => by cases h), fun s os h => ?_⟩
    cases h
    exact ⟨_, rfl, rfl, hinbound.publish (.publishPlayerConnectivityMessage message)⟩
  | publishPlayerActionMessage p message =>
    refine ⟨(fun fault h => by cases h), fun s os h => ?_⟩
    cases h
    exact ⟨_, rfl, rfl, hinbound.publish (.publishPlayerActionMessage p message)⟩
  | dispatchMessages preference =>
    have hsame := Gameplay.dispatchMessages_congr hinbound env preference process.gameplay
    simp only [System.step, hsame]
    exact hperform _
  | tickAllRooms readings draws => exact hperform _

/-- What callbacks do is not seen by gameplay. -/
theorem unseen_of_callBack {clients : List ConnectedClient} {handed : List (Handed PlayerId)}
    (hsent : handed.mapM (callBack dumpFloat clients) = .ok effects) :
    ∀ o ∈ effects, ∃ (handed : Handed PlayerId) (sent : Bytes), o = .handed handed sent := by
  have hcalls := mapM_eq_ok hsent
  clear hsent
  induction hcalls with
  | nil => exact fun o ho => absurd ho List.not_mem_nil
  | cons hcall hcalls ih =>
    intro o ho
    rcases List.mem_cons.1 ho with rfl | ho
    · unfold callBack at hcall
      split at hcall
      · cases hcall
      · split at hcall
        · cases hcall
          exact ⟨_, _, rfl⟩
        · cases hcall
    · exact ih o ho

theorem Agrees.of_eq (h : Agrees process system) (hgameplay : process'.gameplay = process.gameplay)
    (hhub : process'.messageHub = process.messageHub) : Agrees process' system :=
  ⟨h.gameplay.trans hgameplay.symm, hhub ▸ h.inbound⟩

/-- After effects that gameplay does not see, something is published. -/
theorem Agrees.matches_published (h : Agrees process system) (first : List Effect)
    (events : List System.Event) (hevents : Publishes events)
    (hfirst : ∀ o ∈ first, o.event? = none ∧ o.gameplay? = none)
    (hgameplay : process'.gameplay = process.gameplay)
    (hhub : process'.messageHub = events.foldl MessageHub.publish process.messageHub) :
    Matches (System.step env) Agrees Effect.event? Effect.gameplay? system process'
      (first ++ events.map .published) := by
  obtain ⟨system', hrun, hagrees⟩ := h.publish env hevents
  refine ⟨system', ?_, hagrees.of_eq hgameplay hhub⟩
  rw [List.filterMap_append, List.filterMap_append, event?_published, gameplay?_published,
    List.filterMap_eq_nil_iff.2 fun o ho => (hfirst o ho).1,
    List.filterMap_eq_nil_iff.2 fun o ho => (hfirst o ho).2]
  exact hrun

/-- What waits for the clients is handed over. -/
theorem Agrees.matches_handed (h : Agrees process system) {delivery : Delivery PlayerId}
    {preference : List PlayerId} {handed : List (Handed PlayerId)}
    {clients : List ConnectedClient} {sent last : List Effect}
    (hdispatch : process.delivery.dispatchMessages preference = .ok (delivery, handed))
    (hsent : handed.mapM (callBack dumpFloat clients) = .ok sent)
    (hlast : ∀ o ∈ last, o.event? = none ∧ o.gameplay? = none)
    (hgameplay : process'.gameplay = process.gameplay)
    (hhub : process'.messageHub = delivery.messageHub) :
    Matches (System.step env) Agrees Effect.event? Effect.gameplay? system process'
      (sent ++ last) := by
  have hunseen : ∀ o ∈ sent ++ last, o.event? = none ∧ o.gameplay? = none := by
    intro o ho
    rcases List.mem_append.1 ho with ho | ho
    · obtain ⟨handed, sent, rfl⟩ := unseen_of_callBack hsent o ho
      exact ⟨rfl, rfl⟩
    · exact hlast o ho
  refine matches_unseen ⟨h.gameplay.trans hgameplay.symm, ?_⟩ (fun o ho => (hunseen o ho).1)
    fun o ho => (hunseen o ho).2
  rw [hhub]
  have hsame := Delivery.dispatchMessages_sameInbound hdispatch
  exact ⟨h.inbound.connectivity.trans hsame.connectivity.symm,
    h.inbound.actions.trans hsame.actions.symm⟩

/-- A part of a pass is a list of publications. -/
theorem NetworkCase.agrees (hcase : NetworkCase deserialize dumpFloat process outside process'
    effects) (h : Agrees process system) :
    Matches (System.step env) Agrees Effect.event? Effect.gameplay? system process' effects := by
  cases hcase with
  | refuses clients hloop haccept => exact ⟨system, rfl, h⟩
  | begins clients hloop haccept => exact ⟨system, rfl, h.of_eq rfl rfl⟩
  | accepts clients hloop haccept =>
    exact h.matches_published []
      [.publishPlayerConnectivityMessage ⟨.connect, process.nextClientId⟩]
      (fun e he => Or.inl ⟨_, List.mem_singleton.1 he⟩) (fun o ho => absurd ho List.not_mem_nil)
      rfl rfl
  | ends before hloop => exact ⟨system, rfl, h.of_eq rfl rfl⟩
  | fails before client rest hloop hrecv =>
    refine h.matches_published [.received client.id .failed]
      [.publishPlayerConnectivityMessage ⟨.disconnect, client.id⟩]
      (fun e he => Or.inl ⟨_, List.mem_singleton.1 he⟩) (fun o ho => ?_) rfl rfl
    rw [List.mem_singleton.1 ho]
    exact ⟨rfl, rfl⟩
  | receives before client client' rest events hloop hrecv hreceive =>
    refine h.matches_published [.received client.id outside.recv] events
      (publishes_receiveFromNetwork hreceive) (fun o ho => ?_) rfl rfl
    rw [List.mem_singleton.1 ho]
    exact ⟨rfl, rfl⟩
  | keeps before client rest delivery handed sent hloop hdispatch hsent hclient =>
    refine h.matches_handed hdispatch hsent (fun o ho => ?_) rfl rfl
    rw [List.mem_singleton.1 ho]
    exact ⟨rfl, rfl⟩
  | erases before client rest delivery handed sent hloop hdispatch hsent hclient =>
    refine h.matches_handed hdispatch hsent (fun o ho => ?_) rfl rfl
    simp only [List.mem_cons, List.not_mem_nil, or_false] at ho
    rcases ho with rfl | rfl <;> exact ⟨rfl, rfl⟩

theorem step_agrees (h : Agrees process system)
    (hstep : process.step env deserialize dumpFloat input = .ok (process', effects)) :
    Matches (System.step env) Agrees Effect.event? Effect.gameplay? system process' effects := by
  cases step_cases hstep with
  | network outside process' effects hcase => exact hcase.agrees h
  | gameplay input e hcall s os hsystem =>
    obtain ⟨s', hsystem', hgameplay, hinbound⟩ := (h.step e).2 s os hsystem
    refine ⟨s', ?_, hgameplay, hinbound⟩
    have hevents : (os.map Effect.gameplay).filterMap Effect.event? = [] := by
      rw [List.filterMap_map]
      exact List.filterMap_eq_nil_iff.2 fun _ _ => rfl
    simp only [List.filterMap_cons, Effect.event?, Effect.gameplay?, hevents, gameplay?_gameplay,
      run_singleton]
    exact hsystem'

theorem step_serves (h : Serves process)
    (hstep : process.step env deserialize dumpFloat input = .ok (process', effects)) :
    Serves process' := by
  cases step_cases hstep with
  | network outside process' effects hcase => exact hcase.serves h
  | gameplay input e hcall s os hsystem => exact h.moves rfl rfl rfl h.connected

theorem run_serves
    (hrun : run (step env deserialize dumpFloat) new inputs = .ok (process, effects)) :
    Serves process :=
  run_invariant (fun _ _ _ _ h hstep => step_serves h hstep) serves_new hrun

theorem run_agrees
    (hrun : run (step env deserialize dumpFloat) new inputs = .ok (process, effects)) :
    Matches (System.step env) Agrees Effect.event? Effect.gameplay? .new process effects :=
  run_matches (fun _ _ _ _ _ h hstep => step_agrees h hstep) agrees_new hrun

end Process
end SamuraiKirby
