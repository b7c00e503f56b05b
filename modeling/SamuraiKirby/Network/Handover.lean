/-
From the hub to the callbacks of the clients.

What gameplay sends to a client waits in the hub until the network thread hands it
to the callback of the client, in the order it was sent (`run_conserves`).  Nothing
is handed to a client that is gone, and nothing that is handed over can fail to be
serialized.

So the network thread ends the process by a signal only (`ends_of_network`), and any
other end is one of gameplay by itself (`ends_of_step`).
-/
import SamuraiKirby.Gameplay.Batching
import SamuraiKirby.Network.Threads

namespace SamuraiKirby

/-- A nickname that was deserialized is a string that the parser accepted. -/
theorem Serializer.utf8_of_deserialize (cast : FloatCast) {parse : Bytes → Option Json}
    (hparse : ∀ bytes json, parse bytes = some json →
      ∀ string, json.HasString string → Coding.Utf8 string) (bytes : Bytes)
    (message : PlayerActionMessage)
    (h : deserializePlayerActionMessage cast parse bytes = .ok message) :
    message.AllNicknames Coding.Utf8 := by
  intro nickname hnickname
  obtain ⟨json, hjson, hstring⟩ := hasString_nickname h hnickname
  exact hparse bytes json hjson nickname hstring

namespace Process

open Transition

variable {env : Environment}
  {deserialize : Bytes → Except DeserializeFailure PlayerActionMessage}
  {dumpFloat : Rat → Bytes} {process process' : Process} {effects : List Effect}
  {outside : Outside} {input : Input} {inputs : List Input}

/-! ## The way out -/

/-- A callback was called. -/
def Effect.handed? : Effect → Option (Handed PlayerId)
  | .handed call _ => some call
  | _ => none

theorem handed?_published (events : List System.Event) :
    (events.map Effect.published).filterMap Effect.handed? = [] := by
  rw [List.filterMap_map]
  exact List.filterMap_eq_nil_iff.2 fun _ _ => rfl

theorem handed?_gameplay (os : List SamuraiKirby.Effect) :
    (os.map Effect.gameplay).filterMap Effect.handed? = [] := by
  rw [List.filterMap_map]
  exact List.filterMap_eq_nil_iff.2 fun _ _ => rfl

/-- A call of a callback that returns. -/
theorem callBack_eq_ok {clients : List ConnectedClient} {handed : Handed PlayerId} {o : Effect}
    (h : callBack dumpFloat clients handed = .ok o) :
    ∃ client sent, clients.find? (·.id = handed.callback) = some client ∧
      client.handleGameplayMessage dumpFloat handed.message = .ok sent ∧
      o = .handed handed sent := by
  unfold callBack at h
  cases hfind : clients.find? (·.id = handed.callback) with
  | none =>
    rw [hfind] at h
    cases h
  | some client =>
    cases hmessage : client.handleGameplayMessage dumpFloat handed.message with
    | error failure =>
      simp only [hfind, hmessage] at h
      cases h
    | ok sent =>
      simp only [hfind, hmessage] at h
      cases h
      exact ⟨client, sent, rfl, hmessage, rfl⟩

theorem handed?_of_callBack {clients : List ConnectedClient} {handed : List (Handed PlayerId)}
    (hsent : handed.mapM (callBack dumpFloat clients) = .ok effects) :
    effects.filterMap Effect.handed? = handed := by
  have hcalls := mapM_eq_ok hsent
  clear hsent
  induction hcalls with
  | nil => rfl
  | cons hcall hcalls ih =>
    obtain ⟨client, sent, -, -, rfl⟩ := callBack_eq_ok hcall
    rw [List.filterMap_cons, ih]
    rfl

/-- What waits for a client. -/
def waiting (process : Process) (p : PlayerId) : List GameplayMessage :=
  process.messageHub.gameplayMessagesByPlayerId p

theorem waiting_publishAll (process : Process) (events : List System.Event) (p : PlayerId) :
    (process.publishAll events).waiting p = process.waiting p := by
  have hpublish : ∀ hub : MessageHub,
      (events.foldl MessageHub.publish hub).gameplayMessagesByPlayerId =
        hub.gameplayMessagesByPlayerId := by
    induction events with
    | nil => exact fun hub => rfl
    | cons e events ih =>
      intro hub
      rw [List.foldl_cons, ih]
      cases e <;> rfl
  exact congrFun (hpublish process.messageHub) p

/-- What gameplay has sent to a client was handed over or waits, in the order it was sent. -/
structure Conserves (process : Process) (told : List Effect) : Prop where
  inv : process.gameplay.Inv
  outbound : ∀ p, Delivery.handedTo p (told.filterMap Effect.handed?) ++ process.waiting p =
    sent p (told.filterMap Effect.gameplay?)

theorem conserves_new : Conserves new [] := ⟨Gameplay.inv_new, fun _ => rfl⟩

variable {told : List Effect}

theorem Conserves.idle (h : Conserves process told)
    (hgameplay : process'.gameplay = process.gameplay)
    (hwaiting : ∀ p, process'.waiting p = process.waiting p)
    (hhanded : effects.filterMap Effect.handed? = [])
    (hquiet : effects.filterMap Effect.gameplay? = []) : Conserves process' (told ++ effects) where
  inv := hgameplay ▸ h.inv
  outbound p := by
    rw [List.filterMap_append, List.filterMap_append, hhanded, hquiet, List.append_nil,
      List.append_nil, hwaiting, h.outbound]

theorem Conserves.handed (h : Conserves process told) {delivery : Delivery PlayerId}
    {preference : List PlayerId} {handed : List (Handed PlayerId)}
    {clients : List ConnectedClient} {sent last : List Effect}
    (hdispatch : process.delivery.dispatchMessages preference = .ok (delivery, handed))
    (hsent : handed.mapM (callBack dumpFloat clients) = .ok sent)
    (hlast : ∀ o ∈ last, o.handed? = none ∧ o.gameplay? = none)
    (hgameplay : process'.gameplay = process.gameplay)
    (hhub : process'.messageHub = delivery.messageHub) :
    Conserves process' (told ++ (sent ++ last)) where
  inv := hgameplay ▸ h.inv
  outbound p := by
    have hquiet : (sent ++ last).filterMap Effect.gameplay? = [] := by
      refine List.filterMap_eq_nil_iff.2 fun o ho => ?_
      rcases List.mem_append.1 ho with ho | ho
      · obtain ⟨handed, bytes, rfl⟩ := unseen_of_callBack hsent o ho
        rfl
      · exact (hlast o ho).2
    have hhanded : (sent ++ last).filterMap Effect.handed? = handed := by
      rw [List.filterMap_append, handed?_of_callBack hsent,
        List.filterMap_eq_nil_iff.2 fun o ho => (hlast o ho).1, List.append_nil]
    have hwaiting : process'.waiting p = delivery.waiting p := by
      rw [waiting, hhub]
      rfl
    rw [List.filterMap_append, hhanded, List.filterMap_append, hquiet, List.append_nil,
      Delivery.handedTo_append, hwaiting, List.append_assoc,
      (Delivery.dispatchMessages_hands hdispatch).1.conserved p]
    exact h.outbound p

theorem NetworkCase.conserves (hcase : NetworkCase deserialize dumpFloat process outside process'
    effects) (h : Conserves process told) : Conserves process' (told ++ effects) := by
  cases hcase with
  | refuses clients hloop haccept => exact h.idle rfl (fun _ => rfl) rfl rfl
  | begins clients hloop haccept => exact h.idle rfl (fun _ => rfl) rfl rfl
  | accepts clients hloop haccept => exact h.idle rfl (fun _ => rfl) rfl rfl
  | ends before hloop => exact h.idle rfl (fun _ => rfl) rfl rfl
  | fails before client rest hloop hrecv => exact h.idle rfl (fun _ => rfl) rfl rfl
  | receives before client client' rest events hloop hrecv hreceive =>
    exact h.idle rfl (fun p => waiting_publishAll process events p) (handed?_published events)
      (gameplay?_published events)
  | keeps before client rest delivery handed sent hloop hdispatch hsent hclient =>
    refine h.handed hdispatch hsent (fun o ho => ?_) rfl rfl
    rw [List.mem_singleton.1 ho]
    exact ⟨rfl, rfl⟩
  | erases before client rest delivery handed sent hloop hdispatch hsent hclient =>
    refine h.handed hdispatch hsent (fun o ho => ?_) rfl rfl
    simp only [List.mem_cons, List.not_mem_nil, or_false] at ho
    rcases ho with rfl | rfl <;> exact ⟨rfl, rfl⟩

theorem step_conserves (h : Conserves process told)
    (hstep : process.step env deserialize dumpFloat input = .ok (process', effects)) :
    Conserves process' (told ++ effects) := by
  cases step_cases hstep with
  | network outside process' effects hcase => exact hcase.conserves h
  | gameplay input e hcall s os hsystem =>
    have hinv : process.system.gameplay.Inv := h.inv
    have hqueues := Gameplay.run_gameplayMessages hinv ((run_singleton _ e).trans hsystem)
    refine ⟨Gameplay.step_inv hinv hsystem, fun p => ?_⟩
    rw [List.filterMap_append, List.filterMap_append, sent_append, ← h.outbound p]
    simp only [List.filterMap_cons, Effect.handed?, Effect.gameplay?, handed?_gameplay,
      gameplay?_gameplay, List.append_nil, List.append_assoc]
    exact congrArg _ (hqueues p)

theorem run_conserves
    (hrun : run (step env deserialize dumpFloat) new inputs = .ok (process, effects)) :
    Conserves process effects := by
  have hend : Conserves process ([] ++ effects) := by
    refine run_told (C := fun _ _ _ => True) (fun s told a rest s' os _ h _ hstep => ?_)
      conserves_new (along_true _ _) hrun
    exact step_conserves h hstep
  exact hend

/-- An action is published only as it was deserialized. -/
theorem deserialized_of_receiveFromNetwork {client client' : ConnectedClient}
    {result : RecvResult} {events : List System.Event}
    (h : client.receiveFromNetwork deserialize result = (client', events)) {p : PlayerId}
    {message : PlayerActionMessage} (hmem : .publishPlayerActionMessage p message ∈ events) :
    ∃ bytes, deserialize bytes = .ok message := by
  cases result with
  | data bytes =>
    simp only [ConnectedClient.receiveFromNetwork] at h
    cases hmessage : deserialize bytes with
    | error failure =>
      rw [hmessage] at h
      cases h
      exact absurd hmem List.not_mem_nil
    | ok message' =>
      rw [hmessage] at h
      cases h
      cases List.mem_singleton.1 hmem
      exact ⟨bytes, hmessage⟩
  | wouldBlock =>
    cases h
    exact absurd hmem List.not_mem_nil
  | _ =>
    cases h
    cases List.mem_singleton.1 hmem

theorem step_deserialized
    (hstep : process.step env deserialize dumpFloat input = .ok (process', effects))
    {p : PlayerId} {message : PlayerActionMessage}
    (hmem : .publishPlayerActionMessage p message ∈ effects.filterMap Effect.event?) :
    ∃ bytes, deserialize bytes = .ok message := by
  have hquiet : ∀ (sent last : List Effect), (∀ o ∈ sent, ∃ call bytes, o = .handed call bytes) →
      (∀ o ∈ last, o.event? = none) → effects = sent ++ last → False := by
    intro sent last hsent hlast heq
    rw [heq, List.filterMap_append, List.filterMap_eq_nil_iff.2 hlast, List.append_nil,
      List.filterMap_eq_nil_iff.2] at hmem
    · exact absurd hmem List.not_mem_nil
    · intro o ho
      obtain ⟨call, bytes, rfl⟩ := hsent o ho
      rfl
  cases step_cases hstep with
  | gameplay input e hcall s os hsystem =>
    obtain ⟨o, ho, hevent⟩ := List.mem_filterMap.1 hmem
    rcases List.mem_cons.1 ho with rfl | ho
    · exact absurd (Option.some.inj hevent) (Input.call?_ne hcall _ _)
    · obtain ⟨os, -, rfl⟩ := List.mem_map.1 ho
      cases hevent
  | network outside process' effects hcase =>
    cases hcase with
    | refuses | begins | ends => exact absurd hmem List.not_mem_nil
    | accepts clients hloop haccept => cases List.mem_singleton.1 hmem
    | fails before client rest hloop hrecv => cases List.mem_singleton.1 hmem
    | receives before client client' rest events hloop hrecv hreceive =>
      have hevents : .publishPlayerActionMessage p message ∈
          (events.map Effect.published).filterMap Effect.event? := hmem
      rw [event?_published] at hevents
      exact deserialized_of_receiveFromNetwork hreceive hevents
    | keeps before client rest delivery handed sent hloop hdispatch hsent hclient =>
      refine (hquiet sent _ (unseen_of_callBack hsent) (fun o ho => ?_) rfl).elim
      rw [List.mem_singleton.1 ho]
      rfl
    | erases before client rest delivery handed sent hloop hdispatch hsent hclient =>
      refine (hquiet sent _ (unseen_of_callBack hsent) (fun o ho => ?_) rfl).elim
      simp only [List.mem_cons, List.not_mem_nil, or_false] at ho
      rcases ho with rfl | rfl <;> rfl

theorem run_deserialized
    (hrun : run (step env deserialize dumpFloat) new inputs = .ok (process, effects))
    {p : PlayerId} {message : PlayerActionMessage}
    (hmem : .publishPlayerActionMessage p message ∈ effects.filterMap Effect.event?) :
    ∃ bytes, deserialize bytes = .ok message := by
  obtain ⟨o, ho, hevent⟩ := List.mem_filterMap.1 hmem
  have hall := run_emits (P := fun _ => True) (Q := fun o : Effect => ∀ p message,
      o.event? = some (.publishPlayerActionMessage p message) →
        ∃ bytes, deserialize bytes = .ok message)
    (fun s a s' os _ _ hstep => ⟨trivial, fun o ho p message hevent =>
      step_deserialized hstep (List.mem_filterMap.2 ⟨o, ho, hevent⟩)⟩) trivial hrun
  exact hall.2 o ho p message hevent

/-! ## What can end the process -/

theorem find?_of_mem_ids {clients : List ConnectedClient} {p : PlayerId}
    (h : p ∈ Server.ids clients) : ∃ client, clients.find? (·.id = p) = some client := by
  obtain ⟨client, hclient, rfl⟩ := List.mem_map.1 h
  exact Option.isSome_iff_exists.1 (List.find?_isSome.2 ⟨client, hclient, by simp⟩)

section Dispatch

variable {delivery : Delivery PlayerId} {preference : List PlayerId}
  {handed : List (Handed PlayerId)} {call : Handed PlayerId}

/-- A client is called by its own callback. -/
theorem Serves.own_callback (h : Serves process)
    (hdispatch : process.delivery.dispatchMessages preference = .ok (delivery, handed))
    (hcall : call ∈ handed) : call.callback = call.playerId :=
  h.own _ (NetworkMessageBroker.mem_of_callback?
    ((Delivery.dispatchMessages_hands hdispatch).1.callback call hcall))

/-- A callback is called only for a client that is there. -/
theorem Serves.callBack_ne (h : Serves process)
    (hdispatch : process.delivery.dispatchMessages preference = .ok (delivery, handed))
    (hcall : call ∈ handed) :
    ∃ client, process.connectedClients.find? (·.id = call.callback) = some client := by
  have hcallback := (Delivery.dispatchMessages_hands hdispatch).1.callback call hcall
  have hentry := NetworkMessageBroker.mem_of_callback? hcallback
  rw [h.own_callback hdispatch hcall]
  exact find?_of_mem_ids ((h.registered _).1 (List.mem_map_of_mem hentry))

/-- What is handed over has waited. -/
theorem mem_waiting
    (hdispatch : process.delivery.dispatchMessages preference = .ok (delivery, handed))
    (hcall : call ∈ handed) : call.message ∈ process.waiting call.playerId := by
  have hconserved := (Delivery.dispatchMessages_hands hdispatch).1.conserved call.playerId
  have hmem : call.message ∈ Delivery.handedTo call.playerId handed :=
    List.mem_filterMap.2 ⟨call, hcall, if_pos rfl⟩
  show call.message ∈ process.delivery.waiting call.playerId
  rw [← hconserved]
  exact List.mem_append_left _ hmem

/-- A message that is handed over was sent by gameplay. -/
theorem Conserves.mem_sent (h : Conserves process told)
    (hdispatch : process.delivery.dispatchMessages preference = .ok (delivery, handed))
    (hcall : call ∈ handed) :
    .published call.playerId call.message ∈ told.filterMap Effect.gameplay? := by
  have hsent : call.message ∈ sent call.playerId (told.filterMap Effect.gameplay?) := by
    rw [← h.outbound]
    exact List.mem_append_right _ (mem_waiting hdispatch hcall)
  obtain ⟨o, ho, heq⟩ := List.mem_filterMap.1 hsent
  cases o with
  | published q message =>
    simp only [SamuraiKirby.Effect.sent?] at heq
    split_ifs at heq with hq
    cases heq
    exact hq ▸ ho
  | _ => cases heq

end Dispatch

/-- The nicknames that gameplay sends were deserialized. -/
theorem nicknames_of_run
    (hdeserialize : ∀ bytes message, deserialize bytes = .ok message →
      message.AllNicknames Coding.Utf8)
    (hrun : run (step env deserialize dumpFloat) new inputs = .ok (process, effects)) :
    ∀ o ∈ effects.filterMap Effect.gameplay?, o.AllNicknames Coding.Utf8 := by
  obtain ⟨system, hsystem, -⟩ := run_agrees hrun
  rw [← System.effects_of_run hsystem]
  refine System.nicknames_of_effects fun p m hm => ?_
  obtain ⟨bytes, hbytes⟩ := run_deserialized hrun hm
  exact hdeserialize bytes m hbytes

/-- Where a dispatch breaks off, a callback fails or a send raises the signal. -/
theorem callBacks_eq_error {clients : List ConnectedClient} {signals : List SendSignal}
    {handed : List (Handed PlayerId)} {fault : Fault}
    (h : callBacks dumpFloat clients signals handed = .error fault) :
    ∃ call ∈ handed, callBack dumpFloat clients call = .error fault ∨
      ∃ o, callBack dumpFloat clients call = .ok o ∧ o.sends = true ∧ .sigpipe ∈ signals ∧
        fault = .sigpipe call.callback := by
  induction handed generalizing signals with
  | nil => cases h
  | cons call rest ih =>
    unfold callBacks at h
    cases hcall : callBack dumpFloat clients call with
    | error fault' =>
      simp only [hcall] at h
      cases h
      exact ⟨call, List.mem_cons_self .., Or.inl hcall⟩
    | ok o =>
      simp only [hcall] at h
      split_ifs at h with hsignal
      · cases h
        refine ⟨call, List.mem_cons_self .., Or.inr ⟨o, hcall, hsignal.1, ?_, rfl⟩⟩
        cases signals with
        | nil => cases hsignal.2
        | cons signal signals => exact hsignal.2 ▸ List.mem_cons_self ..
      · cases hrest : callBacks dumpFloat clients signals.tail rest with
        | ok effects =>
          simp only [hrest] at h
          cases h
        | error fault' =>
          simp only [hrest] at h
          cases h
          obtain ⟨call', hcall', hends⟩ := ih hrest
          refine ⟨call', List.mem_cons_of_mem _ hcall', hends.imp_right ?_⟩
          rintro ⟨o', ho', hsends, hmem, heq⟩
          exact ⟨o', ho', hsends, List.mem_of_mem_tail hmem, heq⟩

/-- Only an open client gives bytes to its socket. -/
theorem open_of_sends {clients : List ConnectedClient} {call : Handed PlayerId} {o : Effect}
    (hcall : callBack dumpFloat clients call = .ok o) (hsends : o.sends = true) :
    ∃ client ∈ clients, client.id = call.callback ∧ client.hasBeenDisconnected = false := by
  obtain ⟨client, sent, hfind, hmessage, rfl⟩ := callBack_eq_ok hcall
  refine ⟨client, List.mem_of_find?_eq_some hfind, by simpa using List.find?_some hfind, ?_⟩
  cases hclosed : client.hasBeenDisconnected with
  | false => rfl
  | true =>
    rw [ConnectedClient.handleGameplayMessage, if_pos hclosed] at hmessage
    cases hmessage
    cases hsends

/-- A client in the list is found under its id, and a message that can be serialized does not
make its callback fail. -/
theorem callBack_ne_error {clients : List ConnectedClient} {call : Handed PlayerId}
    (hclient : ∃ client, clients.find? (·.id = call.callback) = some client)
    (hmessage : call.message.Utf8Nicknames) (fault : Fault) :
    callBack dumpFloat clients call ≠ .error fault := by
  obtain ⟨client, hfind⟩ := hclient
  intro hfails
  simp only [callBack, hfind, ConnectedClient.handleGameplayMessage,
    Serializer.serializeGameplayMessage_eq hmessage] at hfails
  split_ifs at hfails

/-- What a step met that ends the process, after the given events. -/
inductive Ends (env : Environment) (process : Process) (events : List System.Event) :
    Input → Fault → Prop where
  /-- Gameplay calls a destroyed room, as it does by itself after these events. -/
  | gameplay (input : Input) (e : System.Event) (id : RoomId) (hcall : input.call? = some e)
      (hsystem : run (System.step env) .new (events ++ [e]) = .error (.useAfterFree id)) :
      Ends env process events input (.gameplay (.useAfterFree id))
  /-- A send of what waits for an open client raises the signal. -/
  | sigpipe (outside : Outside) (client : ConnectedClient)
      (hclient : client ∈ process.connectedClients) (hopen : client.hasBeenDisconnected = false)
      (hwaiting : process.waiting client.id ≠ []) (hsignal : .sigpipe ∈ outside.signals) :
      Ends env process events (.network outside) (.sigpipe client.id)

/-- With nicknames that are UTF-8 the network thread ends the process by a signal only. -/
theorem ends_of_network
    (hdeserialize : ∀ bytes message, deserialize bytes = .ok message →
      message.AllNicknames Coding.Utf8)
    (hrun : run (step env deserialize dumpFloat) new inputs = .ok (process, effects))
    {fault : Fault} (hfails : process.network deserialize dumpFloat outside = .error fault)
    (events : List System.Event) : Ends env process events (.network outside) fault := by
  unfold network at hfails
  split at hfails
  · cases hfails
  · cases hfails
  · cases hfails
  next before client rest hloop =>
    unfold dispatchMessages at hfails
    cases hdispatch : process.delivery.dispatchMessages outside.preference with
    | error e => cases e
    | ok outcome =>
      obtain ⟨delivery, handed⟩ := outcome
      simp only [hdispatch] at hfails
      cases hsent : callBacks dumpFloat (before ++ client :: rest) outside.signals handed with
      | ok sent =>
        simp only [hsent] at hfails
        split_ifs at hfails
      | error e =>
        simp only [hsent] at hfails
        cases hfails
        have hclients : process.connectedClients = before ++ client :: rest := by
          rw [connectedClients, hloop]
          rfl
        obtain ⟨call, hcall, hfails | ⟨o, ho, hsends, hsignal, rfl⟩⟩ := callBacks_eq_error hsent
        · refine absurd hfails (callBack_ne_error ?_ ?_ fault)
          · exact hclients ▸ (run_serves hrun).callBack_ne hdispatch hcall
          · exact nicknames_of_run hdeserialize hrun _
              ((run_conserves hrun).mem_sent hdispatch hcall)
        · obtain ⟨receiver, hreceiver, hid, hopen⟩ := open_of_sends ho hsends
          have hwaiting : process.waiting receiver.id ≠ [] :=
            (hid.trans ((run_serves hrun).own_callback hdispatch hcall)) ▸
              List.ne_nil_of_mem (mem_waiting hdispatch hcall)
          exact hid ▸ .sigpipe outside receiver (hclients ▸ hreceiver) hopen hwaiting hsignal

/-- A run that has got somewhere, and gameplay by itself on the events of this run. -/
structure RunsAs (env : Environment) (process : Process) (effects : List Effect)
    (system : System) : Prop where
  runs : run (System.step env) .new (effects.filterMap Effect.event?) =
    .ok (system, effects.filterMap Effect.gameplay?)
  agrees : Agrees process system
  /-- What gameplay has sent to a client was handed to the client or waits. -/
  outbound : ∀ p, Delivery.handedTo p (effects.filterMap Effect.handed?) ++ process.waiting p =
    system.messageHub.gameplayMessagesByPlayerId p

theorem runsAs_of_run
    (hrun : run (step env deserialize dumpFloat) new inputs = .ok (process, effects)) :
    ∃ system, RunsAs env process effects system := by
  obtain ⟨system, hsystem, hagrees⟩ := run_agrees hrun
  refine ⟨system, hsystem, hagrees, fun p => ?_⟩
  rw [(run_conserves hrun).outbound p, Gameplay.run_gameplayMessages Gameplay.inv_new hsystem p]
  rfl

/-- The step that ends the process. -/
theorem ends_of_step
    (hdeserialize : ∀ bytes message, deserialize bytes = .ok message →
      message.AllNicknames Coding.Utf8)
    (hrun : run (step env deserialize dumpFloat) new inputs = .ok (process, effects))
    {fault : Fault} (hfails : process.step env deserialize dumpFloat input = .error fault) :
    Ends env process (effects.filterMap Effect.event?) input fault := by
  rcases step_error_cases hfails with ⟨outside, rfl, hnetwork⟩ | ⟨e, fault', hcall, hstep, rfl⟩
  · exact ends_of_network hdeserialize hrun hnetwork _
  · obtain ⟨system, hsystem, hagrees⟩ := run_agrees hrun
    obtain ⟨id, rfl⟩ := Gameplay.step_error (run_conserves hrun).inv hstep
    refine .gameplay input e id hcall ?_
    rw [run_append, hsystem]
    refine seq_eq_error.2 (Or.inr ⟨_, _, rfl, ?_⟩)
    rw [run_singleton]
    exact (hagrees.step e).1 _ hstep

variable {cast : FloatCast} {parse : Bytes → Option Json}

/-- Whatever the clients send and whichever thread goes on, gameplay does what it does without
the network thread: it goes as far as it would by itself, in the same states.  The process ends
where gameplay, fed the events of the run, would by itself call a destroyed room, or where a send
raises the signal. -/
theorem runs_as_system (env : Environment) (cast : FloatCast)
    (hparse : ∀ bytes json, parse bytes = some json →
      ∀ string, json.HasString string → Coding.Utf8 string) (dumpFloat : Rat → Bytes)
    (inputs : List Input) :
    (∃ process effects system,
      run (step env (Serializer.deserializePlayerActionMessage cast parse) dumpFloat) new inputs =
          .ok (process, effects) ∧
        RunsAs env process effects system) ∨
    ∃ before input after process effects system fault, inputs = before ++ input :: after ∧
      run (step env (Serializer.deserializePlayerActionMessage cast parse) dumpFloat) new before =
          .ok (process, effects) ∧
        RunsAs env process effects system ∧
        process.step env (Serializer.deserializePlayerActionMessage cast parse) dumpFloat input =
          .error fault ∧
        Ends env process (effects.filterMap Effect.event?) input fault := by
  cases hrun : run (step env (Serializer.deserializePlayerActionMessage cast parse) dumpFloat) new
      inputs with
  | error fault =>
    obtain ⟨before, input, after, process, effects, heq, hbefore, hfails⟩ := run_error_split hrun
    obtain ⟨system, hruns⟩ := runsAs_of_run hbefore
    exact Or.inr ⟨before, input, after, process, effects, system, fault, heq, hbefore, hruns,
      hfails, ends_of_step (Serializer.utf8_of_deserialize cast hparse) hbefore hfails⟩
  | ok outcome =>
    obtain ⟨process, effects⟩ := outcome
    obtain ⟨system, hruns⟩ := runsAs_of_run hrun
    exact Or.inl ⟨process, effects, system, rfl, hruns⟩

/-- A client that is seated joins again and closes its connection before gameplay sees it. -/
def joinsAgain : List Input :=
  [.network ⟨.accepted, .wouldBlock, [], []⟩,
    .network ⟨.wouldBlock, .data Serializer.joinText, [], []⟩, .dispatchMessages [],
    .network ⟨.wouldBlock, .wouldBlock, [], []⟩, .network ⟨.wouldBlock, .wouldBlock, [], []⟩,
    .network ⟨.wouldBlock, .wouldBlock, [], []⟩,
    .network ⟨.wouldBlock, .data Serializer.joinText, [], []⟩,
    .network ⟨.wouldBlock, .wouldBlock, [], []⟩, .network ⟨.wouldBlock, .wouldBlock, [], []⟩,
    .network ⟨.wouldBlock, .wouldBlock, [], []⟩, .network ⟨.wouldBlock, .closed, [], []⟩,
    .dispatchMessages []]

/-- What gameplay is fed before it breaks off. -/
def joinsAgainEvents : List System.Event :=
  [.publishPlayerConnectivityMessage ⟨.connect, 0⟩,
    .publishPlayerActionMessage 0 (.joinGame (ascii "Kirby") .easy), .dispatchMessages [],
    .publishPlayerActionMessage 0 (.joinGame (ascii "Kirby") .easy),
    .publishPlayerConnectivityMessage ⟨.disconnect, 0⟩]

/-- The run breaks off at its last call. -/
theorem runs_as_system_joinsAgain :
    ∃ process effects system,
      run (step Gameplay.stillEnvironment (Serializer.deserializePlayerActionMessage
          ⟨fun _ => 0, fun _ => 0⟩ Serializer.parseJoin) fun _ => []) new joinsAgain.dropLast =
        .ok (process, effects) ∧
      RunsAs Gameplay.stillEnvironment process effects system ∧
      effects.filterMap Effect.event? = joinsAgainEvents ∧
      Ends Gameplay.stillEnvironment process joinsAgainEvents (.dispatchMessages [])
        (.gameplay (.useAfterFree 0)) := by
  have hevents : (run (step Gameplay.stillEnvironment (Serializer.deserializePlayerActionMessage
      ⟨fun _ => 0, fun _ => 0⟩ Serializer.parseJoin) fun _ => []) new joinsAgain.dropLast).map
        (fun outcome => outcome.2.filterMap Effect.event?) = .ok joinsAgainEvents := rfl
  have hfails : run (step Gameplay.stillEnvironment (Serializer.deserializePlayerActionMessage
      ⟨fun _ => 0, fun _ => 0⟩ Serializer.parseJoin) fun _ => []) new joinsAgain =
      .error (.gameplay (.useAfterFree 0)) := rfl
  rcases runs_as_system Gameplay.stillEnvironment ⟨fun _ => 0, fun _ => 0⟩
    (fun _ _ h _ => Serializer.utf8_of_parseJoin h) (fun _ => []) joinsAgain with
    ⟨process, effects, system, hruns, -⟩ |
    ⟨before, input, after, process, effects, system, fault, hsplit, hbefore, hruns, hstep, hends⟩
  · rw [hfails] at hruns
    cases hruns
  · have hlast : joinsAgain.dropLast ++ [.dispatchMessages []] = before ++ input :: after := hsplit
    cases hrun : run (step Gameplay.stillEnvironment (Serializer.deserializePlayerActionMessage
        ⟨fun _ => 0, fun _ => 0⟩ Serializer.parseJoin) fun _ => []) new joinsAgain.dropLast with
    | error fault' =>
      rw [hrun] at hevents
      cases hevents
    | ok outcome =>
      obtain ⟨rfl, rfl, rfl⟩ := eq_of_breaks_off hlast hrun hbefore hstep
      rw [hbefore] at hevents
      have hseen : effects.filterMap Effect.event? = joinsAgainEvents := Except.ok.inj hevents
      refine ⟨process, effects, system, hrun.symm.trans hbefore, hruns, hseen, ?_⟩
      rw [hseen] at hends
      have hfault : fault = .gameplay (.useAfterFree 0) := by
        cases hends with
        | gameplay input e id hcall hsystem =>
          have hzero : run (System.step Gameplay.stillEnvironment) .new
              (joinsAgainEvents ++ [.dispatchMessages []]) = .error (.useAfterFree 0) := rfl
          cases hcall
          rw [hzero] at hsystem
          cases hsystem
          rfl
      exact hfault ▸ hends

/-- A client joins and is gone when the answer is sent. -/
example : run (step Gameplay.stillEnvironment (Serializer.deserializePlayerActionMessage
    ⟨fun _ => 0, fun _ => 0⟩ Serializer.parseJoin) fun _ => []) new
      [.network ⟨.accepted, .wouldBlock, [], []⟩,
        .network ⟨.wouldBlock, .data Serializer.joinText, [], []⟩, .dispatchMessages [],
        .network ⟨.wouldBlock, .wouldBlock, [], [.sigpipe]⟩] = .error (.sigpipe 0) := rfl

end Process
end SamuraiKirby
