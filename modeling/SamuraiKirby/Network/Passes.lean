/-
The network thread, taken by itself.

Between two parts of a pass gameplay may do what it likes: the clients, their
connections and what is published of them are the same as in a pass that nothing
interrupts.  So the network thread of the process has gone through passes of
`Server`, and through a part of one more (`passes_of_run`).
-/
import SamuraiKirby.Network.Threads

namespace SamuraiKirby

open Transition

namespace Server

variable {deserialize : Bytes → Except DeserializeFailure PlayerActionMessage}
  {recv : PlayerId → RecvResult} {done before : List ConnectedClient} {os : List ServerEffect}
  {client client' : ConnectedClient} {result : RecvResult} {events : List System.Event}

/-- The loop has gone through `done`, of whom `before` are left, with the effects `os`.  What
comes behind does not depend on it. -/
def Polls (deserialize : Bytes → Except DeserializeFailure PlayerActionMessage)
    (recv : PlayerId → RecvResult) (done before : List ConnectedClient)
    (os : List ServerEffect) : Prop :=
  ∀ (recv' : PlayerId → RecvResult) (rest : List ConnectedClient),
    (∀ p ∈ ids done, recv' p = recv p) →
    communicate deserialize recv' (done ++ rest) =
      ⟨before ++ (communicate deserialize recv' rest).connectedClients,
        os ++ (communicate deserialize recv' rest).effects,
        (communicate deserialize recv' rest).threw⟩

theorem polls_nil (recv : PlayerId → RecvResult) : Polls deserialize recv [] [] [] :=
  fun _ _ _ => rfl

theorem agrees_of_update (hclient : client.id ∉ ids done) {recv' : PlayerId → RecvResult}
    (h : ∀ p ∈ ids (done ++ [client]), recv' p = Function.update recv client.id result p) :
    (∀ p ∈ ids done, recv' p = recv p) ∧ recv' client.id = result := by
  have hids : ids (done ++ [client]) = ids done ++ [client.id] := List.map_append
  rw [hids] at h
  constructor
  · intro p hp
    rw [h p (List.mem_append_left _ hp)]
    refine Function.update_of_ne (fun heq => hclient ?_) _ _
    exact heq ▸ hp
  · rw [h client.id (List.mem_append_right _ (List.mem_singleton_self _))]
    exact Function.update_self ..

/-- The next client receives and stays. -/
theorem Polls.keeps (h : Polls deserialize recv done before os) (hclient : client.id ∉ ids done)
    (hfailed : result.isFailed = false) (hclosed : result.isClosed = false)
    (hconnected : client.hasBeenDisconnected = false) :
    Polls deserialize (Function.update recv client.id result) (done ++ [client])
      (before ++ [client])
      (os ++ (.polled client.id ::
        ((client.receiveFromNetwork deserialize result).2.map .published ++ [.dispatched]))) := by
  intro recv' rest hrecv
  obtain ⟨hdone, hresult⟩ := agrees_of_update hclient hrecv
  rw [List.append_assoc, List.singleton_append, h recv' (client :: rest) hdone,
    communicate_cons_open (hresult ▸ hfailed) (hresult ▸ hclosed) hconnected, hresult]
  simp

/-- The next client closes its connection and leaves. -/
theorem Polls.erases (h : Polls deserialize recv done before os) (hclient : client.id ∉ ids done)
    (hclosed : result.isClosed = true) :
    Polls deserialize (Function.update recv client.id result) (done ++ [client]) before
      (os ++ (.polled client.id ::
        ((client.receiveFromNetwork deserialize result).2.map .published ++
          [.dispatched, .destroyed client.id]))) := by
  intro recv' rest hrecv
  obtain ⟨hdone, hresult⟩ := agrees_of_update hclient hrecv
  rw [List.append_assoc, List.singleton_append, h recv' (client :: rest) hdone,
    communicate_cons_closed (hresult ▸ hclosed), hresult]
  simp

/-- The next client fails, and the loop ends. -/
theorem Polls.fails (h : Polls deserialize recv done before os) (hclient : client.id ∉ ids done)
    (rest : List ConnectedClient) :
    communicate deserialize (Function.update recv client.id .failed) (done ++ client :: rest) =
      ⟨before ++ client :: rest, os ++ [.polled client.id,
        .published (.publishPlayerConnectivityMessage ⟨.disconnect, client.id⟩)], true⟩ := by
  have hself : Function.update recv client.id .failed client.id = .failed :=
    Function.update_self ..
  have hdone : ∀ p ∈ ids done, Function.update recv client.id .failed p = recv p := by
    intro p hp
    refine Function.update_of_ne (fun heq => hclient ?_) _ _
    exact heq ▸ hp
  rw [h _ (client :: rest) hdone, communicate_cons_failed (by rw [hself]; rfl), hself]
  rfl

/-- How a pass begins, unless nobody could be accepted. -/
inductive Opens (server : Server) : AcceptResult → Server → List ServerEffect → Prop where
  | wouldBlock : Opens server .wouldBlock server []
  | accepted : Opens server .accepted server.addClient.1 server.addClient.2

variable {server opened : Server} {accept : AcceptResult} {announced : List ServerEffect}

theorem Opens.step (h : Opens server accept opened announced) (recv : PlayerId → RecvResult) :
    server.step deserialize ⟨accept, recv⟩ =
      .ok ((opened.handleClientsCommunication deserialize recv).1,
        announced ++ (communicate deserialize recv opened.connectedClients).effects) := by
  cases h <;> rfl

end Server

namespace Process

open Server

variable {env : Environment}
  {deserialize : Bytes → Except DeserializeFailure PlayerActionMessage}
  {dumpFloat : Rat → Bytes} {process process' : Process} {effects : List Effect}
  {outside : Outside} {input : Input} {inputs : List Input} {told os : List ServerEffect}

/-- What the effect is for the network thread. -/
def Effect.server? : Effect → Option ServerEffect
  | .received playerId _ => some (.polled playerId)
  | .published event => some (.published event)
  | .dispatched => some .dispatched
  | .destroyed playerId => some (.destroyed playerId)
  | _ => none

/-- Where the network thread is in a pass that began with `opened`, with the effects since. -/
inductive InPass (deserialize : Bytes → Except DeserializeFailure PlayerActionMessage)
    (opened : Server) : Loop → List ServerEffect → Prop where
  | receiving (recv : PlayerId → RecvResult) (done before rest : List ConnectedClient)
      (os : List ServerEffect) (hclients : opened.connectedClients = done ++ rest)
      (hpolls : Polls deserialize recv done before os) :
      InPass deserialize opened (.receiving before rest) os
  | dispatching (recv : PlayerId → RecvResult) (done before : List ConnectedClient)
      (client client' : ConnectedClient) (rest : List ConnectedClient)
      (events : List System.Event) (result : RecvResult) (os : List ServerEffect)
      (hclients : opened.connectedClients = done ++ client :: rest)
      (hpolls : Polls deserialize recv done before os) (hresult : result.isFailed = false)
      (hreceive : client.receiveFromNetwork deserialize result = (client', events)) :
      InPass deserialize opened (.dispatching before client' rest)
        (os ++ (.polled client.id :: events.map .published))

/-- The network thread has gone through passes of the server and may be in another. -/
inductive Passing (deserialize : Bytes → Except DeserializeFailure PlayerActionMessage)
    (process : Process) : List ServerEffect → Prop where
  | between (passes : List Pass) (server : Server) (told : List ServerEffect)
      (hrun : run (Server.step deserialize) Server.new passes = .ok (server, told))
      (hloop : process.loop = .accepting server.connectedClients)
      (hnext : process.nextClientId = server.nextClientId) : Passing deserialize process told
  | during (passes : List Pass) (server : Server) (told : List ServerEffect)
      (accept : AcceptResult) (opened : Server) (announced os : List ServerEffect)
      (hrun : run (Server.step deserialize) Server.new passes = .ok (server, told))
      (hopens : Opens server accept opened announced)
      (hpass : InPass deserialize opened process.loop os)
      (hnext : process.nextClientId = opened.nextClientId) :
      Passing deserialize process (told ++ (announced ++ os))

theorem passing_new : Passing deserialize new [] :=
  .between [] Server.new [] rfl rfl rfl

/-- A pass has come to its end. -/
theorem Passing.ends {passes : List Pass} {server opened : Server} {accept : AcceptResult}
    {announced : List ServerEffect} {recv : PlayerId → RecvResult}
    {clients : List ConnectedClient} {threw : Bool}
    (hrun : run (Server.step deserialize) Server.new passes = .ok (server, told))
    (hopens : Opens server accept opened announced)
    (hcommunicate : communicate deserialize recv opened.connectedClients = ⟨clients, os, threw⟩)
    (hloop : process.loop = .accepting clients)
    (hnext : process.nextClientId = opened.nextClientId) :
    Passing deserialize process (told ++ (announced ++ os)) := by
  have hstep := @Opens.step deserialize server opened accept announced hopens recv
  rw [hcommunicate] at hstep
  have hclients : (opened.handleClientsCommunication deserialize recv).1.connectedClients =
      clients := by
    show (communicate deserialize recv opened.connectedClients).connectedClients = clients
    rw [hcommunicate]
  exact .between (passes ++ [⟨accept, recv⟩]) (opened.handleClientsCommunication deserialize recv).1
    _ (run_snoc hrun hstep) (by rw [hclients, hloop]) hnext

theorem server?_published (events : List System.Event) :
    (events.map Effect.published).filterMap Effect.server? = events.map .published := by
  rw [List.filterMap_map]
  exact List.filterMap_eq_map.symm ▸ rfl

/-- Callbacks are not seen in `Server`. -/
theorem server?_of_callBack {clients : List ConnectedClient} {handed : List (Handed PlayerId)}
    (hsent : handed.mapM (callBack dumpFloat clients) = .ok effects) :
    effects.filterMap Effect.server? = [] := by
  refine List.filterMap_eq_nil_iff.2 fun o ho => ?_
  obtain ⟨call, bytes, rfl⟩ := unseen_of_callBack hsent o ho
  rfl

/-- A part of a pass goes on where the last part has stopped. -/
theorem Passing.during_of {passes : List Pass} {server opened : Server} {accept : AcceptResult}
    {announced os' : List ServerEffect}
    (hrun : run (Server.step deserialize) Server.new passes = .ok (server, told))
    (hopens : Opens server accept opened announced)
    (hpass : InPass deserialize opened process'.loop (os ++ os'))
    (hnext : process'.nextClientId = opened.nextClientId) :
    Passing deserialize process' (told ++ (announced ++ os) ++ os') := by
  rw [List.append_assoc, List.append_assoc]
  exact .during passes server told accept opened announced (os ++ os') hrun hopens hpass hnext

/-- No id is met twice in a pass. -/
theorem notMem_ids_done {opened : Server} {done rest : List ConnectedClient}
    {client : ConnectedClient} (hclients : opened.connectedClients = done ++ client :: rest) :
    client.id ∉ ids done := by
  have hdistinct := opened.distinct
  rw [hclients, List.map_append, List.map_cons] at hdistinct
  have hperm := List.perm_middle.nodup_iff.1 hdistinct
  exact fun hmem => (List.nodup_cons.1 hperm).1 (List.mem_append_left _ hmem)

/-- What has become of a client that has received. -/
theorem eq_of_receiveFromNetwork {client client' : ConnectedClient} {result : RecvResult}
    {events : List System.Event}
    (h : client.receiveFromNetwork deserialize result = (client', events)) :
    client' = if result.isClosed then { client with hasBeenDisconnected := true } else client := by
  rw [← receiveFromNetwork_fst, h]

/-! ## The parts of a pass -/

section Parts

variable {opened : Server} {before rest : List ConnectedClient}
  {client client' : ConnectedClient} {events : List System.Event}

/-- The loop has come to its end. -/
theorem InPass.ends (h : InPass deserialize opened (.receiving before []) os) :
    ∃ recv, communicate deserialize recv opened.connectedClients = ⟨before, os, false⟩ := by
  cases h with
  | receiving recv done before rest os hclients hpolls =>
    refine ⟨recv, ?_⟩
    rw [hclients, hpolls recv [] fun _ _ => rfl]
    simp only [communicate, List.append_nil]

/-- The loop breaks off at a client that fails. -/
theorem InPass.fails (h : InPass deserialize opened (.receiving before (client :: rest)) os) :
    ∃ recv, communicate deserialize recv opened.connectedClients =
      ⟨before ++ client :: rest, os ++ [.polled client.id,
        .published (.publishPlayerConnectivityMessage ⟨.disconnect, client.id⟩)], true⟩ := by
  cases h with
  | receiving recv done before rest os hclients hpolls =>
    rw [hclients]
    exact ⟨_, hpolls.fails (notMem_ids_done hclients) rest⟩

theorem InPass.receives (h : InPass deserialize opened (.receiving before (client :: rest)) os)
    {result : RecvResult} (hresult : result.isFailed = false)
    (hreceive : client.receiveFromNetwork deserialize result = (client', events)) :
    InPass deserialize opened (.dispatching before client' rest)
      (os ++ (.polled client.id :: events.map .published)) := by
  cases h with
  | receiving recv done before rest os hclients hpolls =>
    exact .dispatching recv done before client client' rest events result os hclients hpolls
      hresult hreceive

/-- A client that is there after it has received was not closed. -/
theorem isClosed_eq {result : RecvResult} (hconnected : client.hasBeenDisconnected = false)
    (hreceive : client.receiveFromNetwork deserialize result = (client', events)) :
    result.isClosed = client'.hasBeenDisconnected := by
  rw [eq_of_receiveFromNetwork hreceive]
  cases result.isClosed with
  | true => rfl
  | false => exact hconnected.symm

theorem InPass.keeps (h : InPass deserialize opened (.dispatching before client rest) os)
    (hclient : client.hasBeenDisconnected = false) :
    InPass deserialize opened (.receiving (before ++ [client]) rest) (os ++ [.dispatched]) := by
  cases h with
  | dispatching recv done before received client rest events result os hclients hpolls hresult
      hreceive =>
    have hconnected := opened.connected received (hclients ▸ List.mem_append_right _
      (List.mem_cons_self ..))
    have hclosed : result.isClosed = false := (isClosed_eq hconnected hreceive).trans hclient
    have heq := eq_of_receiveFromNetwork hreceive
    rw [hclosed, if_neg Bool.false_ne_true] at heq
    subst heq
    have hpolls' := hpolls.keeps (notMem_ids_done hclients) hresult hclosed hconnected
    rw [hreceive] at hpolls'
    rw [List.append_assoc]
    exact .receiving _ (done ++ [client]) (before ++ [client]) rest _
      (by rw [hclients, List.append_assoc]; rfl) hpolls'

theorem InPass.erases (h : InPass deserialize opened (.dispatching before client rest) os)
    (hclient : client.hasBeenDisconnected = true) :
    InPass deserialize opened (.receiving before rest)
      (os ++ [.dispatched, .destroyed client.id]) := by
  cases h with
  | dispatching recv done before received client rest events result os hclients hpolls hresult
      hreceive =>
    have hconnected := opened.connected received (hclients ▸ List.mem_append_right _
      (List.mem_cons_self ..))
    have hclosed : result.isClosed = true := (isClosed_eq hconnected hreceive).trans hclient
    have hpolls' := hpolls.erases (notMem_ids_done hclients) hclosed
    rw [hreceive] at hpolls'
    rw [List.append_assoc, ConnectedClient.id_receiveFromNetwork hreceive]
    exact .receiving _ (done ++ [received]) before rest _
      (by rw [hclients, List.append_assoc]; rfl) hpolls'

end Parts

/-- Between two passes. -/
theorem Passing.of_accepting (h : Passing deserialize process os)
    {clients : List ConnectedClient} (hloop : process.loop = .accepting clients) :
    ∃ passes server, run (Server.step deserialize) Server.new passes = .ok (server, os) ∧
      server.connectedClients = clients ∧ process.nextClientId = server.nextClientId := by
  cases h with
  | between passes server told hrun hloop' hnext =>
    exact ⟨passes, server, hrun, Loop.accepting.inj (hloop'.symm.trans hloop), hnext⟩
  | during passes server told accept opened announced os hrun hopens hpass hnext =>
    rw [hloop] at hpass
    cases hpass

/-- Inside a pass. -/
theorem Passing.of_inside (h : Passing deserialize process os) {loop : Loop}
    (hloop : process.loop = loop) (hinside : ∀ clients, loop ≠ .accepting clients) :
    ∃ passes server told accept opened announced seen,
      run (Server.step deserialize) Server.new passes = .ok (server, told) ∧
        Opens server accept opened announced ∧ InPass deserialize opened loop seen ∧
        process.nextClientId = opened.nextClientId ∧ os = told ++ (announced ++ seen) := by
  cases h with
  | between passes server told hrun hloop' hnext =>
    exact absurd (hloop.symm.trans hloop') (hinside _)
  | during passes server told accept opened announced os hrun hopens hpass hnext =>
    exact ⟨passes, server, told, accept, opened, announced, os, hrun, hopens, hloop ▸ hpass, hnext,
      rfl⟩

/-- A pass has begun. -/
theorem Passing.begins {passes : List Pass} {server opened : Server} {accept : AcceptResult}
    {announced : List ServerEffect}
    (hrun : run (Server.step deserialize) Server.new passes = .ok (server, told))
    (hopens : Opens server accept opened announced)
    (hloop : process.loop = .receiving [] opened.connectedClients)
    (hnext : process.nextClientId = opened.nextClientId) :
    Passing deserialize process (told ++ announced) := by
  have hpass : InPass deserialize opened process.loop [] := by
    rw [hloop]
    exact .receiving (fun _ => .wouldBlock) [] [] _ [] rfl (polls_nil _)
  have hduring := Passing.during passes server told accept opened announced [] hrun hopens hpass
    hnext
  rwa [List.append_nil] at hduring

theorem NetworkCase.passing (hcase : NetworkCase deserialize dumpFloat process outside process'
    effects) (h : Passing deserialize process os) :
    Passing deserialize process' (os ++ effects.filterMap Effect.server?) := by
  cases hcase with
  | refuses clients hloop haccept =>
    obtain ⟨passes, server, hrun, rfl, hnext⟩ := h.of_accepting hloop
    have hstep : server.step deserialize ⟨.failed, fun _ => .wouldBlock⟩ = .ok (server, []) := rfl
    exact .between (passes ++ [_]) server _ (run_snoc hrun hstep) hloop hnext
  | begins clients hloop haccept =>
    obtain ⟨passes, server, hrun, rfl, hnext⟩ := h.of_accepting hloop
    exact Passing.begins hrun .wouldBlock rfl hnext
  | accepts clients hloop haccept =>
    obtain ⟨passes, server, hrun, rfl, hnext⟩ := h.of_accepting hloop
    have hannounced : server.addClient.2 =
        [.published (.publishPlayerConnectivityMessage ⟨.connect, process.nextClientId⟩)] := by
      rw [hnext]
      rfl
    show Passing deserialize _ (os ++ [.published _])
    rw [← hannounced]
    exact Passing.begins hrun .accepted (by rw [hnext]; rfl) (by rw [hnext]; rfl)
  | ends before hloop =>
    obtain ⟨passes, server, told, accept, opened, announced, seen, hrun, hopens, hpass, hnext, rfl⟩
      := h.of_inside hloop nofun
    obtain ⟨recv, hall⟩ := hpass.ends
    rw [List.filterMap_nil, List.append_nil]
    exact Passing.ends hrun hopens hall rfl hnext
  | fails before client rest hloop hrecv =>
    obtain ⟨passes, server, told, accept, opened, announced, seen, hrun, hopens, hpass, hnext, rfl⟩
      := h.of_inside hloop nofun
    obtain ⟨recv, hall⟩ := hpass.fails
    rw [List.append_assoc, List.append_assoc]
    exact Passing.ends hrun hopens hall rfl hnext
  | receives before client client' rest events hloop hrecv hreceive =>
    obtain ⟨passes, server, told, accept, opened, announced, seen, hrun, hopens, hpass, hnext, rfl⟩
      := h.of_inside hloop nofun
    refine Passing.during_of hrun hopens ?_ hnext
    rw [List.filterMap_cons, server?_published]
    exact hpass.receives hrecv hreceive
  | keeps before client rest delivery handed sent hloop hdispatch hsent hclient =>
    obtain ⟨passes, server, told, accept, opened, announced, seen, hrun, hopens, hpass, hnext, rfl⟩
      := h.of_inside hloop nofun
    refine Passing.during_of hrun hopens ?_ hnext
    rw [List.filterMap_append, server?_of_callBack hsent]
    exact hpass.keeps hclient
  | erases before client rest delivery handed sent hloop hdispatch hsent hclient =>
    obtain ⟨passes, server, told, accept, opened, announced, seen, hrun, hopens, hpass, hnext, rfl⟩
      := h.of_inside hloop nofun
    refine Passing.during_of hrun hopens ?_ hnext
    rw [List.filterMap_append, server?_of_callBack hsent]
    exact hpass.erases hclient

theorem server?_gameplay (os : List SamuraiKirby.Effect) :
    (os.map Effect.gameplay).filterMap Effect.server? = [] := by
  rw [List.filterMap_map]
  exact List.filterMap_eq_nil_iff.2 fun _ _ => rfl

/-- Gameplay does nothing to the network thread. -/
theorem Passing.gameplay (h : Passing deserialize process os) (hub : MessageHub)
    (gameplay : Gameplay) :
    Passing deserialize { process with messageHub := hub, gameplay := gameplay } os := by
  cases h with
  | between passes server told hrun hloop hnext => exact .between passes server os hrun hloop hnext
  | during passes server told accept opened announced os hrun hopens hpass hnext =>
    exact .during passes server told accept opened announced os hrun hopens hpass hnext

theorem run_passing
    (hrun : run (step env deserialize dumpFloat) new inputs = .ok (process, effects)) :
    Passing deserialize process (effects.filterMap Effect.server?) := by
  have hend : Passing deserialize process (([] ++ effects).filterMap Effect.server?) := by
    refine run_told (C := fun _ _ _ => True) (P := fun s told =>
        Passing deserialize s (told.filterMap Effect.server?))
      (fun s told a rest s' os _ h _ hstep => ?_) passing_new (along_true _ _) hrun
    rw [List.filterMap_append]
    cases step_cases hstep with
    | network outside process' effects hcase => exact hcase.passing h
    | gameplay input e hcall t os hsystem =>
      rw [List.filterMap_cons, server?_gameplay]
      simp only [Effect.server?, List.append_nil]
      exact h.gameplay _ _
  exact hend

/-- Whatever gameplay does in between, the network thread goes through passes of the server.
What it has done are whole passes and a part of one more, and between two passes its clients are
those of the server. -/
theorem passes_of_run
    (hrun : run (step env deserialize dumpFloat) new inputs = .ok (process, effects)) :
    ∃ passes server told pass server' os,
      run (Server.step deserialize) Server.new passes = .ok (server, told) ∧
        server.step deserialize pass = .ok (server', os) ∧
        told <+: effects.filterMap Effect.server? ∧
        effects.filterMap Effect.server? <+: told ++ os ∧
        ∀ clients, process.loop = .accepting clients →
          effects.filterMap Effect.server? = told ∧ server.connectedClients = clients := by
  have hpassing := run_passing hrun
  generalize effects.filterMap Effect.server? = seen at hpassing ⊢
  cases hpassing with
  | between passes server told hserver hloop hnext =>
    refine ⟨passes, server, seen, ⟨.failed, fun _ => .wouldBlock⟩, server, [], hserver, rfl,
      List.prefix_rfl, List.prefix_append _ _, fun clients hclients => ⟨rfl, ?_⟩⟩
    exact Loop.accepting.inj (hloop.symm.trans hclients)
  | during passes server told accept opened announced os hserver hopens hpass hnext =>
    generalize process.loop = loop at hpass ⊢
    have hnone : ∀ clients, loop ≠ .accepting clients := by
      rintro clients rfl
      cases hpass
    have hshared : ∀ recv, os <+: (communicate deserialize recv opened.connectedClients).effects →
        ∃ passes server told' pass server' os',
          run (Server.step deserialize) Server.new passes = .ok (server, told') ∧
            server.step deserialize pass = .ok (server', os') ∧
            told' <+: told ++ (announced ++ os) ∧ told ++ (announced ++ os) <+: told' ++ os' ∧
            ∀ clients, loop = .accepting clients →
              told ++ (announced ++ os) = told' ∧ server.connectedClients = clients := by
      intro recv hos
      refine ⟨passes, server, told, ⟨accept, recv⟩, _, _, hserver, hopens.step recv,
        List.prefix_append _ _, ?_, fun clients hclients => absurd hclients (hnone clients)⟩
      exact (List.prefix_append_right_inj _).2 ((List.prefix_append_right_inj _).2 hos)
    cases hpass with
    | receiving recv done before rest os hclients hpolls =>
      refine hshared recv ?_
      rw [hclients, hpolls recv rest fun _ _ => rfl]
      exact List.prefix_append _ _
    | dispatching recv done before client client' rest events result os hclients hpolls hresult
        hreceive =>
      refine hshared (Function.update recv client.id result) ?_
      have hconnected := opened.connected client (hclients ▸ List.mem_append_right _
        (List.mem_cons_self ..))
      obtain ⟨hdone, hself⟩ := @agrees_of_update recv done client result
        (notMem_ids_done hclients) (Function.update recv client.id result) fun _ _ => rfl
      rw [hclients, hpolls _ (client :: rest) hdone]
      refine (List.prefix_append_right_inj _).2 ?_
      cases hclosed : result.isClosed with
      | true =>
        rw [communicate_cons_closed (by rw [hself, hclosed]), hself, hreceive]
        exact List.prefix_append _ _
      | false =>
        rw [communicate_cons_open (by rw [hself, hresult]) (by rw [hself, hclosed]) hconnected,
          hself, hreceive]
        exact List.prefix_append _ _

/-- A client is accepted and says nothing, gameplay is told of it, and it cannot be read. -/
def oneFails : List Input :=
  [.network ⟨.accepted, .wouldBlock, [], []⟩, .network ⟨.wouldBlock, .wouldBlock, [], []⟩,
    .dispatchMessages [], .network ⟨.wouldBlock, .wouldBlock, [], []⟩,
    .network ⟨.wouldBlock, .wouldBlock, [], []⟩, .network ⟨.wouldBlock, .wouldBlock, [], []⟩,
    .network ⟨.wouldBlock, .failed, [], []⟩]

theorem passes_of_run_oneFails :
    ∃ process effects,
      run (step Gameplay.stillEnvironment (fun _ => .error .deserializeException) fun _ => []) new
          oneFails = .ok (process, effects) ∧
        ∃ passes server,
          run (Server.step fun _ => .error .deserializeException) Server.new passes =
              .ok (server, effects.filterMap Effect.server?) ∧
            server.connectedClients = [⟨0, false⟩] := by
  refine ⟨_, _, rfl, ?_⟩
  obtain ⟨passes, server, told, pass, server', os, hserver, -, -, -, hbetween⟩ :=
    @passes_of_run Gameplay.stillEnvironment (fun _ => .error .deserializeException)
      (fun _ => []) _ _ oneFails rfl
  obtain ⟨hseen, hclients⟩ := hbetween _ rfl
  exact ⟨passes, server, hseen ▸ hserver, hclients⟩

end Process
end SamuraiKirby
