/-
The whole server: the network thread and the gameplay thread over one hub.

`Server` is the network thread by itself, `System` is gameplay with the network as
a source of publications, and `Delivery` is what lies between the two on the way
out.  Here they run together.  A pass of the network thread is cut where it
touches the hub, and a call of gameplay's loop may come between any two parts of it.

A part of a pass and a call of gameplay's loop are one step each.  The source takes
no lock, so the threads may also meet inside one: an action published behind the
visit of its queue waits for the next dispatch, and two threads at one queue are a
data race.  Nothing here speaks of such a schedule.

The callback a client subscribes with is a closure over the client.  It stands here
under the id of the client, which no other client gets.

Nothing handles or ignores `SIGPIPE`.  A send to a peer that is gone may raise it,
and then the process ends.
-/
import SamuraiKirby.Messages.NetworkMessageBroker
import SamuraiKirby.Network.Outbound
import SamuraiKirby.Transition.Simulation

namespace SamuraiKirby

/-- What the network thread publishes for gameplay reaches the hub. -/
def MessageHub.publish (hub : MessageHub) : System.Event → MessageHub
  | .publishPlayerConnectivityMessage message => hub.pushConnectivity message
  | .publishPlayerActionMessage playerId message => hub.pushAction playerId message
  | .dispatchMessages _ | .tickAllRooms _ _ => hub

/-- Where the network thread is in the loop of `Server::start`, with the clients it has. -/
inductive Loop where
  /-- Before `handleNewClientConnection`. -/
  | accepting (connectedClients : List ConnectedClient)
  /-- In `handleClientsCommunication`, at a client or behind the last one. -/
  | receiving (before rest : List ConnectedClient)
  /-- The client the iterator is at has received. -/
  | dispatching (before : List ConnectedClient) (client : ConnectedClient)
      (rest : List ConnectedClient)

def Loop.connectedClients : Loop → List ConnectedClient
  | .accepting connectedClients => connectedClients
  | .receiving before rest => before ++ rest
  | .dispatching before client rest => before ++ client :: rest

structure Process where
  messageHub : MessageHub
  gameplay : Gameplay
  messageBroker : NetworkMessageBroker PlayerId
  loop : Loop
  nextClientId : PlayerId

namespace Process

open Transition

/-- Whether a `::send` comes back. -/
inductive SendSignal where
  | returned
  | sigpipe
deriving DecidableEq, Repr

/-- What ends the process. -/
inductive Fault where
  | gameplay (fault : SamuraiKirby.Fault)
  /-- The callback of a destroyed client was called. -/
  | useAfterFree (playerId : PlayerId)
  /-- An exception that nothing catches. -/
  | thrown (failure : SerializeFailure)
  /-- A send to the client raised the signal. -/
  | sigpipe (playerId : PlayerId)
deriving DecidableEq

inductive Effect where
  /-- `recv` was called for a client. -/
  | received (playerId : PlayerId) (result : RecvResult)
  /-- The network thread published something for gameplay. -/
  | published (event : System.Event)
  /-- Gameplay made one of the two calls of its loop. -/
  | called (event : System.Event)
  | gameplay (effect : SamuraiKirby.Effect)
  /-- A callback was called, which gave bytes to the socket of its client. -/
  | handed (handed : Handed PlayerId) (sent : Bytes)
  /-- `NetworkMessageBroker::dispatchMessages` has returned. -/
  | dispatched
  /-- A client was erased and its destructor unsubscribed it. -/
  | destroyed (playerId : PlayerId)

def new : Process where
  messageHub := .empty
  gameplay := .new
  messageBroker := .empty
  loop := .accepting []
  nextClientId := 0

def connectedClients (process : Process) : List ConnectedClient := process.loop.connectedClients

/-- The process as gameplay sees it. -/
def system (process : Process) : System := ⟨process.messageHub, process.gameplay⟩

/-- The process as gameplay messages see it. -/
def delivery (process : Process) : Delivery PlayerId := ⟨process.messageHub, process.messageBroker⟩

/-! ## The network thread -/

def publishAll (process : Process) (events : List System.Event) : Process :=
  { process with messageHub := events.foldl MessageHub.publish process.messageHub }

/-- `Server::handleNewClientConnection`.  What it throws skips the communication. -/
def handleNewClientConnection (process : Process) (clients : List ConnectedClient) :
    AcceptResult → Process × List Effect
  | .failed => (process, [])
  | .wouldBlock => ({ process with loop := .receiving [] clients }, [])
  | .accepted =>
    let (client, events) := ConnectedClient.new process.nextClientId
    ({ process.publishAll events with
        messageBroker := process.messageBroker.subscribeToGameplayMessagesForPlayer client.id
          client.id
        loop := .receiving [] (clients ++ [client])
        nextClientId := process.nextClientId + 1 },
      events.map .published)

/-- `client->receiveFromNetwork()`.  What it throws ends the loop over the clients. -/
def receiveFromNetwork (deserialize : Bytes → Except DeserializeFailure PlayerActionMessage)
    (process : Process) (before : List ConnectedClient) (client : ConnectedClient)
    (rest : List ConnectedClient) (result : RecvResult) : Process × List Effect :=
  let (client', events) := client.receiveFromNetwork deserialize result
  ({ process.publishAll events with
      loop :=
        if result.isFailed then .accepting (before ++ client' :: rest)
        else .dispatching before client' rest },
    .received client.id result :: events.map .published)

/-- The callback of a client, as long as the client is there, if its send comes back. -/
def callBack (dumpFloat : Rat → Bytes) (clients : List ConnectedClient)
    (handed : Handed PlayerId) : Except Fault Effect :=
  match clients.find? (·.id = handed.callback) with
  | none => .error (.useAfterFree handed.callback)
  | some client =>
    match client.handleGameplayMessage dumpFloat handed.message with
    | .ok sent => .ok (.handed handed sent)
    | .error failure => .error (.thrown failure)

/-- The callback gave bytes to a socket. -/
def Effect.sends : Effect → Bool
  | .handed _ sent => sent ≠ []
  | _ => false

/-- The callbacks of a dispatch, each with what becomes of its send.  What is not listed comes
back. -/
def callBacks (dumpFloat : Rat → Bytes) (clients : List ConnectedClient) :
    List SendSignal → List (Handed PlayerId) → Except Fault (List Effect)
  | _, [] => .ok []
  | signals, handed :: rest =>
    match callBack dumpFloat clients handed with
    | .error fault => .error fault
    | .ok effect =>
      if effect.sends ∧ signals.headD .returned = .sigpipe then .error (.sigpipe handed.callback)
      else
        match callBacks dumpFloat clients signals.tail rest with
        | .error fault => .error fault
        | .ok effects => .ok (effect :: effects)

/-- `messageBroker->dispatchMessages()` and the step to the next client.  No callback touches
the hub or the broker, so which of them are called is settled when the call begins. -/
def dispatchMessages (dumpFloat : Rat → Bytes) (process : Process)
    (before : List ConnectedClient) (client : ConnectedClient) (rest : List ConnectedClient)
    (preference : List PlayerId) (signals : List SendSignal) :
    Except Fault (Process × List Effect) :=
  match process.delivery.dispatchMessages preference with
  | .error fault => nomatch fault
  | .ok (delivery, handed) =>
    match callBacks dumpFloat (before ++ client :: rest) signals handed with
    | .error fault => .error fault
    | .ok sent =>
      let process' := { process with messageHub := delivery.messageHub }
      if client.hasBeenDisconnected then
        .ok ({ process' with
            messageBroker := process.messageBroker.unsubscribeToGameplayMessagesForPlayer client.id
            loop := .receiving before rest },
          sent ++ [.dispatched, .destroyed client.id])
      else
        .ok ({ process' with loop := .receiving (before ++ [client]) rest },
          sent ++ [.dispatched])

/-- What the network thread meets outside at its next step, which reads of it what it needs.
`preference` settles the order in which the map of callbacks is visited, and `signals` what
becomes of the sends of these callbacks. -/
structure Outside where
  accept : AcceptResult
  recv : RecvResult
  preference : List PlayerId
  signals : List SendSignal

/-- One of the two threads goes on. -/
inductive Input where
  | network (outside : Outside)
  | dispatchMessages (preference : List PlayerId)
  | tickAllRooms (readings : RoomId → Readings) (draws : RoomId → Nat)

/-- The call of gameplay's loop. -/
def Input.call? : Input → Option System.Event
  | .network _ => none
  | .dispatchMessages preference => some (.dispatchMessages preference)
  | .tickAllRooms readings draws => some (.tickAllRooms readings draws)

/-- No call publishes anything for gameplay. -/
theorem Input.call?_ne {input : Input} {e : System.Event} (h : input.call? = some e)
    (p : PlayerId) (message : PlayerActionMessage) :
    e ≠ .publishPlayerActionMessage p message := by
  cases input <;> cases h <;> exact nofun

section Machine

variable (env : Environment)
  (deserialize : Bytes → Except DeserializeFailure PlayerActionMessage)
  (dumpFloat : Rat → Bytes)

/-- The network thread from one access to the hub to the next. -/
def network (process : Process) (outside : Outside) : Except Fault (Process × List Effect) :=
  match process.loop with
  | .accepting clients => .ok (process.handleNewClientConnection clients outside.accept)
  | .receiving before [] => .ok ({ process with loop := .accepting before }, [])
  | .receiving before (client :: rest) =>
    .ok (process.receiveFromNetwork deserialize before client rest outside.recv)
  | .dispatching before client rest =>
    process.dispatchMessages dumpFloat before client rest outside.preference outside.signals

/-- A call of gameplay's loop. -/
def play (process : Process) (event : System.Event) : Except Fault (Process × List Effect) :=
  match process.system.step env event with
  | .error fault => .error (.gameplay fault)
  | .ok (system, effects) =>
    .ok ({ process with messageHub := system.messageHub, gameplay := system.gameplay },
      .called event :: effects.map .gameplay)

def step (process : Process) : Input → Except Fault (Process × List Effect)
  | .network outside => process.network deserialize dumpFloat outside
  | .dispatchMessages preference => process.play env (.dispatchMessages preference)
  | .tickAllRooms readings draws => process.play env (.tickAllRooms readings draws)

end Machine

/-! ## What the network thread does -/

variable {env : Environment}
  {deserialize : Bytes → Except DeserializeFailure PlayerActionMessage}
  {dumpFloat : Rat → Bytes} {process process' : Process} {effects : List Effect}
  {outside : Outside}

/-- Where no send raised the signal, the callbacks were called one after the other. -/
theorem mapM_of_callBacks {clients : List ConnectedClient} {signals : List SendSignal}
    {handed : List (Handed PlayerId)} {sent : List Effect}
    (h : callBacks dumpFloat clients signals handed = .ok sent) :
    handed.mapM (callBack dumpFloat clients) = .ok sent := by
  induction handed generalizing signals sent with
  | nil =>
    cases h
    rfl
  | cons call rest ih =>
    unfold callBacks at h
    cases hcall : callBack dumpFloat clients call with
    | error fault =>
      rw [hcall] at h
      cases h
    | ok effect =>
      simp only [hcall] at h
      split_ifs at h
      cases hrest : callBacks dumpFloat clients signals.tail rest with
      | error fault =>
        simp only [hrest] at h
        cases h
      | ok effects =>
        simp only [hrest] at h
        cases h
        rw [List.mapM_cons, hcall, ih hrest]
        rfl

/-- What one part of a pass does. -/
inductive NetworkCase (deserialize : Bytes → Except DeserializeFailure PlayerActionMessage)
    (dumpFloat : Rat → Bytes) (process : Process) (outside : Outside) :
    Process → List Effect → Prop where
  /-- Nobody could be accepted, and the pass is over. -/
  | refuses (clients : List ConnectedClient) (hloop : process.loop = .accepting clients)
      (haccept : outside.accept = .failed) : NetworkCase deserialize dumpFloat process outside
        process []
  /-- Nobody asked to be accepted. -/
  | begins (clients : List ConnectedClient) (hloop : process.loop = .accepting clients)
      (haccept : outside.accept = .wouldBlock) :
      NetworkCase deserialize dumpFloat process outside
        { process with loop := .receiving [] clients } []
  | accepts (clients : List ConnectedClient) (hloop : process.loop = .accepting clients)
      (haccept : outside.accept = .accepted) :
      NetworkCase deserialize dumpFloat process outside
        { process with
          messageHub := process.messageHub.pushConnectivity ⟨.connect, process.nextClientId⟩
          messageBroker := process.messageBroker.subscribeToGameplayMessagesForPlayer
            process.nextClientId process.nextClientId
          loop := .receiving [] (clients ++ [⟨process.nextClientId, false⟩])
          nextClientId := process.nextClientId + 1 }
        [.published (.publishPlayerConnectivityMessage ⟨.connect, process.nextClientId⟩)]
  /-- The iterator is behind the last client. -/
  | ends (before : List ConnectedClient) (hloop : process.loop = .receiving before []) :
      NetworkCase deserialize dumpFloat process outside
        { process with loop := .accepting before } []
  /-- The client cannot be read, which ends the pass. -/
  | fails (before : List ConnectedClient) (client : ConnectedClient)
      (rest : List ConnectedClient) (hloop : process.loop = .receiving before (client :: rest))
      (hrecv : outside.recv = .failed) : NetworkCase deserialize dumpFloat process outside
        { process.publishAll [.publishPlayerConnectivityMessage ⟨.disconnect, client.id⟩] with
          loop := .accepting (before ++ client :: rest) }
        [.received client.id .failed,
          .published (.publishPlayerConnectivityMessage ⟨.disconnect, client.id⟩)]
  | receives (before : List ConnectedClient) (client client' : ConnectedClient)
      (rest : List ConnectedClient) (events : List System.Event)
      (hloop : process.loop = .receiving before (client :: rest))
      (hrecv : outside.recv.isFailed = false)
      (hreceive : client.receiveFromNetwork deserialize outside.recv = (client', events)) :
      NetworkCase deserialize dumpFloat process outside
        { process.publishAll events with loop := .dispatching before client' rest }
        (.received client.id outside.recv :: events.map .published)
  /-- What waits is handed over, and the client stays. -/
  | keeps (before : List ConnectedClient) (client : ConnectedClient)
      (rest : List ConnectedClient) (delivery : Delivery PlayerId)
      (handed : List (Handed PlayerId)) (sent : List Effect)
      (hloop : process.loop = .dispatching before client rest)
      (hdispatch : process.delivery.dispatchMessages outside.preference = .ok (delivery, handed))
      (hsent : handed.mapM (callBack dumpFloat (before ++ client :: rest)) = .ok sent)
      (hclient : client.hasBeenDisconnected = false) :
      NetworkCase deserialize dumpFloat process outside
        { process with
          messageHub := delivery.messageHub
          loop := .receiving (before ++ [client]) rest }
        (sent ++ [.dispatched])
  /-- What waits is handed over, and the client is destroyed. -/
  | erases (before : List ConnectedClient) (client : ConnectedClient)
      (rest : List ConnectedClient) (delivery : Delivery PlayerId)
      (handed : List (Handed PlayerId)) (sent : List Effect)
      (hloop : process.loop = .dispatching before client rest)
      (hdispatch : process.delivery.dispatchMessages outside.preference = .ok (delivery, handed))
      (hsent : handed.mapM (callBack dumpFloat (before ++ client :: rest)) = .ok sent)
      (hclient : client.hasBeenDisconnected = true) :
      NetworkCase deserialize dumpFloat process outside
        { process with
          messageHub := delivery.messageHub
          messageBroker := process.messageBroker.unsubscribeToGameplayMessagesForPlayer client.id
          loop := .receiving before rest }
        (sent ++ [.dispatched, .destroyed client.id])

theorem network_cases
    (hstep : process.network deserialize dumpFloat outside = .ok (process', effects)) :
    NetworkCase deserialize dumpFloat process outside process' effects := by
  unfold network at hstep
  cases hloop : process.loop with
  | accepting clients =>
    simp only [hloop] at hstep
    cases haccept : outside.accept with
    | failed =>
      simp only [handleNewClientConnection, haccept] at hstep
      cases hstep
      exact .refuses clients hloop haccept
    | wouldBlock =>
      simp only [handleNewClientConnection, haccept] at hstep
      cases hstep
      exact .begins clients hloop haccept
    | accepted =>
      simp only [handleNewClientConnection, haccept] at hstep
      cases hstep
      exact .accepts clients hloop haccept
  | receiving before rest =>
    cases rest with
    | nil =>
      simp only [hloop] at hstep
      cases hstep
      exact .ends before hloop
    | cons client rest =>
      simp only [hloop] at hstep
      cases hrecv : outside.recv with
      | failed =>
        simp only [receiveFromNetwork, hrecv] at hstep
        cases hstep
        exact .fails before client rest hloop hrecv
      | _ =>
        cases hreceive : client.receiveFromNetwork deserialize outside.recv with
        | mk client' events =>
          have hcase := @NetworkCase.receives deserialize dumpFloat process outside before client
            client' rest events hloop (by rw [hrecv]; rfl) hreceive
          rw [hrecv] at hreceive hcase
          simp only [receiveFromNetwork, hrecv, hreceive, RecvResult.isFailed,
            Bool.false_eq_true, if_false] at hstep
          cases hstep
          exact hcase
  | dispatching before client rest =>
    simp only [hloop, dispatchMessages] at hstep
    cases hdispatch : process.delivery.dispatchMessages outside.preference with
    | error fault => cases fault
    | ok outcome =>
      obtain ⟨delivery, handed⟩ := outcome
      simp only [hdispatch] at hstep
      cases hsent : callBacks dumpFloat (before ++ client :: rest) outside.signals handed with
      | error fault =>
        simp only [hsent] at hstep
        cases hstep
      | ok sent =>
        simp only [hsent] at hstep
        have hsent := mapM_of_callBacks hsent
        cases hclient : client.hasBeenDisconnected with
        | true =>
          simp only [hclient, if_true] at hstep
          cases hstep
          exact .erases before client rest delivery handed sent hloop hdispatch hsent hclient
        | false =>
          simp only [hclient, Bool.false_eq_true, if_false] at hstep
          cases hstep
          exact .keeps before client rest delivery handed sent hloop hdispatch hsent hclient

/-- What a step of the process does. -/
inductive StepCase (env : Environment)
    (deserialize : Bytes → Except DeserializeFailure PlayerActionMessage)
    (dumpFloat : Rat → Bytes) (process : Process) : Input → Process → List Effect → Prop where
  | network (outside : Outside) (process' : Process) (effects : List Effect)
      (h : NetworkCase deserialize dumpFloat process outside process' effects) :
      StepCase env deserialize dumpFloat process (.network outside) process' effects
  | gameplay (input : Input) (e : System.Event) (hcall : input.call? = some e) (s : System)
      (os : List SamuraiKirby.Effect) (h : process.system.step env e = .ok (s, os)) :
      StepCase env deserialize dumpFloat process input
        { process with messageHub := s.messageHub, gameplay := s.gameplay }
        (.called e :: os.map .gameplay)

theorem step_cases {input : Input}
    (hstep : process.step env deserialize dumpFloat input = .ok (process', effects)) :
    StepCase env deserialize dumpFloat process input process' effects := by
  have hplay : ∀ e, input.call? = some e → process.play env e = .ok (process', effects) →
      StepCase env deserialize dumpFloat process input process' effects := by
    intro e hcall hplay
    unfold play at hplay
    cases hsystem : process.system.step env e with
    | error fault =>
      rw [hsystem] at hplay
      cases hplay
    | ok outcome =>
      rw [hsystem] at hplay
      cases hplay
      exact .gameplay input e hcall _ _ hsystem
  cases input with
  | network outside => exact .network outside process' effects (network_cases hstep)
  | dispatchMessages preference => exact hplay _ rfl hstep
  | tickAllRooms readings draws => exact hplay _ rfl hstep

/-- A step fails in the network thread or in a call of gameplay's loop. -/
theorem step_error_cases {input : Input} {fault : Fault}
    (hstep : process.step env deserialize dumpFloat input = .error fault) :
    (∃ outside, input = .network outside ∧
        process.network deserialize dumpFloat outside = .error fault) ∨
      ∃ e fault', input.call? = some e ∧ process.system.step env e = .error fault' ∧
        fault = .gameplay fault' := by
  have hplay : ∀ e, input.call? = some e → process.play env e = .error fault →
      ∃ e fault', input.call? = some e ∧ process.system.step env e = .error fault' ∧
        fault = .gameplay fault' := by
    intro e hcall hplay
    unfold play at hplay
    cases hsystem : process.system.step env e with
    | ok outcome =>
      rw [hsystem] at hplay
      cases hplay
    | error fault' =>
      rw [hsystem] at hplay
      cases hplay
      exact ⟨e, fault', hcall, hsystem, rfl⟩
  cases input with
  | network outside => exact Or.inl ⟨outside, rfl, hstep⟩
  | dispatchMessages preference => exact Or.inr (hplay _ rfl hstep)
  | tickAllRooms readings draws => exact Or.inr (hplay _ rfl hstep)

end Process
end SamuraiKirby
