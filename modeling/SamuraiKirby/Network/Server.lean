/-
The loop of the network thread.

A pass accepts at most one client and then goes through the connected clients: it
receives from a client, dispatches what gameplay has for any of them and drops the
client if it says it has been disconnected.  An exception leaves the loop where it
is thrown and is caught around the whole pass, so the clients behind the one that
threw wait for the next pass.

A client that fails announces its disconnection and throws, but only an orderly
close makes it say that it has been disconnected.
-/
import SamuraiKirby.Network.ConnectedClient
import SamuraiKirby.Transition.Moves
import Mathlib.Data.List.TakeWhile

namespace SamuraiKirby

def RecvResult.isFailed : RecvResult → Bool
  | .failed => true
  | _ => false

def RecvResult.isClosed : RecvResult → Bool
  | .closed => true
  | _ => false

/-- What `acceptConnection` gives.  Setting up the socket of a client may fail as well. -/
inductive AcceptResult where
  | accepted
  | wouldBlock
  | failed
deriving DecidableEq, Repr

inductive ServerEffect where
  /-- `recv` was called for a client. -/
  | polled (playerId : PlayerId)
  | published (event : System.Event)
  /-- `NetworkMessageBroker::dispatchMessages` was called. -/
  | dispatched
  /-- A client was erased and its destructor unsubscribed it. -/
  | destroyed (playerId : PlayerId)

namespace ServerEffect

def polled? : ServerEffect → Option PlayerId
  | .polled playerId => some playerId
  | _ => none

def event? : ServerEffect → Option System.Event
  | .published event => some event
  | _ => none

end ServerEffect

/-- No id is given twice, and nobody stays who says that it has been disconnected. -/
structure Server where
  connectedClients : List ConnectedClient
  nextClientId : PlayerId
  distinct : (connectedClients.map (·.id)).Nodup
  fresh : ∀ client ∈ connectedClients, client.id < nextClientId
  connected : ∀ client ∈ connectedClients, client.hasBeenDisconnected = false

namespace Server

open Transition

/-- The clients polled, in order. -/
def polled (effects : List ServerEffect) : List PlayerId := effects.filterMap ServerEffect.polled?

/-- What the network thread published, in order. -/
def events (effects : List ServerEffect) : List System.Event :=
  effects.filterMap ServerEffect.event?

def new : Server where
  connectedClients := []
  nextClientId := 0
  distinct := List.nodup_nil
  fresh := fun _ h => nomatch h
  connected := fun _ h => nomatch h

/-- What the loop of `handleClientsCommunication` leaves behind, also when it throws. -/
structure Communication where
  connectedClients : List ConnectedClient
  effects : List ServerEffect
  threw : Bool

variable (deserialize : Bytes → Except DeserializeFailure PlayerActionMessage)

/-- The loop from one client on. -/
def communicate (recv : PlayerId → RecvResult) : List ConnectedClient → Communication
  | [] => ⟨[], [], false⟩
  | client :: rest =>
    let (client', events) := client.receiveFromNetwork deserialize (recv client.id)
    let received := .polled client.id :: events.map .published
    -- the exception is thrown before the dispatch
    if (recv client.id).isFailed then ⟨client' :: rest, received, true⟩
    else
      let loop := communicate recv rest
      if client'.hasBeenDisconnected then
        ⟨loop.connectedClients,
          received ++ .dispatched :: .destroyed client.id :: loop.effects, loop.threw⟩
      else
        ⟨client' :: loop.connectedClients, received ++ .dispatched :: loop.effects, loop.threw⟩

/-! ## What the loop does -/

variable {deserialize} {recv : PlayerId → RecvResult} {clients : List ConnectedClient}

@[simp] theorem polled_published (events : List System.Event) :
    polled (events.map .published) = [] := by
  rw [polled, List.filterMap_map]
  exact List.filterMap_eq_nil_iff.2 fun _ _ => rfl

@[simp] theorem events_published (published : List System.Event) :
    events (published.map .published) = published := by
  rw [events, List.filterMap_map]
  exact List.filterMap_some

@[simp] theorem polled_cons_polled (p : PlayerId) (effects : List ServerEffect) :
    polled (.polled p :: effects) = p :: polled effects := rfl

@[simp] theorem polled_cons_dispatched (effects : List ServerEffect) :
    polled (.dispatched :: effects) = polled effects := rfl

@[simp] theorem polled_cons_destroyed (p : PlayerId) (effects : List ServerEffect) :
    polled (.destroyed p :: effects) = polled effects := rfl

@[simp] theorem events_cons_polled (p : PlayerId) (effects : List ServerEffect) :
    events (.polled p :: effects) = events effects := rfl

@[simp] theorem events_cons_dispatched (effects : List ServerEffect) :
    events (.dispatched :: effects) = events effects := rfl

@[simp] theorem events_cons_destroyed (p : PlayerId) (effects : List ServerEffect) :
    events (.destroyed p :: effects) = events effects := rfl

@[simp] theorem polled_append (effects effects' : List ServerEffect) :
    polled (effects ++ effects') = polled effects ++ polled effects' := List.filterMap_append

@[simp] theorem events_append (effects effects' : List ServerEffect) :
    events (effects ++ effects') = events effects ++ events effects' := List.filterMap_append

/-- A client changes only by noticing that its peer has closed. -/
theorem receiveFromNetwork_fst (client : ConnectedClient) (result : RecvResult) :
    (client.receiveFromNetwork deserialize result).1 =
      if result.isClosed then { client with hasBeenDisconnected := true } else client := by
  cases result with
  | data bytes =>
    simp only [ConnectedClient.receiveFromNetwork]
    cases deserialize bytes <;> rfl
  | _ => rfl

theorem communicate_cons_failed {client : ConnectedClient}
    (h : (recv client.id).isFailed = true) (rest : List ConnectedClient) :
    communicate deserialize recv (client :: rest) =
      ⟨client :: rest, .polled client.id ::
        ((client.receiveFromNetwork deserialize (recv client.id)).2.map .published), true⟩ := by
  have hclient : (client.receiveFromNetwork deserialize (recv client.id)).1 = client := by
    rw [receiveFromNetwork_fst]
    cases hr : recv client.id <;> rw [hr] at h <;> first | rfl | cases h
  simp only [communicate, h, if_true, hclient]

theorem communicate_cons_closed {client : ConnectedClient}
    (h : (recv client.id).isClosed = true) (rest : List ConnectedClient) :
    communicate deserialize recv (client :: rest) =
      ⟨(communicate deserialize recv rest).connectedClients, .polled client.id ::
        ((client.receiveFromNetwork deserialize (recv client.id)).2.map .published) ++
          .dispatched :: .destroyed client.id :: (communicate deserialize recv rest).effects,
        (communicate deserialize recv rest).threw⟩ := by
  have hfailed : (recv client.id).isFailed = false := by
    cases hr : recv client.id <;> rw [hr] at h <;> first | rfl | cases h
  have hclient : (client.receiveFromNetwork deserialize (recv client.id)).1.hasBeenDisconnected =
      true := by rw [receiveFromNetwork_fst, if_pos h]
  simp only [communicate, hfailed, hclient, Bool.false_eq_true, if_false, if_true]

theorem communicate_cons_open {client : ConnectedClient}
    (hfailed : (recv client.id).isFailed = false) (hclosed : (recv client.id).isClosed = false)
    (hconnected : client.hasBeenDisconnected = false) (rest : List ConnectedClient) :
    communicate deserialize recv (client :: rest) =
      ⟨client :: (communicate deserialize recv rest).connectedClients, .polled client.id ::
        ((client.receiveFromNetwork deserialize (recv client.id)).2.map .published) ++
          .dispatched :: (communicate deserialize recv rest).effects,
        (communicate deserialize recv rest).threw⟩ := by
  have hclient : (client.receiveFromNetwork deserialize (recv client.id)).1 = client := by
    rw [receiveFromNetwork_fst, hclosed]
    rfl
  simp only [communicate, hfailed, hclient, hconnected, Bool.false_eq_true, if_false]

/-- The clients up to the first that fails. -/
def untilFailure (recv : PlayerId → RecvResult) (clients : List ConnectedClient) :
    List ConnectedClient := clients.takeWhile fun client => !(recv client.id).isFailed

/-- The first client that fails, with those behind it. -/
def fromFailure (recv : PlayerId → RecvResult) (clients : List ConnectedClient) :
    List ConnectedClient := clients.dropWhile fun client => !(recv client.id).isFailed

theorem untilFailure_append_fromFailure (recv : PlayerId → RecvResult)
    (clients : List ConnectedClient) :
    untilFailure recv clients ++ fromFailure recv clients = clients :=
  List.takeWhile_append_dropWhile

/-- The clients before the first failure are polled and those that close leave; the first that
fails is polled and stays, and so do all behind it. -/
theorem communicate_eq (hconnected : ∀ client ∈ clients, client.hasBeenDisconnected = false) :
    (communicate deserialize recv clients).connectedClients =
        (untilFailure recv clients).filter (fun client => !(recv client.id).isClosed) ++
          fromFailure recv clients ∧
      polled (communicate deserialize recv clients).effects =
        (untilFailure recv clients ++ (fromFailure recv clients).take 1).map (·.id) := by
  induction clients with
  | nil => exact ⟨rfl, rfl⟩
  | cons client rest ih =>
    have hrest := ih fun c hc => hconnected c (List.mem_cons_of_mem _ hc)
    unfold untilFailure fromFailure at hrest ⊢
    cases hfailed : (recv client.id).isFailed with
    | true =>
      rw [communicate_cons_failed hfailed]
      simp [hfailed]
    | false =>
      cases hclosed : (recv client.id).isClosed with
      | true =>
        rw [communicate_cons_closed hclosed]
        simp [hfailed, hclosed, hrest.1, hrest.2]
      | false =>
        rw [communicate_cons_open hfailed hclosed (hconnected client (List.mem_cons_self ..))]
        simp [hfailed, hclosed, hrest.1, hrest.2]

theorem communicate_sublist (hconnected : ∀ client ∈ clients, client.hasBeenDisconnected = false) :
    (communicate deserialize recv clients).connectedClients.Sublist clients := by
  rw [(communicate_eq hconnected).1]
  conv => rhs; rw [← untilFailure_append_fromFailure recv clients]
  exact List.filter_sublist.append_right _

/-! ## The server -/

/-- `Server::handleClientsCommunication`, with its effects and whether it threw. -/
def handleClientsCommunication
    (deserialize : Bytes → Except DeserializeFailure PlayerActionMessage)
    (recv : PlayerId → RecvResult) (server : Server) : Server × List ServerEffect × Bool :=
  let loop := communicate deserialize recv server.connectedClients
  ({ connectedClients := loop.connectedClients
     nextClientId := server.nextClientId
     distinct := server.distinct.sublist ((communicate_sublist server.connected).map _)
     fresh := fun client h =>
      server.fresh client ((communicate_sublist server.connected).subset h)
     connected := fun client h =>
      server.connected client ((communicate_sublist server.connected).subset h) },
    loop.effects, loop.threw)

/-- A client has been accepted: it is constructed with the next id and joins the list. -/
def addClient (server : Server) : Server × List ServerEffect :=
  let new := ConnectedClient.new server.nextClientId
  ({ connectedClients := server.connectedClients ++ [new.1]
     nextClientId := server.nextClientId + 1
     distinct := by
      rw [List.map_append]
      refine List.nodup_append.2 ⟨server.distinct, List.nodup_singleton _, ?_⟩
      intro p hp q hq heq
      obtain ⟨client, hclient, rfl⟩ := List.mem_map.1 hp
      have hlt := server.fresh client hclient
      rw [List.mem_singleton.1 hq] at heq
      exact Int.ne_of_lt hlt heq
     fresh := fun client h => by
      rcases List.mem_append.1 h with h | h
      · exact Int.lt_trans (server.fresh client h) (Int.lt_succ _)
      · rw [List.mem_singleton.1 h]
        exact Int.lt_succ _
     connected := fun client h => by
      rcases List.mem_append.1 h with h | h
      · exact server.connected client h
      · rw [List.mem_singleton.1 h]
        rfl }, new.2.map .published)

/-- What one pass of the loop of `Server::start` meets outside. -/
structure Pass where
  accept : AcceptResult
  recv : PlayerId → RecvResult

/-- One pass.  What it throws is caught by `Server::start`; a failure to accept skips the
communication. -/
def step (deserialize : Bytes → Except DeserializeFailure PlayerActionMessage) (server : Server)
    (pass : Pass) : Except Empty (Server × List ServerEffect) :=
  match pass.accept with
  | .failed => .ok (server, [])
  | .wouldBlock =>
    let (server', effects, _) := server.handleClientsCommunication deserialize pass.recv
    .ok (server', effects)
  | .accepted =>
    let (server', announced) := server.addClient
    let (server'', effects, _) := server'.handleClientsCommunication deserialize pass.recv
    .ok (server'', announced ++ effects)

/-! ## Who is polled -/

/-- A call polls all clients in order and leaves those that neither closed nor failed, in order,
exactly if no client fails. -/
theorem polls_all_iff (deserialize : Bytes → Except DeserializeFailure PlayerActionMessage)
    (recv : PlayerId → RecvResult) (server : Server) :
    (polled (server.handleClientsCommunication deserialize recv).2.1 =
        server.connectedClients.map (·.id) ∧
      (server.handleClientsCommunication deserialize recv).1.connectedClients =
        server.connectedClients.filter fun client =>
          !(recv client.id).isClosed && !(recv client.id).isFailed) ↔
      ∀ client ∈ server.connectedClients, (recv client.id).isFailed = false := by
  have hloop := @communicate_eq deserialize recv _ server.connected
  have hsplit := untilFailure_append_fromFailure recv server.connectedClients
  constructor
  · rintro ⟨-, hleft⟩
    -- the first client that fails is left in the list
    have hnone : fromFailure recv server.connectedClients = [] := by
      cases hfrom : fromFailure recv server.connectedClients with
      | nil => rfl
      | cons client rest =>
        have hfailed : (recv client.id).isFailed = true := by
          have hhead := List.head?_dropWhile_not
            (fun client : ConnectedClient => !(recv client.id).isFailed) server.connectedClients
          rw [show server.connectedClients.dropWhile _ = client :: rest from hfrom] at hhead
          simpa using hhead
        have hmem : client ∈ (server.handleClientsCommunication deserialize
            recv).1.connectedClients := by
          show client ∈ (communicate deserialize recv server.connectedClients).connectedClients
          rw [hloop.1, hfrom]
          exact List.mem_append_right _ (List.mem_cons_self ..)
        rw [hleft] at hmem
        have hgone := (List.mem_filter.1 hmem).2
        rw [hfailed] at hgone
        simp at hgone
    rw [hnone, List.append_nil] at hsplit
    intro client hclient
    rw [← hsplit] at hclient
    simpa using List.mem_takeWhile_imp hclient
  · intro hall
    have huntil : untilFailure recv server.connectedClients = server.connectedClients :=
      List.takeWhile_eq_self_iff.2 fun client h => by simpa using hall client h
    have hfrom : fromFailure recv server.connectedClients = [] :=
      List.dropWhile_eq_nil_iff.2 fun client h => by simpa using hall client h
    rw [huntil, hfrom] at hloop
    refine ⟨hloop.2.trans (by simp), hloop.1.trans ?_⟩
    rw [List.append_nil]
    refine List.filter_congr fun client h => ?_
    rw [hall client h]
    simp

/-- Clients 0 and 1 are connected. -/
def twoClients : Server := new.addClient.1.addClient.1

/-- The first client fails, and the second has sent something. -/
def firstFails (p : PlayerId) : RecvResult := if p = 0 then .failed else .data []

/-- Client 1 is not polled and client 0 stays. -/
theorem failure_starves_the_others :
    ¬ ∀ (deserialize : Bytes → Except DeserializeFailure PlayerActionMessage)
        (recv : PlayerId → RecvResult) (server : Server),
      polled (server.handleClientsCommunication deserialize recv).2.1 =
          server.connectedClients.map (·.id) ∧
        (server.handleClientsCommunication deserialize recv).1.connectedClients =
          server.connectedClients.filter fun client =>
            !(recv client.id).isClosed && !(recv client.id).isFailed := by
  intro h
  have hpolled : [0] = ([0, 1] : List PlayerId) :=
    (h (fun _ => .ok .notifyCanPlay) firstFails twoClients).1
  exact absurd hpolled (by decide)

/-! ## What one client is seen to do -/

/-- The ids of the clients. -/
def ids (clients : List ConnectedClient) : List PlayerId := clients.map (·.id)

/-- The client whose failure ends the loop. -/
def firstFailing (recv : PlayerId → RecvResult) (clients : List ConnectedClient) :
    Option PlayerId := (clients.find? fun client => (recv client.id).isFailed).map (·.id)

theorem firstFailing_cons_of_failed {client : ConnectedClient}
    (h : (recv client.id).isFailed = true) (rest : List ConnectedClient) :
    firstFailing recv (client :: rest) = some client.id := by
  simp [firstFailing, h]

theorem firstFailing_cons {client : ConnectedClient} (h : (recv client.id).isFailed = false)
    (rest : List ConnectedClient) :
    firstFailing recv (client :: rest) = firstFailing recv rest := by
  simp [firstFailing, h]

/-- What the loop does to one client, with what it publishes about it. -/
inductive Passage (recv : PlayerId → RecvResult) (p : PlayerId)
    (before after : List ConnectedClient) : List ClientEvent → Prop where
  | unnoticed (hstays : p ∈ ids after ↔ p ∈ ids before)
      (hfirst : firstFailing recv before ≠ some p) : Passage recv p before after []
  | acted (message : PlayerActionMessage) (hbefore : p ∈ ids before) (hafter : p ∈ ids after)
      (hfirst : firstFailing recv before ≠ some p) :
      Passage recv p before after [.action message]
  | closed (hbefore : p ∈ ids before) (hafter : p ∉ ids after)
      (hfirst : firstFailing recv before ≠ some p) : Passage recv p before after [.disconnect]
  | failed (hbefore : p ∈ ids before) (hafter : p ∈ ids after)
      (hfirst : firstFailing recv before = some p) : Passage recv p before after [.disconnect]

variable {p : PlayerId}

/-- A client publishes about itself only. -/
theorem published_receiveFromNetwork_of_ne {client : ConnectedClient} (h : client.id ≠ p)
    (result : RecvResult) :
    published p (client.receiveFromNetwork deserialize result).2 = [] := by
  cases result with
  | data bytes =>
    simp only [ConnectedClient.receiveFromNetwork]
    cases deserialize bytes <;>
      simp [published, System.Event.clientEvent?, h]
  | _ =>
    simp [ConnectedClient.receiveFromNetwork, published, System.Event.clientEvent?,
      PlayerConnectivityMessage.clientEvent?, h]

theorem published_disconnect (p : PlayerId) :
    published p [.publishPlayerConnectivityMessage ⟨.disconnect, p⟩] = [.disconnect] := by
  simp [published, System.Event.clientEvent?, PlayerConnectivityMessage.clientEvent?]

theorem published_receiveFromNetwork_open (client : ConnectedClient) {result : RecvResult}
    (hfailed : result.isFailed = false) (hclosed : result.isClosed = false) :
    published client.id (client.receiveFromNetwork deserialize result).2 = [] ∨
      ∃ message, published client.id (client.receiveFromNetwork deserialize result).2 =
        [.action message] := by
  cases result with
  | data bytes =>
    simp only [ConnectedClient.receiveFromNetwork]
    cases deserialize bytes with
    | error failure => exact Or.inl rfl
    | ok message =>
      refine Or.inr ⟨message, ?_⟩
      simp [published, System.Event.clientEvent?]
  | closed => cases hclosed
  | wouldBlock => exact Or.inl rfl
  | failed => cases hfailed

theorem Passage.eq_nil {before after : List ConnectedClient} {history : List ClientEvent}
    (h : Passage recv p before after history) (hp : p ∉ ids before) :
    history = [] ∧ p ∉ ids after ∧ firstFailing recv before ≠ some p := by
  cases h with
  | unnoticed hstays hfirst => exact ⟨rfl, mt hstays.1 hp, hfirst⟩
  | acted message hbefore => exact absurd hbefore hp
  | closed hbefore => exact absurd hbefore hp
  | failed hbefore => exact absurd hbefore hp

/-- A client in front of the list, kept or dropped, makes no difference to another. -/
theorem Passage.cons_of_ne {client : ConnectedClient} {before after after' : List ConnectedClient}
    {history : List ClientEvent} (h : Passage recv p before after history) (hne : client.id ≠ p)
    (hfailed : (recv client.id).isFailed = false)
    (hafter : p ∈ ids after' ↔ p ∈ ids after) :
    Passage recv p (client :: before) after' history := by
  have hfirst := firstFailing_cons hfailed before
  have hmem : p ∈ ids (client :: before) ↔ p ∈ ids before := by
    simp [ids, Ne.symm hne]
  cases h with
  | unnoticed hstays hf =>
    exact .unnoticed (hafter.trans (hstays.trans hmem.symm)) (hfirst ▸ hf)
  | acted message hb ha hf => exact .acted message (hmem.2 hb) (hafter.2 ha) (hfirst ▸ hf)
  | closed hb ha hf => exact .closed (hmem.2 hb) (mt hafter.1 ha) (hfirst ▸ hf)
  | failed hb ha hf => exact .failed (hmem.2 hb) (hafter.2 ha) (hfirst ▸ hf)

theorem communicate_passage (hdistinct : (ids clients).Nodup)
    (hconnected : ∀ client ∈ clients, client.hasBeenDisconnected = false) (p : PlayerId) :
    Passage recv p clients (communicate deserialize recv clients).connectedClients
      (published p (events (communicate deserialize recv clients).effects)) := by
  induction clients with
  | nil => exact .unnoticed Iff.rfl (by simp [firstFailing])
  | cons client rest ih =>
    obtain ⟨hclient, hrestDistinct⟩ := List.nodup_cons.1 hdistinct
    have hrest := ih hrestDistinct fun c hc => hconnected c (List.mem_cons_of_mem _ hc)
    cases hfailed : (recv client.id).isFailed with
    | true =>
      have hfirst := firstFailing_cons_of_failed hfailed rest
      rw [communicate_cons_failed hfailed, events_cons_polled, events_published]
      by_cases hp : client.id = p
      · subst hp
        have hself : client.id ∈ ids (client :: rest) := List.mem_cons_self ..
        have hresult : recv client.id = .failed := by
          cases hr : recv client.id <;> rw [hr] at hfailed <;> first | rfl | cases hfailed
        rw [hresult]
        have hpassage := Passage.failed hself hself hfirst
        rwa [← published_disconnect client.id] at hpassage
      · rw [published_receiveFromNetwork_of_ne hp]
        refine .unnoticed Iff.rfl ?_
        rw [hfirst]
        simpa using hp
    | false =>
      have hfirst := firstFailing_cons hfailed rest
      cases hclosed : (recv client.id).isClosed with
      | true =>
        rw [communicate_cons_closed hclosed]
        simp only [List.cons_append, events_cons_polled, events_append, events_published,
          events_cons_dispatched, events_cons_destroyed, published_append]
        by_cases hp : client.id = p
        · subst hp
          obtain ⟨hnil, hafter, hnot⟩ := hrest.eq_nil hclient
          have hresult : recv client.id = .closed := by
            cases hr : recv client.id <;> rw [hr] at hclosed <;> first | rfl | cases hclosed
          rw [hnil, List.append_nil, hresult]
          have hpassage := Passage.closed (List.mem_cons_self ..) hafter (hfirst ▸ hnot)
          rwa [← published_disconnect client.id] at hpassage
        · rw [published_receiveFromNetwork_of_ne hp, List.nil_append]
          exact hrest.cons_of_ne hp hfailed Iff.rfl
      | false =>
        rw [communicate_cons_open hfailed hclosed (hconnected client (List.mem_cons_self ..))]
        simp only [List.cons_append, events_cons_polled, events_append, events_published,
          events_cons_dispatched, published_append]
        by_cases hp : client.id = p
        · subst hp
          obtain ⟨hnil, -, hnot⟩ := hrest.eq_nil hclient
          have hself : ∀ rest, client.id ∈ ids (client :: rest) := fun _ => List.mem_cons_self ..
          rw [hnil, List.append_nil]
          rcases @published_receiveFromNetwork_open deserialize client _ hfailed hclosed with
            hnone | ⟨message, hone⟩
          · rw [hnone]
            exact .unnoticed ⟨fun _ => hself _, fun _ => hself _⟩ (hfirst ▸ hnot)
          · rw [hone]
            exact .acted message (hself _) (hself _) (hfirst ▸ hnot)
        · rw [published_receiveFromNetwork_of_ne hp, List.nil_append]
          refine hrest.cons_of_ne hp hfailed ?_
          simp [ids, Ne.symm hp]

/-! ## The life of a client -/

/-- What the network thread has said about a client so far, and whether it still has it: the
client connects once, acts, and disconnects once, and then it is gone. -/
structure Orderly (p : PlayerId) (history : List ClientEvent) (server : Server) : Prop where
  life : ∃ ms, history <+: clientLife ms
  announced : p ∈ ids server.connectedClients → .connect ∈ history
  removed : .disconnect ∈ history → p ∉ ids server.connectedClients

/-- The monitor remembers what has been published about the client. -/
def orderlyLife (p : PlayerId) : Monitor (List ClientEvent) (Move Server Pass ServerEffect) where
  next history move := history ++ published p (events move.emitted)
  ok history move := Orderly p (history ++ published p (events move.emitted)) move.after

/-- The client whose failure ends a pass. -/
def failsFirst (server : Server) (pass : Pass) : Option PlayerId :=
  match pass.accept with
  | .failed => none
  | .wouldBlock => firstFailing pass.recv server.connectedClients
  | .accepted => firstFailing pass.recv server.addClient.1.connectedClients

/-- Where a client is in its life. -/
inductive Stage (p : PlayerId) (server : Server) : List ClientEvent → Prop where
  | unborn (habsent : p ∉ ids server.connectedClients) : Stage p server []
  | living (ms : List PlayerActionMessage) (hpresent : p ∈ ids server.connectedClients) :
      Stage p server (.connect :: ms.map .action)
  | gone (ms : List PlayerActionMessage) (habsent : p ∉ ids server.connectedClients)
      (hpast : p < server.nextClientId) : Stage p server (clientLife ms)

variable {server : Server} {history : List ClientEvent}

theorem Stage.orderly (h : Stage p server history) : Orderly p history server := by
  cases h with
  | unborn habsent => exact ⟨⟨[], List.nil_prefix⟩, fun h => absurd h habsent, fun h => by cases h⟩
  | living ms hpresent =>
    exact ⟨⟨ms, List.prefix_append _ _⟩, fun _ => List.mem_cons_self .., fun h => by simp at h⟩
  | gone ms habsent => exact ⟨⟨ms, List.prefix_refl _⟩, fun h => absurd h habsent, fun _ => habsent⟩

theorem lt_of_mem_ids (h : p ∈ ids server.connectedClients) : p < server.nextClientId := by
  obtain ⟨client, hclient, rfl⟩ := List.mem_map.1 h
  exact server.fresh client hclient

/-- The loop takes a client to its next stage, unless the client fails first: then it has said
that it disconnects and stays. -/
theorem Stage.passage (h : Stage p server history) {server' : Server} {seen : List ClientEvent}
    (hpassage : Passage recv p server.connectedClients server'.connectedClients seen)
    (hnext : server'.nextClientId = server.nextClientId) :
    (Orderly p (history ++ seen) server' ↔ firstFailing recv server.connectedClients ≠ some p) ∧
      (firstFailing recv server.connectedClients ≠ some p →
        Stage p server' (history ++ seen)) := by
  have hkept : firstFailing recv server.connectedClients ≠ some p →
      Stage p server' (history ++ seen) →
      (Orderly p (history ++ seen) server' ↔ firstFailing recv server.connectedClients ≠ some p) ∧
        (firstFailing recv server.connectedClients ≠ some p →
          Stage p server' (history ++ seen)) :=
    fun hfirst hstage => ⟨iff_of_true hstage.orderly hfirst, fun _ => hstage⟩
  cases hpassage with
  | unnoticed hstays hfirst =>
    refine hkept hfirst ?_
    rw [List.append_nil]
    cases h with
    | unborn habsent => exact .unborn (mt hstays.1 habsent)
    | living ms hpresent => exact .living ms (hstays.2 hpresent)
    | gone ms habsent hpast => exact .gone ms (mt hstays.1 habsent) (hnext ▸ hpast)
  | acted message hbefore hafter hfirst =>
    refine hkept hfirst ?_
    cases h with
    | unborn habsent => exact absurd hbefore habsent
    | living ms hpresent =>
      have hstage := Stage.living (ms ++ [message]) hafter
      rwa [List.map_append] at hstage
    | gone ms habsent => exact absurd hbefore habsent
  | closed hbefore hafter hfirst =>
    refine hkept hfirst ?_
    cases h with
    | unborn habsent => exact absurd hbefore habsent
    | living ms hpresent => exact .gone ms hafter (hnext ▸ lt_of_mem_ids hbefore)
    | gone ms habsent => exact absurd hbefore habsent
  | failed hbefore hafter hfirst =>
    refine ⟨iff_of_false (fun horderly => ?_) (fun h => h hfirst), fun h => absurd hfirst h⟩
    exact horderly.removed (List.mem_append_right _ (List.mem_singleton_self _)) hafter

/-- A new client is announced and joins; to the others nothing happens. -/
theorem Stage.addClient (h : Stage p server history) :
    Stage p server.addClient.1 (history ++ published p (events server.addClient.2)) := by
  have hids : ids server.addClient.1.connectedClients =
      ids server.connectedClients ++ [server.nextClientId] := by
    simp [ids, Server.addClient, ConnectedClient.new]
  have hevents : events server.addClient.2 =
      [.publishPlayerConnectivityMessage ⟨.connect, server.nextClientId⟩] := rfl
  have hnext : server.nextClientId < server.addClient.1.nextClientId := Int.lt_succ _
  rw [hevents]
  by_cases hp : server.nextClientId = p
  · subst hp
    have hseen : published server.nextClientId
        [.publishPlayerConnectivityMessage ⟨.connect, server.nextClientId⟩] = [.connect] := by
      simp [published, System.Event.clientEvent?, PlayerConnectivityMessage.clientEvent?]
    rw [hseen]
    cases h with
    | unborn habsent => exact .living [] (by simp [hids])
    | living ms hpresent => exact absurd (lt_of_mem_ids hpresent) (Int.lt_irrefl _)
    | gone ms habsent hpast => exact absurd hpast (Int.lt_irrefl _)
  · have hseen : published p
        [.publishPlayerConnectivityMessage ⟨.connect, server.nextClientId⟩] = [] := by
      simp [published, System.Event.clientEvent?, PlayerConnectivityMessage.clientEvent?, hp]
    have hmem : p ∈ ids server.addClient.1.connectedClients ↔ p ∈ ids server.connectedClients := by
      simp [hids, Ne.symm hp]
    rw [hseen, List.append_nil]
    cases h with
    | unborn habsent => exact .unborn (mt hmem.1 habsent)
    | living ms hpresent => exact .living ms (hmem.2 hpresent)
    | gone ms habsent hpast => exact .gone ms (mt hmem.1 habsent) (Int.lt_trans hpast hnext)

theorem Stage.step (h : Stage p server history) {pass : Pass} {server' : Server}
    {effects : List ServerEffect}
    (hstep : Server.step deserialize server pass = .ok (server', effects)) :
    (Orderly p (history ++ published p (events effects)) server' ↔
      server.failsFirst pass ≠ some p) ∧
      (server.failsFirst pass ≠ some p →
        Stage p server' (history ++ published p (events effects))) := by
  cases haccept : pass.accept with
  | failed =>
    simp only [Server.step, haccept, Except.ok.injEq, Prod.mk.injEq] at hstep
    obtain ⟨rfl, rfl⟩ := hstep
    have hnone : server.failsFirst pass ≠ some p := by simp [failsFirst, haccept]
    rw [show history ++ published p (events []) = history from List.append_nil _]
    exact ⟨iff_of_true h.orderly hnone, fun _ => h⟩
  | wouldBlock =>
    simp only [Server.step, haccept, Except.ok.injEq, Prod.mk.injEq] at hstep
    obtain ⟨rfl, rfl⟩ := hstep
    have hfirst : server.failsFirst pass = firstFailing pass.recv server.connectedClients := by
      simp [failsFirst, haccept]
    rw [hfirst]
    exact h.passage (communicate_passage server.distinct server.connected p) rfl
  | accepted =>
    simp only [Server.step, haccept, Except.ok.injEq, Prod.mk.injEq] at hstep
    obtain ⟨rfl, rfl⟩ := hstep
    have hfirst : server.failsFirst pass =
        firstFailing pass.recv server.addClient.1.connectedClients := by
      simp [failsFirst, haccept]
    rw [hfirst, events_append, published_append, ← List.append_assoc]
    exact h.addClient.passage
      (communicate_passage server.addClient.1.distinct server.addClient.1.connected p) rfl

/-- A client leads an orderly life, seen after every pass, exactly if in no pass it is the first
to fail. -/
theorem orderly_iff (deserialize : Bytes → Except DeserializeFailure PlayerActionMessage)
    (p : PlayerId) (passes : List Pass) :
    (orderlyLife p).Accepts [] (moves (step deserialize) new passes) ↔
      Along (step deserialize) (fun server pass _ => server.failsFirst pass ≠ some p) new
        passes := by
  refine moves_accepts_iff_along (R := fun server history _ => Stage p server history)
    (fun server history pass rest _ => ?_)
    (fun server history pass rest server' effects hstage hstep => hstage.step hstep)
    (.unborn (by simp [ids, new]))
  unfold Server.step
  cases pass.accept <;> exact ⟨_, _, rfl⟩

/-- A client is accepted, its connection is reset, and then it is closed. -/
def brokenConnection : List Pass :=
  [⟨.accepted, fun _ => .failed⟩, ⟨.wouldBlock, fun _ => .closed⟩]

/-- It disconnects twice. -/
theorem failed_client_disconnects_again :
    ¬ ∀ (deserialize : Bytes → Except DeserializeFailure PlayerActionMessage) (p : PlayerId)
        (passes : List Pass),
      (orderlyLife p).Accepts [] (moves (step deserialize) new passes) := by
  intro h
  obtain ⟨ms, hms⟩ := (h (fun _ => .ok .notifyCanPlay) 0 brokenConnection).2.1.life
  have htwice : [.connect, .disconnect] ++ [.disconnect] <+: clientLife ms := hms
  have hnothing := eq_nil_of_disconnect htwice (by decide)
  cases hnothing

end Server
end SamuraiKirby
