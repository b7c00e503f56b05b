/-
The network side of one client.

A call of `receiveFromNetwork` makes one `recv` and treats what it gives as one
message: nothing is kept for the next call.  The server goes on calling until
the client is disconnected.  What the client publishes is listed as events of
the system.
-/
import SamuraiKirby.Network.Serializer
import SamuraiKirby.Gameplay.Disconnection

namespace SamuraiKirby

/-- What a `recv` gives. -/
inductive RecvResult where
  | data (bytes : Bytes)
  | closed
  | wouldBlock
  | failed

structure ConnectedClient where
  id : PlayerId
  hasBeenDisconnected : Bool
deriving DecidableEq

/-- `ClientSocket::send` puts a separator after each message. -/
def ClientSocket.send (message : Bytes) : Bytes := message ++ ascii "\n"

namespace ConnectedClient

/-- The constructor, with what it publishes. -/
def new (id : PlayerId) : ConnectedClient × List System.Event :=
  ({ id := id, hasBeenDisconnected := false },
    [.publishPlayerConnectivityMessage ⟨.connect, id⟩])

/-- The client afterwards, with what it published.  A `recv` that fails also makes the call
throw, which `Server::start` catches and survives. -/
def receiveFromNetwork (deserialize : Bytes → Except DeserializeFailure PlayerActionMessage)
    (client : ConnectedClient) : RecvResult → ConnectedClient × List System.Event
  | .data message =>
    match deserialize message with
    | .ok action => (client, [.publishPlayerActionMessage client.id action])
    | .error _ => (client, [])
  | .closed =>
    ({ client with hasBeenDisconnected := true },
      [.publishPlayerConnectivityMessage ⟨.disconnect, client.id⟩])
  | .wouldBlock => (client, [])
  | .failed => (client, [.publishPlayerConnectivityMessage ⟨.disconnect, client.id⟩])

/-- The server receives from the client until it has been disconnected. -/
def receiveAll (deserialize : Bytes → Except DeserializeFailure PlayerActionMessage)
    (client : ConnectedClient) : List RecvResult → ConnectedClient × List System.Event
  | [] => (client, [])
  | result :: results =>
    let (client', published) := client.receiveFromNetwork deserialize result
    if client'.hasBeenDisconnected then (client', published)
    else
      let (client'', published') := client'.receiveAll deserialize results
      (client'', published ++ published')

variable {deserialize : Bytes → Except DeserializeFailure PlayerActionMessage}
  {client : ConnectedClient}

/-- Received data is published message by message, what cannot be read left out. -/
theorem receiveAll_data (h : client.hasBeenDisconnected = false) (segments : List Bytes) :
    client.receiveAll deserialize (segments.map .data) =
      (client, (segments.filterMap fun s => (deserialize s).toOption).map
        (.publishPlayerActionMessage client.id)) := by
  induction segments with
  | nil => rfl
  | cons s segments ih =>
    rw [List.map_cons, receiveAll]
    cases hs : deserialize s with
    | error failure =>
      simp only [receiveFromNetwork, hs, h, ih, Bool.false_eq_true, if_false, List.nil_append]
      rw [List.filterMap_cons_none (by rw [hs]; rfl)]
    | ok action =>
      simp only [receiveFromNetwork, hs, h, ih, Bool.false_eq_true, if_false]
      rw [List.filterMap_cons_some (b := action) (by rw [hs]; rfl)]
      rfl

end ConnectedClient
end SamuraiKirby
