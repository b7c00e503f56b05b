/-
What leaves the game can be serialized.

The only text in a gameplay message is a nickname, and a nickname was once the
string of a JSON value that the parser accepted.  The parser is a parameter that
is known to accept no string but UTF-8, so no client can make the serializer
throw, whatever bytes the server receives.
-/
import SamuraiKirby.Gameplay.Nicknames
import SamuraiKirby.Network.GameplaySerializer
import SamuraiKirby.Network.Server

namespace SamuraiKirby

/-- The string occurs in the value, as a key or as a value. -/
inductive Json.HasString (string : Bytes) : Json → Prop where
  | string : HasString string (.string string)
  | element {elements : List Json} {element : Json} (hmem : element ∈ elements)
      (h : HasString string element) : HasString string (.array elements)
  | key {members : List (Bytes × Json)} {value : Json} (hmem : (string, value) ∈ members) :
      HasString string (.object members)
  | value {members : List (Bytes × Json)} {key : Bytes} {value : Json}
      (hmem : (key, value) ∈ members) (h : HasString string value) :
      HasString string (.object members)

/-- `ConnectedClient::handleGameplayMessage`, with the bytes given to the socket.  Only
`SerializeNotHandledException` is caught. -/
def ConnectedClient.handleGameplayMessage (dumpFloat : Rat → Bytes) (client : ConnectedClient)
    (message : GameplayMessage) : Except SerializeFailure Bytes :=
  if client.hasBeenDisconnected then .ok []
  else
    match Serializer.serializeGameplayMessage dumpFloat message with
    | .ok encoding => .ok (ClientSocket.send encoding)
    | .error .serializeNotHandledException => .ok []
    | .error failure => .error failure

/-! ## Received nicknames -/

variable {cast : FloatCast} {parse : Bytes → Option Json} {dumpFloat : Rat → Bytes}

theorem Json.hasString_of_at {json value : Json} {key : String} {string : Bytes}
    (h : json.at key = .ok value) (hstring : value.HasString string) : json.HasString string := by
  cases json with
  | object members =>
    simp only [Json.at] at h
    split at h
    · next value' hlookup =>
      cases h
      obtain ⟨l₁, l₂, rfl, -⟩ := List.lookup_eq_some_iff.1 hlookup
      exact .value (List.mem_append_right _ (List.mem_cons_self ..)) hstring
    · cases h
  | _ => cases h

/-- A nickname is a string of the value that was parsed. -/
theorem Serializer.hasString_nickname {string nickname : Bytes} {message : PlayerActionMessage}
    (h : deserializePlayerActionMessage cast parse string = .ok message)
    (hnickname : nickname ∈ message.nickname?) :
    ∃ jsonObj, parse string = some jsonObj ∧ jsonObj.HasString nickname := by
  obtain ⟨jsonObj, value, code, hparse, hvalue, hcode, htype⟩ := messageType_of_deserialize h
  refine ⟨jsonObj, hparse, ?_⟩
  cases message with
  | joinGame name difficulty =>
    cases hnickname
    simp only [deserializePlayerActionMessage, hparse, hvalue, hcode, ok_bind] at h
    rw [htype] at h
    simp only [PlayerActionMessage.messageType, deserializeJoinGamePlayerActionMessage] at h
    obtain ⟨name, hname, h⟩ := bind_eq_ok.1 h
    obtain ⟨nickname, hget, h⟩ := bind_eq_ok.1 h
    obtain ⟨_, -, h⟩ := bind_eq_ok.1 h
    obtain ⟨difficulty, -, h⟩ := bind_eq_ok.1 h
    cases h
    refine Json.hasString_of_at hname ?_
    cases name with
    | string s =>
      cases hget
      exact .string
    | _ => cases hget
  | _ => cases hnickname

/-- An action is published only as it was deserialized from bytes. -/
def System.Event.Received (cast : FloatCast) (parse : Bytes → Option Json) : System.Event → Prop
  | .publishPlayerActionMessage _ message =>
    ∃ bytes, Serializer.deserializePlayerActionMessage cast parse bytes = .ok message
  | _ => True

theorem ConnectedClient.received_of_receiveFromNetwork (client : ConnectedClient)
    (result : RecvResult) :
    ∀ e ∈ (client.receiveFromNetwork
      (Serializer.deserializePlayerActionMessage cast parse) result).2, e.Received cast parse := by
  intro e he
  cases result with
  | data bytes =>
    simp only [receiveFromNetwork] at he
    split at he
    · next action haction =>
      rw [List.mem_singleton.1 he]
      exact ⟨bytes, haction⟩
    · exact absurd he List.not_mem_nil
  | wouldBlock => exact absurd he List.not_mem_nil
  | _ =>
    rw [List.mem_singleton.1 he]
    trivial

namespace Server

open Transition

theorem received_of_communicate (recv : PlayerId → RecvResult) (clients : List ConnectedClient) :
    ∀ e ∈ events (communicate (Serializer.deserializePlayerActionMessage cast parse) recv
      clients).effects, e.Received cast parse := by
  induction clients with
  | nil => exact fun e he => absurd he List.not_mem_nil
  | cons client rest ih =>
    have hhead := @ConnectedClient.received_of_receiveFromNetwork cast parse client
      (recv client.id)
    intro e he
    simp only [communicate] at he
    split_ifs at he <;>
      simp only [events_cons_polled, events_cons_dispatched, events_cons_destroyed, events_append,
        events_published, List.cons_append, List.mem_append] at he
    · exact hhead e he
    all_goals
      rcases he with he | he
      · exact hhead e he
      · exact ih e he

/-- What the network thread publishes of its clients has been received. -/
theorem received_of_run {passes : List Pass} {server server' : Server}
    {effects : List ServerEffect}
    (hrun : run (step (Serializer.deserializePlayerActionMessage cast parse)) server passes =
      .ok (server', effects)) : ∀ e ∈ events effects, e.Received cast parse := by
  have hpass : ∀ (server : Server) (pass : Pass) (server' : Server) (os : List ServerEffect),
      server.step (Serializer.deserializePlayerActionMessage cast parse) pass = .ok (server', os) →
        ∀ e ∈ events os, e.Received cast parse := by
    intro server pass server' os hstep
    cases haccept : pass.accept with
    | failed =>
      simp only [step, haccept] at hstep
      cases hstep
      exact fun e he => absurd he List.not_mem_nil
    | wouldBlock =>
      simp only [step, haccept] at hstep
      cases hstep
      exact received_of_communicate _ _
    | accepted =>
      simp only [step, haccept] at hstep
      cases hstep
      intro e he
      rw [events_append] at he
      rcases List.mem_append.1 he with he | he
      · rw [List.mem_singleton.1 he]
        trivial
      · exact received_of_communicate _ _ e he
  have hall := run_emits (P := fun _ => True)
    (Q := fun effect => ∀ e, effect.event? = some e → e.Received cast parse)
    (fun server pass server' os _ _ hstep => ⟨trivial, fun effect heffect e he =>
      hpass server pass server' os hstep e (List.mem_filterMap.2 ⟨effect, heffect, he⟩)⟩)
    trivial hrun
  intro e he
  obtain ⟨effect, heffect, heq⟩ := List.mem_filterMap.1 he
  exact hall.2 effect heffect e heq

end Server

/-! ## What is published -/

namespace Serializer

/-- Nothing that was received makes a published message one that cannot be serialized. -/
theorem published_is_serialized {env : Environment}
    (hparse : ∀ bytes json, parse bytes = some json →
      ∀ string, json.HasString string → Coding.Utf8 string)
    {events : List System.Event} (hevents : ∀ e ∈ events, e.Received cast parse)
    (dumpFloat : Rat → Bytes) :
    ∀ p message, .published p message ∈ System.effects env .new events →
      (∃ messageType, GameplayMessageType.ofCode? message.messageType = some messageType ∧
        message.dynamicClass = castTarget messageType) ∧
      message.Utf8Nicknames ∧
      (∃ encoding, serializeGameplayMessage dumpFloat message = .ok encoding) ∧
      ∀ client : ConnectedClient, ∃ sent,
        client.handleGameplayMessage dumpFloat message = .ok sent := by
  have hactions : ∀ p m, .publishPlayerActionMessage p m ∈ events →
      m.AllNicknames Coding.Utf8 := by
    intro p m hm nickname hnickname
    obtain ⟨bytes, hbytes⟩ := hevents _ hm
    obtain ⟨jsonObj, hjson, hstring⟩ := hasString_nickname hbytes hnickname
    exact hparse bytes jsonObj hjson nickname hstring
  intro p message hpublished
  have hnicknames : message.Utf8Nicknames := System.nicknames_of_effects hactions _ hpublished
  have hencoding := @serializeGameplayMessage_eq dumpFloat message hnicknames
  refine ⟨castTarget_eq message, hnicknames, ⟨_, hencoding⟩, fun client => ?_⟩
  unfold ConnectedClient.handleGameplayMessage
  split_ifs
  · exact ⟨_, rfl⟩
  · rw [hencoding]
    exact ⟨_, rfl⟩

/-- A client that joins an easy game as `Kirby`. -/
def joinText : Bytes :=
  ascii "\x7b\"messageType\":0,\"nickname\":\"Kirby\",\"difficulty\":0\x7d"

def joinObject : Json :=
  .object [(ascii "difficulty", .number 0), (ascii "messageType", .number 0),
    (ascii "nickname", .string (ascii "Kirby"))]

def parseJoin (bytes : Bytes) : Option Json := if bytes = joinText then some joinObject else none

/-- Two clients join the same room. -/
def twoJoin : List System.Event :=
  [.publishPlayerConnectivityMessage ⟨.connect, 0⟩, .publishPlayerConnectivityMessage ⟨.connect, 1⟩,
    .publishPlayerActionMessage 0 (.joinGame (ascii "Kirby") .easy),
    .publishPlayerActionMessage 1 (.joinGame (ascii "Kirby") .easy), .dispatchMessages [0, 1]]

theorem utf8_of_parseJoin {bytes : Bytes} {json : Json} (h : parseJoin bytes = some json)
    {string : Bytes} (hstring : json.HasString string) : Coding.Utf8 string := by
  have hjson : joinObject = json := by
    unfold parseJoin at h
    split_ifs at h
    exact Option.some.inj h
  rw [← hjson] at hstring
  have hmembers : string ∈ [ascii "difficulty", ascii "messageType", ascii "nickname",
      ascii "Kirby"] := by
    cases hstring with
    | key hmem =>
      simp only [List.mem_cons, Prod.mk.injEq, List.not_mem_nil, or_false] at hmem
      rcases hmem with ⟨rfl, -⟩ | ⟨rfl, -⟩ | ⟨rfl, -⟩ <;> simp
    | value hmem h =>
      simp only [List.mem_cons, Prod.mk.injEq, List.not_mem_nil, or_false] at hmem
      rcases hmem with ⟨-, rfl⟩ | ⟨-, rfl⟩ | ⟨-, rfl⟩ <;> cases h
      simp
  have hascii : ∀ s ∈ [ascii "difficulty", ascii "messageType", ascii "nickname", ascii "Kirby"],
      ∀ b ∈ s, b ≤ 0x7F := by simp [ascii]
  exact Coding.Utf8.of_ascii (hascii string hmembers)

theorem received_twoJoin (cast : FloatCast) : ∀ e ∈ twoJoin, e.Received cast parseJoin := by
  have hjoin : deserializePlayerActionMessage cast parseJoin joinText =
      .ok (.joinGame (ascii "Kirby") .easy) := by
    rw [deserializePlayerActionMessage, parseJoin, if_pos rfl]
    rfl
  intro e he
  simp only [twoJoin, List.mem_cons, List.not_mem_nil, or_false] at he
  rcases he with rfl | rfl | rfl | rfl | rfl
  · trivial
  · trivial
  · exact ⟨joinText, hjoin⟩
  · exact ⟨joinText, hjoin⟩
  · trivial

/-- The first client is told who joined. -/
theorem published_is_serialized_twoJoin :
    ∃ encoding, serializeGameplayMessage (fun _ => [])
      (.playerJoinedRoom ⟨ascii "Kirby", .P2, false⟩) = .ok encoding :=
  (@published_is_serialized ⟨fun _ => 0, fun _ => 0⟩ parseJoin Gameplay.stillEnvironment
    (fun _ _ h _ => utf8_of_parseJoin h) twoJoin (received_twoJoin _) (fun _ => []) 0
    (.playerJoinedRoom ⟨ascii "Kirby", .P2, false⟩) (by decide)).2.2.1

end Serializer
end SamuraiKirby
