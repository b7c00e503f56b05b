/-
What the server gives to the socket of a client.

A client that is there is given the lines of all messages that were handed to its
callback.  From the recv that closes its connection on it is given nothing, and it
is destroyed before the network thread goes on to the next client.  So what its peer
can read, wherever the stream breaks off, are the first of the messages gameplay has
sent to it (`lines_of_run`).
-/
import SamuraiKirby.Network.GameplayLines
import SamuraiKirby.Network.Handover

namespace SamuraiKirby

namespace Serializer

/-- Messages as they are sent, one line each. -/
def frames (dumpFloat : Rat → Bytes) (messages : List GameplayMessage) : Bytes :=
  (messages.map (encoding dumpFloat)).flatMap ClientSocket.send

theorem frames_append (dumpFloat : Rat → Bytes) (messages messages' : List GameplayMessage) :
    frames dumpFloat (messages ++ messages') =
      frames dumpFloat messages ++ frames dumpFloat messages' := by
  rw [frames, List.map_append, List.flatMap_append, frames, frames]

end Serializer

namespace Process

open Transition Serializer

variable {env : Environment}
  {deserialize : Bytes → Except DeserializeFailure PlayerActionMessage}
  {dumpFloat : Rat → Bytes} {process process' : Process} {effects told : List Effect}
  {outside : Outside} {input : Input} {inputs : List Input} {p : PlayerId}

/-- The bytes a callback gave to the socket of a client. -/
def Effect.bytes? (p : PlayerId) : Effect → Option Bytes
  | .handed call bytes => if call.callback = p then some bytes else none
  | _ => none

/-- All that was given to the socket of a client. -/
def stream (p : PlayerId) (effects : List Effect) : Bytes :=
  (effects.filterMap (Effect.bytes? p)).flatten

/-- The messages the callback of a client was called with. -/
def handedTo (p : PlayerId) (effects : List Effect) : List GameplayMessage :=
  Delivery.handedTo p (effects.filterMap Effect.handed?)

theorem stream_append (p : PlayerId) (effects effects' : List Effect) :
    stream p (effects ++ effects') = stream p effects ++ stream p effects' := by
  rw [stream, List.filterMap_append, List.flatten_append, stream, stream]

theorem handedTo_append (p : PlayerId) (effects effects' : List Effect) :
    handedTo p (effects ++ effects') = handedTo p effects ++ handedTo p effects' := by
  rw [handedTo, List.filterMap_append, Delivery.handedTo_append, handedTo, handedTo]

/-- No callback was called. -/
theorem silent_of_handed? (h : effects.filterMap Effect.handed? = []) (p : PlayerId) :
    stream p effects = [] ∧ handedTo p effects = [] := by
  refine ⟨?_, by rw [handedTo, h]; rfl⟩
  rw [stream, List.filterMap_eq_nil_iff.2 fun o ho => ?_]
  · rfl
  · have hnone := List.filterMap_eq_nil_iff.1 h o ho
    cases o with
    | handed call bytes => cases hnone
    | _ => rfl

/-- The client is there and has not closed its connection. -/
def Connected (process : Process) (p : PlayerId) : Prop :=
  ∃ client ∈ process.connectedClients, client.id = p ∧ client.hasBeenDisconnected = false

/-! ## A dispatch -/

/-- The calls give a connected client the lines of its messages, and another nothing. -/
theorem stream_of_callBack {clients : List ConnectedClient}
    (hdistinct : (Server.ids clients).Nodup) {handed : List (Handed PlayerId)}
    (hsent : handed.mapM (callBack dumpFloat clients) = .ok effects)
    (hown : ∀ call ∈ handed, call.callback = call.playerId)
    (hnicknames : ∀ call ∈ handed, call.message.Utf8Nicknames) (p : PlayerId) :
    ((∃ client ∈ clients, client.id = p ∧ client.hasBeenDisconnected = false) →
      stream p effects = frames dumpFloat (Delivery.handedTo p handed)) ∧
    ((¬ ∃ client ∈ clients, client.id = p ∧ client.hasBeenDisconnected = false) →
      stream p effects = []) := by
  have hcalls := mapM_eq_ok hsent
  clear hsent
  induction hcalls with
  | nil => exact ⟨fun _ => rfl, fun _ => rfl⟩
  | @cons call o handed effects hcall hcalls ih =>
    obtain ⟨ihOpen, ihClosed⟩ := ih (fun c hc => hown c (List.mem_cons_of_mem _ hc))
      fun c hc => hnicknames c (List.mem_cons_of_mem _ hc)
    obtain ⟨receiver, sent, hfind, hmessage, rfl⟩ := callBack_eq_ok hcall
    have hreceiver := List.mem_of_find?_eq_some hfind
    have hid : receiver.id = call.callback := by simpa using List.find?_some hfind
    have hplayer := hown call (List.mem_cons_self ..)
    have hhead : stream p (.handed call sent :: effects) =
        (if call.callback = p then sent else []) ++ stream p effects := by
      by_cases hp : call.callback = p <;> simp [stream, Effect.bytes?, hp]
    have hrest : Delivery.handedTo p (call :: handed) =
        (if call.callback = p then [call.message] else []) ++ Delivery.handedTo p handed := by
      by_cases hp : call.playerId = p <;> simp [Delivery.handedTo, hplayer, hp]
    rw [hhead, hrest]
    simp only [ConnectedClient.handleGameplayMessage,
      serializeGameplayMessage_eq (hnicknames call (List.mem_cons_self ..))] at hmessage
    constructor
    · intro hopen
      rw [ihOpen hopen]
      by_cases hp : call.callback = p
      · obtain ⟨client, hclient, hclientId, hconnected⟩ := hopen
        have hsame : receiver = client :=
          List.inj_on_of_nodup_map hdistinct hreceiver hclient (by rw [hid, hp, hclientId])
        rw [hsame, hconnected] at hmessage
        cases hmessage
        rw [if_pos hp, if_pos hp, frames_append]
        simp [frames, encoding]
      · rw [if_neg hp, if_neg hp, List.nil_append, List.nil_append]
    · intro hclosed
      rw [ihClosed hclosed]
      by_cases hp : call.callback = p
      · have hgone : receiver.hasBeenDisconnected = true := by
          by_contra hne
          exact hclosed ⟨receiver, hreceiver, by rw [hid, hp], Bool.eq_false_iff.2 hne⟩
        rw [hgone] at hmessage
        cases hmessage
        rw [if_pos hp]
        rfl
      · rw [if_neg hp]
        rfl

/-! ## Streams -/

/-- What was given to the socket of a client are the lines of the first messages it was handed,
and of all of them while it is connected. -/
structure Wired (dumpFloat : Rat → Bytes) (p : PlayerId) (process : Process)
    (told : List Effect) : Prop where
  part : ∃ done, done <+: handedTo p told ∧ stream p told = frames dumpFloat done
  whole : process.Connected p ∨ process.nextClientId ≤ p →
    stream p told = frames dumpFloat (handedTo p told)

theorem wired_new (p : PlayerId) : Wired dumpFloat p new [] :=
  ⟨⟨[], List.nil_prefix, rfl⟩, fun _ => rfl⟩

/-- Nothing is handed over, and nobody is connected who was destroyed or has closed. -/
theorem Wired.silent (h : Wired dumpFloat p process told)
    (hsilent : effects.filterMap Effect.handed? = [])
    (hconnected : process'.Connected p ∨ process'.nextClientId ≤ p →
      process.Connected p ∨ process.nextClientId ≤ p) :
    Wired dumpFloat p process' (told ++ effects) := by
  obtain ⟨hstream, hhanded⟩ := silent_of_handed? hsilent p
  constructor
  · rw [stream_append, handedTo_append, hstream, hhanded, List.append_nil, List.append_nil]
    exact h.part
  · intro hopen
    rw [stream_append, handedTo_append, hstream, hhanded, List.append_nil, List.append_nil]
    exact h.whole (hconnected hopen)

theorem Wired.handed (h : Wired dumpFloat p process told) (hserves : Serves process)
    {delivery : Delivery PlayerId} {preference : List PlayerId}
    {handed : List (Handed PlayerId)} {sent last : List Effect}
    (hdispatch : process.delivery.dispatchMessages preference = .ok (delivery, handed))
    (hsent : handed.mapM (callBack dumpFloat process.connectedClients) = .ok sent)
    (hnicknames : ∀ call ∈ handed, call.message.Utf8Nicknames)
    (hlast : last.filterMap Effect.handed? = [])
    (hconnected : process'.Connected p ∨ process'.nextClientId ≤ p →
      process.Connected p ∨ process.nextClientId ≤ p) :
    Wired dumpFloat p process' (told ++ (sent ++ last)) := by
  obtain ⟨hstream, hhanded⟩ := silent_of_handed? hlast p
  have hown : ∀ call ∈ handed, call.callback = call.playerId := fun call hcall =>
    hserves.own_callback hdispatch hcall
  have hcalls : handedTo p sent = Delivery.handedTo p handed := by
    rw [handedTo, handed?_of_callBack hsent]
  obtain ⟨hopen, hclosed⟩ := stream_of_callBack hserves.distinct hsent hown hnicknames p
  have hwhole : process.Connected p ∨ process.nextClientId ≤ p →
      stream p (told ++ (sent ++ last)) =
        frames dumpFloat (handedTo p (told ++ (sent ++ last))) := by
    intro hor
    rw [stream_append, stream_append, handedTo_append, handedTo_append, hstream, hhanded,
      List.append_nil, List.append_nil, hcalls, frames_append, h.whole hor]
    congr 1
    rcases hor with hor | hfresh
    · exact hopen hor
    · -- nobody calls back a client that does not exist yet
      have hnone : Delivery.handedTo p handed = [] := by
        refine List.filterMap_eq_nil_iff.2 fun call hcall => if_neg fun hp => ?_
        obtain ⟨client, hfind⟩ := hserves.callBack_ne hdispatch hcall
        have hid : client.id = call.callback := by simpa using List.find?_some hfind
        have hlt := hserves.fresh client.id
          (List.mem_map_of_mem (List.mem_of_find?_eq_some hfind))
        rw [hid, hown call hcall, hp] at hlt
        exact absurd hfresh (Int.not_le.2 hlt)
      have hnobody : ¬ ∃ client ∈ process.connectedClients, client.id = p ∧
          client.hasBeenDisconnected = false := by
        rintro ⟨client, hclient, rfl, -⟩
        exact absurd hfresh (Int.not_le.2 (hserves.fresh _ (List.mem_map_of_mem hclient)))
      rw [hclosed hnobody, hnone]
      rfl
  refine ⟨?_, fun hor => hwhole (hconnected hor)⟩
  by_cases hconn : process.Connected p
  · exact ⟨_, List.prefix_rfl, hwhole (Or.inl hconn)⟩
  · obtain ⟨done, hdone, heq⟩ := h.part
    refine ⟨done, ?_, ?_⟩
    · rw [handedTo_append]
      exact hdone.trans (List.prefix_append _ _)
    · rw [stream_append, stream_append, hstream, hclosed hconn, heq, List.append_nil,
        List.append_nil]

theorem NetworkCase.wired (hcase : NetworkCase deserialize dumpFloat process outside process'
    effects) (h : Wired dumpFloat p process told) (hserves : Serves process)
    (hnicknames : ∀ delivery handed,
      process.delivery.dispatchMessages outside.preference = .ok (delivery, handed) →
        ∀ call ∈ handed, call.message.Utf8Nicknames) :
    Wired dumpFloat p process' (told ++ effects) := by
  have hsame : ∀ {process'' : Process}, process''.connectedClients = process.connectedClients →
      process''.nextClientId = process.nextClientId →
      process''.Connected p ∨ process''.nextClientId ≤ p →
        process.Connected p ∨ process.nextClientId ≤ p := by
    intro process'' hclients hnext hor
    rw [Connected, hclients, hnext] at hor
    exact hor
  cases hcase with
  | refuses clients hloop haccept => exact h.silent rfl id
  | begins clients hloop haccept =>
    exact h.silent rfl (hsame (by rw [connectedClients, connectedClients, hloop]; rfl) rfl)
  | accepts clients hloop haccept =>
    refine h.silent rfl ?_
    rintro (⟨client, hclient, rfl, hflag⟩ | hfresh)
    · rcases List.mem_append.1 (show client ∈ clients ++ [_] from hclient) with hold | hnew
      · refine Or.inl ⟨client, ?_, rfl, hflag⟩
        rw [connectedClients, hloop]
        exact hold
      · rw [List.mem_singleton.1 hnew]
        exact Or.inr (Int.le_refl _)
    · exact Or.inr (Int.le_of_lt (Int.lt_of_lt_of_le (Int.lt_succ _) hfresh))
  | ends before hloop =>
    refine h.silent rfl (hsame ?_ rfl)
    rw [connectedClients, connectedClients, hloop, Loop.connectedClients, Loop.connectedClients,
      List.append_nil]
  | fails before client rest hloop hrecv =>
    exact h.silent rfl (hsame (by rw [connectedClients, connectedClients, hloop]; rfl) rfl)
  | receives before client client' rest events hloop hrecv hreceive =>
    refine h.silent (handed?_published events) ?_
    rintro (⟨other, hother, hid, hflag⟩ | hfresh)
    · refine Or.inl ?_
      rw [Connected, connectedClients, hloop]
      rcases List.mem_append.1 (show other ∈ before ++ client' :: rest from hother) with hmem | hmem
      · exact ⟨other, List.mem_append_left _ hmem, hid, hflag⟩
      · rcases List.mem_cons.1 hmem with rfl | hmem
        · have hfst := congrArg Prod.fst hreceive
          rw [Server.receiveFromNetwork_fst] at hfst
          rw [← show _ = other from hfst] at hid hflag
          split_ifs at hid hflag with hclosed
          exact ⟨client, List.mem_append_right _ (List.mem_cons_self ..), hid, hflag⟩
        · exact ⟨other, List.mem_append_right _ (List.mem_cons_of_mem _ hmem), hid, hflag⟩
    · exact Or.inr hfresh
  | keeps before client rest delivery handed sent hloop hdispatch hsent hclient =>
    have hclients : process.connectedClients = before ++ client :: rest := by
      rw [connectedClients, hloop]
      rfl
    refine h.handed hserves hdispatch (hclients ▸ hsent) (hnicknames _ _ hdispatch) rfl
      (hsame ?_ rfl)
    rw [hclients, connectedClients, Loop.connectedClients, List.append_assoc,
      List.singleton_append]
  | erases before client rest delivery handed sent hloop hdispatch hsent hclient =>
    have hclients : process.connectedClients = before ++ client :: rest := by
      rw [connectedClients, hloop]
      rfl
    refine h.handed hserves hdispatch (hclients ▸ hsent) (hnicknames _ _ hdispatch) rfl ?_
    rintro (⟨other, hother, hid, hflag⟩ | hfresh)
    · refine Or.inl ⟨other, ?_, hid, hflag⟩
      rw [hclients]
      rcases List.mem_append.1 (show other ∈ before ++ rest from hother) with hmem | hmem
      · exact List.mem_append_left _ hmem
      · exact List.mem_append_right _ (List.mem_cons_of_mem _ hmem)
    · exact Or.inr hfresh

theorem step_wired (h : Wired dumpFloat p process told) (hserves : Serves process)
    (hnicknames : ∀ preference delivery handed,
      process.delivery.dispatchMessages preference = .ok (delivery, handed) →
        ∀ call ∈ handed, call.message.Utf8Nicknames)
    (hstep : process.step env deserialize dumpFloat input = .ok (process', effects)) :
    Wired dumpFloat p process' (told ++ effects) := by
  cases step_cases hstep with
  | network outside process' effects hcase =>
    exact hcase.wired h hserves fun delivery handed => hnicknames _ delivery handed
  | gameplay input e hcall s os hsystem => exact h.silent (handed?_gameplay os) id

section Received

variable (hdeserialize : ∀ bytes message, deserialize bytes = .ok message →
    message.AllNicknames Coding.Utf8)
include hdeserialize

theorem run_wired
    (hrun : run (step env deserialize dumpFloat) new inputs = .ok (process, effects))
    (p : PlayerId) : Wired dumpFloat p process effects := by
  have hend : run (step env deserialize dumpFloat) new inputs = .ok (process, effects) ∧
      Wired dumpFloat p process effects := by
    refine run_history_from_start (C := fun _ _ _ => True)
      (P := fun pre s told => run (step env deserialize dumpFloat) new pre = .ok (s, told) ∧
        Wired dumpFloat p s told)
      (fun pre s told a rest s' os h _ hstep => ⟨run_snoc h.1 hstep, ?_⟩)
      ⟨rfl, wired_new p⟩ (along_true _ _) hrun
    refine step_wired h.2 (run_serves h.1)
      (fun preference delivery handed hdispatch call hcall => ?_) hstep
    exact nicknames_of_run hdeserialize h.1 _ ((run_conserves h.1).mem_sent hdispatch hcall)
  exact hend.2

end Received

/-! ## What a peer reads -/

/-- The message of a line. -/
noncomputable def readLine (dumpFloat : Rat → Bytes) (line : Bytes) : Option GameplayMessage :=
  (Json.ofText? dumpFloat line).bind Json.gameplayMessage?

theorem readLine_encoding {message : GameplayMessage} (h : message.Utf8Nicknames) :
    readLine dumpFloat (encoding dumpFloat message) = some message := by
  rw [readLine, encoding, Json.ofText?_text dumpFloat (plain_jsonMessage h)]
  exact Json.gameplayMessage?_jsonMessage message

/-- Wherever the stream breaks off, its whole lines are the first of the encodings. -/
theorem lines_of_frames {messages done : List GameplayMessage}
    (h : ∀ message ∈ messages, message.Utf8Nicknames) (hdone : done <+: messages) {seen : Bytes}
    (hseen : seen <+: frames dumpFloat done) :
    (seen.splitOn 0x0A).dropLast <+: messages.map (encoding dumpFloat) := by
  have hlines : (seen.splitOn 0x0A).dropLast <+: done.map (encoding dumpFloat) := by
    refine Coding.dropLast_splitOn (fun line hline => ?_) hseen
    obtain ⟨message, hmessage, rfl⟩ := List.mem_map.1 hline
    exact Json.newline_notMem_text (plain_jsonMessage (h message (hdone.subset hmessage)))
  exact hlines.trans (hdone.map _)

/-- The messages that gameplay has sent to a client have nicknames that are UTF-8, and the lines
that its socket was given are the first of their encodings. -/
theorem encodings_of_run
    (hdeserialize : ∀ bytes message, deserialize bytes = .ok message →
      message.AllNicknames Coding.Utf8)
    (hrun : run (step env deserialize dumpFloat) new inputs = .ok (process, effects))
    (p : PlayerId) :
    (∀ message ∈ sent p (effects.filterMap Effect.gameplay?), message.Utf8Nicknames) ∧
      ∀ seen, seen <+: stream p effects → (seen.splitOn 0x0A).dropLast <+:
        (sent p (effects.filterMap Effect.gameplay?)).map (encoding dumpFloat) := by
  have hnicknames : ∀ message ∈ sent p (effects.filterMap Effect.gameplay?),
      message.Utf8Nicknames := by
    intro message hmessage
    obtain ⟨o, ho, heq⟩ := List.mem_filterMap.1 hmessage
    have hall := nicknames_of_run hdeserialize hrun o ho
    cases o with
    | published q message' =>
      simp only [SamuraiKirby.Effect.sent?] at heq
      split_ifs at heq
      cases heq
      exact hall
    | _ => cases heq
  refine ⟨hnicknames, fun seen hseen => ?_⟩
  obtain ⟨done, hdone, hstream⟩ := (run_wired hdeserialize hrun p).part
  exact lines_of_frames hnicknames (hdone.trans ⟨_, (run_conserves hrun).outbound p⟩)
    (hstream ▸ hseen)

/-- Lines that are encodings are decoded to the messages. -/
theorem map_lines {decode : Bytes → Option GameplayMessage} {messages : List GameplayMessage}
    (hdecode : ∀ message ∈ messages, decode (encoding dumpFloat message) = some message)
    {lines : List Bytes} (hlines : lines <+: messages.map (encoding dumpFloat)) :
    lines.map decode <+: messages.map some := by
  have hread : (messages.map (encoding dumpFloat)).map decode = messages.map some := by
    rw [List.map_map]
    exact List.map_congr_left hdecode
  exact hread ▸ hlines.map decode

variable {cast : FloatCast} {parse : Bytes → Option Json}

/-- At every moment the socket of a client has been given lines of the first messages that
gameplay has sent to it, wherever the peer has stopped reading.  While the client is connected,
what it was given and what waits for it are all of them. -/
theorem lines_of_run
    (hparse : ∀ bytes json, parse bytes = some json →
      ∀ string, json.HasString string → Coding.Utf8 string)
    (hrun : run (step env (deserializePlayerActionMessage cast parse) dumpFloat) new inputs =
      .ok (process, effects)) (p : PlayerId) :
    (∀ seen, seen <+: stream p effects →
      (seen.splitOn 0x0A).dropLast.map (readLine dumpFloat) <+:
        (sent p (effects.filterMap Effect.gameplay?)).map some) ∧
      (process.Connected p → stream p effects ++ frames dumpFloat (process.waiting p) =
        frames dumpFloat (sent p (effects.filterMap Effect.gameplay?))) := by
  have hdeserialize := utf8_of_deserialize cast hparse
  obtain ⟨hnicknames, hlines⟩ := encodings_of_run hdeserialize hrun p
  refine ⟨fun seen hseen => ?_, fun hconnected => ?_⟩
  · exact map_lines (fun message hmessage => readLine_encoding (hnicknames message hmessage))
      (hlines seen hseen)
  · rw [(run_wired hdeserialize hrun p).whole (Or.inl hconnected),
      ← (run_conserves hrun).outbound p, frames_append]
    rfl

/-- Two clients are accepted and join, gameplay seats both, and they are told so. -/
def bothJoin : List Input :=
  [.network ⟨.accepted, .wouldBlock, [], []⟩, .network ⟨.wouldBlock, .data joinText, [], []⟩,
    .network ⟨.wouldBlock, .wouldBlock, [], []⟩, .network ⟨.wouldBlock, .wouldBlock, [], []⟩,
    .network ⟨.accepted, .wouldBlock, [], []⟩, .network ⟨.wouldBlock, .wouldBlock, [], []⟩,
    .network ⟨.wouldBlock, .wouldBlock, [], []⟩, .network ⟨.wouldBlock, .data joinText, [], []⟩,
    .dispatchMessages [0, 1], .network ⟨.wouldBlock, .wouldBlock, [0, 1], []⟩]

/-- What the first of two clients is told. -/
def toldFirst : List GameplayMessage :=
  [.roomJoined .P1 none, .playerJoinedRoom ⟨ascii "Kirby", .P2, false⟩]

/-- The clients at the end of a run, what waits for one of them, what it was sent, and how many
lines its socket was given. -/
def summary (p : PlayerId) (outcome : Process × List Effect) :
    List ConnectedClient × List GameplayMessage × List GameplayMessage × Nat :=
  (outcome.1.connectedClients, outcome.1.waiting p,
    sent p (outcome.2.filterMap Effect.gameplay?),
    ((stream p outcome.2).splitOn 0x0A).dropLast.length)

theorem exists_of_map_toOption {β : Type} {f : Process × List Effect → β}
    {outcome : Except Fault (Process × List Effect)} {b : β}
    (h : outcome.toOption.map f = some b) :
    ∃ process effects, outcome = .ok (process, effects) ∧ f (process, effects) = b := by
  cases outcome with
  | error fault => cases h
  | ok outcome =>
    obtain ⟨process, effects⟩ := outcome
    exact ⟨process, effects, rfl, Option.some.inj h⟩

theorem lines_of_run_bothJoin :
    ∃ process effects,
      run (step Gameplay.stillEnvironment
        (deserializePlayerActionMessage ⟨fun _ => 0, fun _ => 0⟩ parseJoin) fun _ => []) new
          bothJoin = .ok (process, effects) ∧
      ((stream 0 effects).splitOn 0x0A).dropLast.map (readLine fun _ => []) =
        toldFirst.map some ∧
      stream 0 effects = frames (fun _ => []) toldFirst := by
  obtain ⟨process, effects, hrun, hsummary⟩ := @exists_of_map_toOption _ (summary 0)
    (run (step Gameplay.stillEnvironment
      (deserializePlayerActionMessage ⟨fun _ => 0, fun _ => 0⟩ parseJoin) fun _ => []) new bothJoin)
    ([⟨0, false⟩, ⟨1, false⟩], [], toldFirst, 2) (by decide +kernel)
  simp only [summary, Prod.mk.injEq] at hsummary
  obtain ⟨hclients, hwaiting, hsent, htwo⟩ := hsummary
  have hconnected : process.Connected 0 := by
    rw [Connected, hclients]
    exact ⟨_, List.mem_cons_self .., rfl, rfl⟩
  obtain ⟨hread, hgiven⟩ := @lines_of_run Gameplay.stillEnvironment (fun _ => []) process effects
    bothJoin ⟨fun _ => 0, fun _ => 0⟩ parseJoin (fun _ _ h _ => utf8_of_parseJoin h) hrun 0
  have hwhole := hgiven hconnected
  rw [hwaiting, hsent] at hwhole
  have hall := hread _ List.prefix_rfl
  rw [hsent] at hall
  refine ⟨process, effects, hrun, hall.eq_of_length ?_, (List.append_nil _).symm.trans hwhole⟩
  rw [List.length_map, htwo]
  rfl

end Process
end SamuraiKirby
