/-
The presses of a result came over the network.

What gameplay applies had been pending, and what was pending had been received.  So
each press in a result that the process tells a client was read from bytes that had
come from the client in that slot (`presses_were_received`).
-/
import SamuraiKirby.Gameplay.Provenance
import SamuraiKirby.Network.Parser
import SamuraiKirby.Network.Requests

namespace SamuraiKirby

open Transition

namespace Gameplay

variable {env : Environment} {gameplay gameplay' : Gameplay} {p q : PlayerId}
  {m m' : PlayerActionMessage} {c : Subscriber} {effects : List Effect} {hub : MessageHub}
  {id : RoomId}

/-! ## What is applied was pending -/

theorem applied_notMem_effects (calls : List BrokerCall) :
    .applied id p m ∉ BrokerCall.effects calls := by
  intro h
  obtain ⟨call, -, heffect⟩ := List.mem_filterMap.1 h
  cases call <;> cases heffect

theorem call_applied (hcall : gameplay.call env p m c = .ok (gameplay', effects))
    (ho : .applied id q m' ∈ effects) : q = p ∧ m' = m := by
  have hone : ∀ {id' calls}, .applied id q m' ∈ .applied id' p m :: BrokerCall.effects calls →
      q = p ∧ m' = m := by
    intro id' calls hmem
    rcases List.mem_cons.1 hmem with heq | hmem
    · cases heq
      exact ⟨rfl, rfl⟩
    · exact absurd hmem (applied_notMem_effects calls)
  cases call_moves hcall with
  | idle c hsame => exact absurd ho List.not_mem_nil
  | joins nickname difficulty id' calls => exact hone ho
  | leaves id' calls => exact hone ho
  | handles id' room now calls hroom hmoves =>
    split_ifs at ho
    · exact hone ho
    · exact absurd ho (applied_notMem_effects calls)

theorem dispatchAction_applied {cs : List Subscriber}
    (hrun : gameplay.dispatchAction env p cs m = .ok (gameplay', effects))
    (ho : .applied id q m' ∈ effects) : q = p ∧ m' = m := by
  obtain ⟨g, os₁, os₂, hcalls, hpop, rfl⟩ := seq_eq_ok.1 hrun
  cases hpop
  have hall := run_emits (P := fun _ => True)
    (Q := fun o => ∀ id q m', o = .applied id q m' → q = p ∧ m' = m)
    (fun g c g' os _ _ hcall => ⟨trivial, fun o ho id q m' heq =>
      call_applied hcall (heq ▸ ho)⟩) trivial hcalls
  rcases List.mem_append.1 ho with ho | ho
  · exact hall.2 _ ho id q m' rfl
  · cases List.mem_singleton.1 ho

theorem dispatchPlayer_applied
    (hrun : gameplay.dispatchPlayer env hub p = .ok (gameplay', effects))
    (ho : .applied id q m ∈ effects) : m ∈ hub.playerActionMessagesByPlayerId q := by
  have hall := run_emits (P := fun _ => True)
    (Q := fun o => ∀ id q m, o = .applied id q m → m ∈ hub.playerActionMessagesByPlayerId q)
    (fun g m g' os hm _ haction => ⟨trivial, fun o ho id q m' heq => by
      obtain ⟨rfl, rfl⟩ := dispatchAction_applied haction (heq ▸ ho)
      exact hm⟩) trivial hrun
  exact hall.2 _ ho id q m rfl

theorem dispatchConnectivity_applied {message : PlayerConnectivityMessage}
    (hstep : gameplay.dispatchConnectivity message = .ok (gameplay', effects)) :
    .applied id q m ∉ effects := by
  intro ho
  cases dispatchConnectivity_moves hstep with
  | idle message hseat hrooms => cases List.mem_singleton.1 ho
  | leaves p id calls hseat hmoves =>
    rcases List.mem_append.1 ho with ho | ho
    · exact applied_notMem_effects calls ho
    · cases List.mem_singleton.1 ho

/-- A dispatch applies only what was pending when it began. -/
theorem dispatchMessages_applied {preference : List PlayerId}
    (hrun : gameplay.dispatchMessages env hub preference = .ok (gameplay', effects))
    (ho : .applied id q m ∈ effects) : m ∈ hub.playerActionMessagesByPlayerId q := by
  obtain ⟨g, os₁, os₂, hconn, hplayers, rfl⟩ := seq_eq_ok.1 hrun
  rcases List.mem_append.1 ho with ho | ho
  · have hnone := run_emits (P := fun _ => True) (Q := fun o => ∀ id q m, o ≠ .applied id q m)
      (fun g message g' os _ _ hstep => ⟨trivial, fun o ho id q m heq =>
        dispatchConnectivity_applied hstep (heq ▸ ho)⟩) trivial hconn
    exact absurd rfl (hnone.2 _ ho id q m)
  · have hall := run_emits (P := fun _ => True)
      (Q := fun o => ∀ id q m, o = .applied id q m → m ∈ hub.playerActionMessagesByPlayerId q)
      (fun g p g' os _ _ hplayer => ⟨trivial, fun o ho id q m heq =>
        dispatchPlayer_applied hplayer (heq ▸ ho)⟩) trivial hplayers
    exact hall.2 _ ho id q m rfl

end Gameplay

namespace Process

variable {env : Environment}
  {deserialize : Bytes → Except DeserializeFailure PlayerActionMessage}
  {dumpFloat : Rat → Bytes} {process process' : Process} {effects told : List Effect}
  {input : Input} {inputs : List Input} {p q : PlayerId}

/-! ## What was pending was received -/

/-- What could be read from bytes that a client has sent. -/
def Sent (deserialize : Bytes → Except DeserializeFailure PlayerActionMessage) (told : List Effect)
    (p : PlayerId) (m : PlayerActionMessage) : Prop :=
  ∃ bytes, .received p (.data bytes) ∈ told ∧ deserialize bytes = .ok m

theorem sent_of_mem_requests {m : PlayerActionMessage} (h : m ∈ requests deserialize p told) :
    Sent deserialize told p m := by
  obtain ⟨o, ho, heq⟩ := List.mem_filterMap.1 h
  cases o with
  | received q result =>
    cases result with
    | data bytes =>
      simp only [Effect.request?] at heq
      split_ifs at heq with hq
      subst hq
      cases hbytes : deserialize bytes with
      | error failure =>
        rw [hbytes] at heq
        cases heq
      | ok message =>
        rw [hbytes] at heq
        cases heq
        exact ⟨bytes, ho, hbytes⟩
    | _ => cases heq
  | _ => cases heq

/-- The network thread does nothing in the name of gameplay. -/
theorem NetworkCase.gameplay_notMem {outside : Outside}
    (hcase : NetworkCase deserialize dumpFloat process outside process' effects)
    (o : SamuraiKirby.Effect) : .gameplay o ∉ effects := by
  have hhanded : ∀ {clients : List ConnectedClient} {handed : List (Handed PlayerId)}
      {sent : List Effect}, handed.mapM (callBack dumpFloat clients) = .ok sent → .gameplay o ∉ sent := by
    intro clients handed sent hsent hmem
    obtain ⟨call, bytes, heq⟩ := unseen_of_callBack hsent _ hmem
    cases heq
  intro hmem
  cases hcase with
  | receives before client client' rest events hloop hrecv hreceive =>
    rcases List.mem_cons.1 hmem with heq | hmem
    · cases heq
    · obtain ⟨e, -, heq⟩ := List.mem_map.1 hmem
      cases heq
  | keeps before client rest delivery handed sent hloop hdispatch hsent hclient =>
    rcases List.mem_append.1 hmem with hmem | hmem
    · exact hhanded hsent hmem
    · cases List.mem_singleton.1 hmem
  | erases before client rest delivery handed sent hloop hdispatch hsent hclient =>
    simp only [List.mem_append, List.mem_cons, List.not_mem_nil, or_false, reduceCtorEq] at hmem
    exact hhanded hsent hmem
  | _ => simp at hmem

/-- What was applied had been received. -/
structure Heard (deserialize : Bytes → Except DeserializeFailure PlayerActionMessage)
    (process : Process) (told : List Effect) : Prop where
  receives : Receives deserialize process told
  applied : ∀ pre id p m, pre ++ [.gameplay (.applied id p m)] <+: told →
    m ∈ requests deserialize p pre

theorem step_heard (h : Heard deserialize process told)
    (hstep : process.step env deserialize dumpFloat input = .ok (process', effects)) :
    Heard deserialize process' (told ++ effects) where
  receives := step_receives h.receives hstep
  applied pre id p m hpre := by
    rcases concat_prefix_append hpre with hold | ⟨os₁, rfl, hmem⟩
    · exact h.applied pre id p m hold
    rw [requests_append, h.receives.inbound]
    refine List.mem_append_left _ (List.mem_append_right _ ?_)
    cases step_cases hstep with
    | network outside process' effects hcase => exact absurd hmem (hcase.gameplay_notMem _)
    | gameplay input e hcall s os hsystem =>
      have hos : .applied id p m ∈ os := by simpa using hmem
      have hinv : process.system.gameplay.Inv := h.receives.inv
      cases Gameplay.step_cases hinv hsystem with
      | publishConnectivity message => cases input <;> cases hcall
      | publishAction playerId message => cases input <;> cases hcall
      | dispatch preference gameplay' os hrun => exact Gameplay.dispatchMessages_applied hrun hos
      | tick readings draws gameplay' os hunmoved hpublished =>
        obtain ⟨q, message, heq⟩ := hpublished _ hos
        cases heq

theorem run_heard
    (hrun : run (step env deserialize dumpFloat) new inputs = .ok (process, effects)) :
    Heard deserialize process effects := by
  have hnew : Heard deserialize new [] :=
    ⟨receives_new, fun pre id p m hpre => by simpa using hpre.length_le⟩
  have hend : Heard deserialize process ([] ++ effects) := by
    refine run_told (C := fun _ _ _ => True) (fun s told a rest s' os _ h _ hstep => ?_)
      hnew (along_true _ _) hrun
    exact step_heard h hstep
  exact hend

/-- What gameplay had done at some moment of the process. -/
def gameplayTold (told : List Effect) : List SamuraiKirby.Effect := told.filterMap Effect.gameplay?

/-- An input that has been applied had been sent. -/
theorem sent_of_pressed
    (hrun : run (step env deserialize dumpFloat) new inputs = .ok (process, effects))
    {pre : List Effect} (hpre : pre <+: effects) {id : RoomId} {i : GameplayInput} {t : Int}
    (h : Gameplay.Pressed (gameplayTold pre) id p i t) :
    Sent deserialize pre p (.playerInput i t) := by
  obtain ⟨o, ho, heq⟩ := List.mem_filterMap.1 h
  cases o with
  | gameplay o =>
    cases heq
    obtain ⟨before, after, rfl⟩ := List.append_of_mem ho
    have hbefore := (run_heard hrun).applied before id p (.playerInput i t)
      (List.IsPrefix.trans ⟨after, by simp⟩ hpre)
    obtain ⟨bytes, hbytes, hdeserialize⟩ := sent_of_mem_requests hbefore
    exact ⟨bytes, List.mem_append_left _ hbytes, hdeserialize⟩
  | _ => cases heq

theorem backed_of_run
    (hrun : run (step env deserialize dumpFloat) new inputs = .ok (process, effects))
    {pre : List Effect} {message : GameplayMessage}
    (hpre : pre ++ [.gameplay (.published q message)] <+: effects) :
    ∃ id, message.Backed (Gameplay.Seated (gameplayTold pre) id)
      (fun p i t => Sent deserialize pre p (.playerInput i t)) q := by
  obtain ⟨system, hsystem, -⟩ := run_agrees hrun
  have htold : gameplayTold pre ++ [.published q message] <+: effects.filterMap Effect.gameplay? := by
    have hmap := hpre.filterMap Effect.gameplay?
    rwa [List.filterMap_append] at hmap
  obtain ⟨id, hbacked⟩ := (Gameplay.run_sourced hsystem).published _ q message htold
  refine ⟨id, fun r hr => ⟨(hbacked r hr).1, fun a => ((hbacked r hr).2 a).imp_right ?_⟩⟩
  rintro ⟨i, t, p, hshows, hp, hpressed⟩
  exact ⟨i, t, p, hshows, hp,
    sent_of_pressed hrun ((List.prefix_append pre _).trans hpre) hpressed⟩

/-- Whatever the clients send and whichever thread goes on, each press in a result that a client is
told was read from bytes that had come from a client that was given the slot it is shown for, in a
room where the client that is told was given a slot as well. -/
theorem presses_were_received
    (hrun : run (step env deserialize dumpFloat) new inputs = .ok (process, effects))
    {pre : List Effect} {message : GameplayMessage} {r : GameResultDTO}
    (hr : message.gameResult? = some r)
    (hpre : pre ++ [.gameplay (.published q message)] <+: effects) :
    ∃ id, (∃ b, Gameplay.Seated (gameplayTold pre) id q b) ∧
      ∀ a, (r.ofPlayer a).Backed (Gameplay.Seated (gameplayTold pre) id)
        (fun p i t => Sent deserialize pre p (.playerInput i t)) a := by
  obtain ⟨id, hbacked⟩ := backed_of_run hrun hpre
  exact ⟨id, hbacked r hr⟩

/-- The deserializer over the parser of the library, where no float is finite. -/
def deserializeText : Bytes → Except DeserializeFailure PlayerActionMessage :=
  Serializer.deserializePlayerActionMessage ⟨fun _ => 0, fun _ => 0⟩ (Json.parse fun _ => none)

def readyText : Bytes := ascii "\x7b\"messageType\":1,\"isReady\":true\x7d"

def pressText : Bytes :=
  ascii "\x7b\"messageType\":3,\"inputPressed\":0,\"timeToPress\":300\x7d"

/-- A pass of the network loop over two clients. -/
def passOverTwo (accept : AcceptResult) (recv recv' : RecvResult) : List Input :=
  [.network ⟨accept, .wouldBlock, [], []⟩, .network ⟨.wouldBlock, recv, [], []⟩,
    .network ⟨.wouldBlock, .wouldBlock, [], []⟩, .network ⟨.wouldBlock, recv', [], []⟩,
    .network ⟨.wouldBlock, .wouldBlock, [], []⟩, .network ⟨.wouldBlock, .wouldBlock, [], []⟩]

/-- Two clients join and are ready, and client 0 presses before an input is asked for. -/
def onePresses : List Input :=
  [.network ⟨.accepted, .wouldBlock, [], []⟩, .network ⟨.wouldBlock, .data Serializer.joinText, [], []⟩,
    .network ⟨.wouldBlock, .wouldBlock, [], []⟩, .network ⟨.wouldBlock, .wouldBlock, [], []⟩] ++
  passOverTwo .accepted .wouldBlock (.data Serializer.joinText) ++ [.dispatchMessages []] ++
  passOverTwo .wouldBlock (.data readyText) (.data readyText) ++
  [.dispatchMessages [], .tickAllRooms (fun _ => ⟨0, 0, 0, 0, 0⟩) fun _ => 0] ++
  passOverTwo .wouldBlock (.data pressText) .wouldBlock ++
  [.dispatchMessages [], .tickAllRooms (fun _ => ⟨0, 0, 0, 0, 0⟩) fun _ => 0]

/-- Whom gameplay has told something last, and what. -/
def lastTold? (outcome : Except Fault (Process × List Effect)) :
    Option (PlayerId × GameplayMessage) :=
  match outcome with
  | .ok (_, effects) =>
    match effects.getLast? with
    | some (.gameplay (.published q message)) => some (q, message)
    | _ => none
  | .error _ => none

theorem of_lastTold? {outcome : Except Fault (Process × List Effect)} {message : GameplayMessage}
    (h : lastTold? outcome = some (q, message)) : ∃ process effects,
      outcome = .ok (process, effects) ∧
        effects.dropLast ++ [.gameplay (.published q message)] = effects := by
  unfold lastTold? at h
  split at h
  · next process effects =>
    refine ⟨process, effects, rfl, ?_⟩
    split at h
    · next hlast =>
      cases h
      exact List.dropLast_append_getLast? _ hlast
    · cases h
  · cases h

/-- What player 1 is told last shows what client 0 has sent. -/
theorem presses_were_received_onePresses : ∃ process effects,
    run (step Gameplay.stillEnvironment deserializeText fun _ => []) new onePresses =
      .ok (process, effects) ∧
    ∃ id p, Gameplay.Seated (gameplayTold effects.dropLast) id p .P1 ∧
      Sent deserializeText effects.dropLast p (.playerInput .north 300) := by
  obtain ⟨process, effects, hrun, hlast⟩ := @of_lastTold? 1
    (run (step Gameplay.stillEnvironment deserializeText fun _ => []) new onePresses)
    (.gameOverEarlyInput Gameplay.earlyResult) (by decide +kernel)
  refine ⟨process, effects, hrun, ?_⟩
  obtain ⟨id, -, hshown⟩ := @presses_were_received Gameplay.stillEnvironment deserializeText _ process
    effects onePresses 1 hrun effects.dropLast (.gameOverEarlyInput Gameplay.earlyResult)
    Gameplay.earlyResult rfl ⟨[], by rw [hlast, List.append_nil]⟩
  rcases hshown .P1 with ⟨hnone, -⟩ | ⟨i, t, p, ⟨hi, ht⟩, hp, hsent⟩
  · cases hnone
  · cases hi
    cases ht
    exact ⟨id, p, hp, hsent⟩

end Process
end SamuraiKirby
