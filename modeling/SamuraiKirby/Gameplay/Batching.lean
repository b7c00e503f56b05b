/-
When it makes no difference whether messages are dispatched together or one by one.

A dispatch calls the callbacks a player had when the dispatch began.  A room
joined in the middle of a batch hears nothing of the rest of the batch, although
it would hear of a message dispatched later.  The two schedules agree exactly
when these late callbacks would find nothing to do.
-/
import SamuraiKirby.Gameplay.Lifetime
import SamuraiKirby.Gameplay.Queues

namespace SamuraiKirby

/-! ## What can be observed of a run -/

namespace Effect

def isPublished : Effect → Bool
  | .published _ _ => true
  | _ => false

/-- What the effect sends to a client. -/
def sent? (q : PlayerId) : Effect → Option GameplayMessage
  | .published q' message => if q' = q then some message else none
  | _ => none

end Effect

/-- Which rooms took each action, in the order the actions were handled. -/
def log (effects : List Effect) : List Effect := effects.filter fun o => !o.isPublished

/-- The messages sent to a client. -/
def sent (q : PlayerId) (effects : List Effect) : List GameplayMessage :=
  effects.filterMap (Effect.sent? q)

theorem log_append (os os' : List Effect) : log (os ++ os') = log os ++ log os' :=
  List.filter_append _ _

theorem sent_append (q : PlayerId) (os os' : List Effect) :
    sent q (os ++ os') = sent q os ++ sent q os' := List.filterMap_append

theorem MessageHub.replay_gameplayMessages (hub : MessageHub) (effects : List Effect)
    (q : PlayerId) : (hub.replay effects).gameplayMessagesByPlayerId q =
      hub.gameplayMessagesByPlayerId q ++ sent q effects := by
  induction effects generalizing hub with
  | nil => exact (List.append_nil _).symm
  | cons o effects ih =>
    show ((hub.perform o).replay effects).gameplayMessagesByPlayerId q = _
    rw [ih]
    cases o with
    | published q' message =>
      rw [perform, gameplayMessages_pushGameplay]
      by_cases hq : q' = q <;> simp [sent, Effect.sent?, hq]
    | _ => rfl

/-- Both schedules end, with the same rooms and the same messages for every client, and each
action was applied to the same rooms. -/
def SameOutcome (outcome outcome' : Except Fault (System × List Effect)) : Prop :=
  ∃ system effects system' effects', outcome = .ok (system, effects) ∧
    outcome' = .ok (system', effects') ∧
    system.gameplay.roomManager = system'.gameplay.roomManager ∧
    (∀ q, system.messageHub.gameplayMessagesByPlayerId q =
      system'.messageHub.gameplayMessagesByPlayerId q) ∧
    log effects = log effects'

namespace Gameplay

open Transition

variable {env : Environment} {gameplay gameplay' : Gameplay} {p : PlayerId}
  {m : PlayerActionMessage} {callbacksWithContext : List Subscriber} {ids : List RoomId}

/-! ## Callbacks of rooms joined during the batch -/

/-- The rooms find nothing to do in the message, and none of them is gone. -/
def Idle (gameplay : Gameplay) (p : PlayerId) (m : PlayerActionMessage) (ids : List RoomId) :
    Prop :=
  ∀ id ∈ ids, gameplay.live id ∧ (m.isJoinGame = true ∨ gameplay.seats p id = 0)

theorem run_call_of_idle (env : Environment) (h : gameplay.Idle p m ids) :
    run (call env p m) gameplay (ids.map .room) = .ok (gameplay, []) := by
  induction ids with
  | nil => rfl
  | cons id ids ih =>
    obtain ⟨hlive, hidle⟩ := h id (List.mem_cons_self ..)
    obtain ⟨room, hroom⟩ := Option.isSome_iff_exists.1 hlive
    have hhead : gameplay.call env p m (.room id) = .ok (gameplay, []) := by
      apply handleRoomMessage_of_ignored hroom
      rcases hidle with hjoin | hseat
      · cases m with
        | joinGame nickname difficulty => exact Or.inl ⟨nickname, difficulty, rfl⟩
        | _ => cases hjoin
      · exact Or.inr ((seats_of_room? hroom p).symm.trans hseat)
    rw [List.map_cons, run_cons, hhead, seq_ok_nil]
    exact ih fun id' hid' => h id' (List.mem_cons_of_mem _ hid')

/-- A room that has something to do leaves a trace in the log. -/
theorem CallCase.idle_of_log {id : RoomId} {effects : List Effect}
    (h : CallCase p m gameplay (.room id) gameplay' effects) (hlog : log effects = []) :
    gameplay.Idle p m [id] := by
  intro id' hid'
  rw [List.mem_singleton.1 hid']
  cases h with
  | ignored _ hlive hjoin hleave hroom =>
    refine ⟨hlive id rfl, ?_⟩
    rcases hroom id rfl with ⟨nickname, difficulty, rfl⟩ | hseat
    · exact Or.inl rfl
    · exact Or.inr hseat
  | leftRoom id calls gameplay' hm hl => cases hlog
  | handled id calls gameplay' hjoin hleave hlive hseat hu => cases hlog

theorem idle_of_run_call {effects : List Effect} (hinv : gameplay.Inv)
    (hrun : run (call env p m) gameplay (ids.map .room) = .ok (gameplay', effects))
    (hlog : log effects = []) : gameplay.Idle p m ids := by
  induction ids generalizing effects with
  | nil =>
    intro id hid
    cases hid
  | cons id ids ih =>
    obtain ⟨gameplay₁, os₁, os₂, hcall, hrest, rfl⟩ := run_cons_eq_ok.1 hrun
    rw [log_append, List.append_eq_nil_iff] at hlog
    have hhead := (call_cases hinv.wellFormed hcall).idle_of_log hlog.1
    have hsame := run_call_of_idle env hhead
    rw [List.map_singleton, run_singleton, hcall] at hsame
    cases hsame
    intro id' hid'
    rcases List.mem_cons.1 hid' with rfl | hid'
    · exact hhead id' (List.mem_singleton_self _)
    · exact ih hrest hlog.2 id' hid'

/-! ## One message -/

/-- The rooms subscribed to the player since the callbacks were copied. -/
def lateRooms (callbacksWithContext : List Subscriber) (gameplay : Gameplay) (p : PlayerId) :
    List RoomId :=
  ((gameplay.entries p).drop callbacksWithContext.length).filterMap fun c =>
    match c with
    | .gameplay => none
    | .room id => some id

/-- A message is passed to the callbacks as if there were no others. -/
def DispatchesAlike (env : Environment) (p : PlayerId) (callbacksWithContext : List Subscriber)
    (gameplay : Gameplay) (m : PlayerActionMessage) : Prop :=
  callsLiveRooms.Action env p callbacksWithContext gameplay m ∧
    ∀ gameplay' effects,
      run (call env p m) gameplay callbacksWithContext = .ok (gameplay', effects) →
        gameplay'.Idle p m (lateRooms callbacksWithContext gameplay p)

/-- A message dispatched by itself, to all callbacks of that moment. -/
def dispatchAlone (env : Environment) (p : PlayerId) (gameplay : Gameplay)
    (m : PlayerActionMessage) : Except Fault (Gameplay × List Effect) :=
  gameplay.dispatchAction env p (gameplay.entries p) m

/-- The copied callbacks come first, and only rooms have subscribed since. -/
structure Batch (p : PlayerId) (callbacksWithContext : List Subscriber) (gameplay : Gameplay) :
    Prop where
  inv : gameplay.Inv
  entries : gameplay.entries p =
    callbacksWithContext ++ (lateRooms callbacksWithContext gameplay p).map .room

theorem batch_entries (hinv : gameplay.Inv) (p : PlayerId) :
    Batch p (gameplay.entries p) gameplay := by
  refine ⟨hinv, ?_⟩
  rw [lateRooms, List.drop_length]
  exact (List.append_nil _).symm

theorem Batch.calling (h : Batch p callbacksWithContext gameplay) :
    Calling p callbacksWithContext gameplay := by
  refine ⟨h.inv, fun c hc => ?_⟩
  rw [h.entries]
  exact List.mem_append_left _ hc

theorem batch_of_entries (hinv : gameplay.Inv)
    (h : gameplay.entries p = callbacksWithContext ++ ids.map .room) :
    Batch p callbacksWithContext gameplay := by
  refine ⟨hinv, ?_⟩
  have hlate : lateRooms callbacksWithContext gameplay p = ids := by
    rw [lateRooms, h, List.drop_left, List.filterMap_map]
    exact List.filterMap_some
  rw [hlate]
  exact h

theorem Batch.call {c : Subscriber} {effects : List Effect}
    (h : Batch p callbacksWithContext gameplay) (hc : c ∈ callbacksWithContext)
    (hcall : gameplay.call env p m c = .ok (gameplay', effects)) :
    Batch p callbacksWithContext gameplay' := by
  have hinv := (h.calling.call hc hcall).inv
  cases call_cases h.inv.wellFormed hcall with
  | ignored => exact h
  | joined nickname difficulty id calls gameplay' hm hj =>
    have hentries : gameplay'.entries p = callbacksWithContext ++
        (lateRooms callbacksWithContext gameplay p ++ [id]).map .room := by
      rw [hj.entries, if_pos rfl, List.map_append, ← List.append_assoc, ← h.entries]
      rfl
    exact batch_of_entries hinv hentries
  | left id room calls gameplay' hm hfirst hl =>
    exact batch_of_entries hinv ((hl.entries p).trans h.entries)
  | leftRoom id calls gameplay' hm hl =>
    exact batch_of_entries hinv ((hl.entries p).trans h.entries)
  | handled id calls gameplay' hjoin hleave hlive hseat hu =>
    exact batch_of_entries hinv ((hu.entries p).trans h.entries)

theorem Batch.dispatchAction {effects : List Effect} (h : Batch p callbacksWithContext gameplay)
    (hrun : gameplay.dispatchAction env p callbacksWithContext m = .ok (gameplay', effects)) :
    Batch p callbacksWithContext gameplay' := by
  obtain ⟨gameplay₁, os₁, os₂, hcalls, hpop, -⟩ := seq_eq_ok.1 hrun
  cases hpop
  refine run_invariant_along (C := fun _ _ _ => True) (fun g c rest g' os hc hg _ hcall => ?_) h
    (along_true _ _) hcalls
  exact hg.call hc hcall

/-- Handled alone, a message goes to the copied callbacks and then to the rooms that subscribed
since. -/
theorem Batch.dispatchAlone_eq (h : Batch p callbacksWithContext gameplay) :
    gameplay.dispatchAlone env p m =
      seq (run (Gameplay.call env p m) gameplay callbacksWithContext) fun gameplay' =>
        seq (run (Gameplay.call env p m) gameplay'
          ((lateRooms callbacksWithContext gameplay p).map .room)) fun gameplay' =>
            .ok (gameplay', [.actionHandled p m]) := by
  have hentries := h.entries
  rw [dispatchAlone, Gameplay.dispatchAction]
  generalize lateRooms callbacksWithContext gameplay p = ids at hentries ⊢
  rw [hentries, run_append, seq_assoc]

theorem Batch.dispatchAlone_of_alike (h : Batch p callbacksWithContext gameplay)
    (halike : DispatchesAlike env p callbacksWithContext gameplay m) :
    gameplay.dispatchAlone env p m = gameplay.dispatchAction env p callbacksWithContext m := by
  rw [h.dispatchAlone_eq, Gameplay.dispatchAction]
  cases hcalls : run (Gameplay.call env p m) gameplay callbacksWithContext with
  | error fault => rfl
  | ok outcome =>
    obtain ⟨gameplay', os⟩ := outcome
    have hlate := run_call_of_idle env (halike.2 gameplay' os hcalls)
    simp only [seq, hlate, List.nil_append]

/-- When the logs of the two schedules agree, the message was handled alike. -/
theorem Batch.alike_of_log {g g' : Gameplay} {os os' tail tail' : List Effect}
    (h : Batch p callbacksWithContext gameplay)
    (htogether : gameplay.dispatchAction env p callbacksWithContext m = .ok (g, os))
    (halone : gameplay.dispatchAlone env p m = .ok (g', os'))
    (hlog : log (os ++ tail) = log (os' ++ tail')) :
    DispatchesAlike env p callbacksWithContext gameplay m := by
  obtain ⟨gameplay₁, os₁, os₂, hcalls, hpop, rfl⟩ := seq_eq_ok.1 htogether
  cases hpop
  rw [h.dispatchAlone_eq] at halone
  obtain ⟨gameplay₂, os₂, os₃, hcalls', hlate, rfl⟩ := seq_eq_ok.1 halone
  rw [hcalls] at hcalls'
  cases hcalls'
  obtain ⟨gameplay₃, os₄, os₅, hidle, hpop, rfl⟩ := seq_eq_ok.1 hlate
  cases hpop
  have hs := (calling_entries h.inv p).run h.calling.subset hcalls
  have hsub : ∀ c ∈ (lateRooms callbacksWithContext gameplay p).map .room,
      c ∈ gameplay.entries p := by
    intro c hc
    rw [h.entries]
    exact List.mem_append_right _ hc
  refine ⟨(callsLiveRooms_decidesOk.action h.calling).1 ⟨_, hcalls⟩, fun g'' os'' hrun => ?_⟩
  rw [hcalls] at hrun
  cases hrun
  apply idle_of_run_call hs.inv hidle
  -- what the late rooms log stands where the other log has the end of the message
  have hquiet := run_call_isQuiet ⟨hs.inv, fun c hc => hs.subset c (hsub c hc)⟩ hidle
  simp only [log_append, List.append_assoc, List.append_cancel_left_eq] at hlog
  cases hextra : log os₄ with
  | nil => rfl
  | cons o rest =>
    rw [hextra] at hlog
    have hmem : o ∈ log os₄ := by
      rw [hextra]
      exact List.mem_cons_self ..
    have heq : Effect.actionHandled p m = o := (List.cons.inj hlog).1
    have habsurd := hquiet o (List.mem_filter.1 hmem).1
    rw [← heq] at habsurd
    cases habsurd

/-! ## A batch -/

/-- Actions that are handled alike have the same effects in a batch as one by one. -/
theorem Batch.run_of_alike (ms : List PlayerActionMessage)
    (h : Batch p callbacksWithContext gameplay)
    (halike : Along (Gameplay.dispatchAction env p callbacksWithContext)
      (fun g m _ => DispatchesAlike env p callbacksWithContext g m) gameplay ms) :
    ∃ outcome,
      run (Gameplay.dispatchAction env p callbacksWithContext) gameplay ms = .ok outcome ∧
      run (Gameplay.dispatchAlone env p) gameplay ms = .ok outcome := by
  induction ms generalizing gameplay with
  | nil => exact ⟨_, rfl, rfl⟩
  | cons m ms ih =>
    obtain ⟨⟨g₁, os₁⟩, hcalls⟩ := (callsLiveRooms_decidesOk.action h.calling).2 halike.1.1
    have hstep : gameplay.dispatchAction env p callbacksWithContext m =
        .ok (g₁, os₁ ++ [.actionHandled p m]) := seq_eq_ok.2 ⟨g₁, os₁, _, hcalls, rfl, rfl⟩
    obtain ⟨⟨g, os⟩, htogether, halone⟩ :=
      ih (h.dispatchAction hstep) (halike.2 _ _ hstep)
    exact ⟨_, run_cons_eq_ok.2 ⟨g₁, _, os, hstep, htogether, rfl⟩,
      run_cons_eq_ok.2 ⟨g₁, _, os, (h.dispatchAlone_of_alike halike.1).trans hstep, halone, rfl⟩⟩

/-- Actions that leave the same log in a batch as one by one are handled alike. -/
theorem Batch.alike_of_run {ms : List PlayerActionMessage} {g g' : Gameplay}
    {os os' : List Effect} (h : Batch p callbacksWithContext gameplay)
    (htogether : run (Gameplay.dispatchAction env p callbacksWithContext) gameplay ms =
      .ok (g, os))
    (halone : run (Gameplay.dispatchAlone env p) gameplay ms = .ok (g', os'))
    (hlog : log os = log os') :
    Along (Gameplay.dispatchAction env p callbacksWithContext)
      (fun g m _ => DispatchesAlike env p callbacksWithContext g m) gameplay ms := by
  induction ms generalizing gameplay os os' with
  | nil => trivial
  | cons m ms ih =>
    obtain ⟨g₁, os₁, os₂, hstep, hrest, rfl⟩ := run_cons_eq_ok.1 htogether
    obtain ⟨g₁', os₁', os₂', hstep', hrest', rfl⟩ := run_cons_eq_ok.1 halone
    have halike := h.alike_of_log hstep hstep' hlog
    rw [h.dispatchAlone_of_alike halike, hstep] at hstep'
    cases hstep'
    rw [log_append, log_append, List.append_cancel_left_eq] at hlog
    refine ⟨halike, fun g'' os'' hg => ?_⟩
    rw [hstep] at hg
    cases hg
    exact ih (h.dispatchAction hstep) hrest hrest' hlog

/-! ## The dispatches of the two schedules -/

/-- No message waits for gameplay, except of players gameplay has never heard of. -/
def Drained (system : System) : Prop :=
  system.messageHub.playerConnectivityMessages = [] ∧
    ∀ q ∈ system.gameplay.messageBroker.listeners,
      system.messageHub.playerActionMessagesByPlayerId q = []

theorem run_dispatchPlayer_of_idle {hub : MessageHub} {players : List PlayerId}
    (h : ∀ q ∈ players, hub.playerActionMessagesByPlayerId q = []) :
    run (dispatchPlayer env hub) gameplay players = .ok (gameplay, []) := by
  induction players with
  | nil => rfl
  | cons q players ih =>
    have hhead : gameplay.dispatchPlayer env hub q = .ok (gameplay, []) := by
      rw [dispatchPlayer, h q (List.mem_cons_self ..)]
      rfl
    rw [run_cons, hhead, seq_ok_nil]
    exact ih fun q' hq' => h q' (List.mem_cons_of_mem _ hq')

/-- A dispatch that finds only actions of one player. -/
theorem dispatchMessages_of_one_player {hub : MessageHub} {preference : List PlayerId}
    (hconn : hub.playerConnectivityMessages = [])
    (hothers : ∀ q ∈ gameplay.messageBroker.listeners, q ≠ p →
      hub.playerActionMessagesByPlayerId q = [])
    (hp : p ∈ gameplay.messageBroker.listeners) :
    gameplay.dispatchMessages env hub preference =
      run (Gameplay.dispatchAction env p (gameplay.entries p)) gameplay
        (hub.playerActionMessagesByPlayerId p) := by
  have hmem := (gameplay.messageBroker.mem_visitOrder preference p).2 hp
  have hnodup := gameplay.messageBroker.visitOrder_nodup preference
  have hall : ∀ q ∈ gameplay.messageBroker.visitOrder preference, q ≠ p →
      hub.playerActionMessagesByPlayerId q = [] := fun q hq =>
    hothers q ((gameplay.messageBroker.mem_visitOrder preference q).1 hq)
  rw [dispatchMessages, hconn, run_nil, seq_ok_nil]
  obtain ⟨before, after, hsplit⟩ := List.append_of_mem hmem
  rw [hsplit] at hnodup hall ⊢
  obtain ⟨-, hafter, hdisjoint⟩ := List.nodup_append.1 hnodup
  have hbefore : ∀ q ∈ before, hub.playerActionMessagesByPlayerId q = [] := fun q hq =>
    hall q (List.mem_append_left _ hq) (hdisjoint q hq p (List.mem_cons_self ..))
  have hafter' : ∀ q ∈ after, hub.playerActionMessagesByPlayerId q = [] := by
    intro q hq
    refine hall q (List.mem_append_right _ (List.mem_cons_of_mem _ hq)) fun heq => ?_
    exact (List.nodup_cons.1 hafter).1 (heq ▸ hq)
  rw [run_append, run_dispatchPlayer_of_idle hbefore, seq_ok_nil, run_cons]
  refine (congrArg _ (funext fun g => ?_)).trans (seq_pure _)
  exact run_dispatchPlayer_of_idle hafter'

/-! ## The two schedules -/

/-- The network publishes the actions of a player. -/
def publishAll (p : PlayerId) (ms : List PlayerActionMessage) : List System.Event :=
  ms.map (.publishPlayerActionMessage p)

/-- All actions are published, then dispatched. -/
def together (p : PlayerId) (ms : List PlayerActionMessage) (preference : List PlayerId) :
    List System.Event :=
  publishAll p ms ++ [.dispatchMessages preference]

/-- Each action is dispatched before the next one is published. -/
def oneByOne (p : PlayerId) (ms : List (PlayerActionMessage × List PlayerId)) :
    List System.Event :=
  ms.flatMap fun m => [.publishPlayerActionMessage p m.1, .dispatchMessages m.2]

/-- The gameplay an outcome leaves, with what it emitted. -/
def observe (outcome : Except Fault (System × List Effect)) :
    Except Fault (Gameplay × List Effect) :=
  outcome.map fun r => (r.1.gameplay, r.2)

theorem observe_eq_ok {outcome : Except Fault (System × List Effect)} {g : Gameplay}
    {os : List Effect} :
    observe outcome = .ok (g, os) ↔ ∃ hub, outcome = .ok (⟨hub, g⟩, os) := by
  cases outcome with
  | error fault => simp [observe, Except.map]
  | ok r =>
    obtain ⟨⟨hub, g'⟩, os'⟩ := r
    simp [observe, Except.map]

theorem observe_perform (system : System) (outcome : Except Fault (Gameplay × List Effect)) :
    observe (system.perform outcome) = outcome := by
  cases outcome <;> rfl

theorem run_publishAll (env : Environment) (system : System) (p : PlayerId)
    (ms : List PlayerActionMessage) :
    ∃ hub, run (System.step env) system (publishAll p ms) = .ok (⟨hub, system.gameplay⟩, []) ∧
      hub.playerConnectivityMessages = system.messageHub.playerConnectivityMessages ∧
      ∀ q, hub.playerActionMessagesByPlayerId q =
        system.messageHub.playerActionMessagesByPlayerId q ++ if q = p then ms else [] := by
  induction ms generalizing system with
  | nil => exact ⟨system.messageHub, rfl, rfl, fun q => by simp⟩
  | cons m ms ih =>
    obtain ⟨hub, hrun, hconn, hactions⟩ :=
      ih { system with messageHub := system.messageHub.pushAction p m }
    refine ⟨hub, ?_, hconn, fun q => ?_⟩
    · rw [publishAll, List.map_cons, run_cons, System.step, seq_ok_nil]
      exact hrun
    · rw [hactions]
      by_cases hq : q = p
      · subst hq
        simp [MessageHub.pushAction]
      · simp [MessageHub.pushAction, hq]

theorem observe_run_together (env : Environment) {system : System} (hdrained : Drained system)
    (hp : p ∈ system.gameplay.messageBroker.listeners) (ms : List PlayerActionMessage)
    (preference : List PlayerId) :
    observe (run (System.step env) system (together p ms preference)) =
      run (Gameplay.dispatchAction env p (system.gameplay.entries p)) system.gameplay ms := by
  obtain ⟨hub, hrun, hconn, hactions⟩ := run_publishAll env system p ms
  have hpending : hub.playerActionMessagesByPlayerId p = ms := by
    rw [hactions, hdrained.2 p hp, if_pos rfl]
    rfl
  have hdispatch : system.gameplay.dispatchMessages env hub preference =
      run (Gameplay.dispatchAction env p (system.gameplay.entries p)) system.gameplay ms := by
    rw [dispatchMessages_of_one_player (hconn.trans hdrained.1) (fun q hq hne => ?_) hp, hpending]
    rw [hactions, hdrained.2 q hq, if_neg hne]
    rfl
  rw [together, run_append, hrun, seq_ok_nil, run_singleton, System.step, observe_perform]
  exact hdispatch

/-- A dispatch leaves nothing to dispatch. -/
theorem drained_of_dispatch {system system' : System} {preference : List PlayerId}
    {effects : List Effect} (hinv : system.gameplay.Inv)
    (hstep : System.step env system (.dispatchMessages preference) = .ok (system', effects)) :
    Drained system' := by
  cases step_cases hinv hstep with
  | dispatch preference gameplay' effects h =>
    refine ⟨(dispatchMessages_handled hinv h 0).2.1, fun q hq => ?_⟩
    have hactions := (dispatchMessages_handled hinv h q).2.2
    rw [if_pos hq] at hactions
    exact hactions

theorem observe_seq_ok (system : System) (os : List Effect)
    (f : System → Except Fault (System × List Effect)) :
    observe (seq (.ok (system, os)) f) =
      seq (.ok (system.gameplay, os)) fun _ => observe (f system) := by
  cases hf : f system <;> simp [observe, seq, hf, Except.map]

theorem observe_run_oneByOne (env : Environment) {system : System} (hinv : system.gameplay.Inv)
    (hdrained : Drained system) (hp : .gameplay ∈ system.gameplay.entries p)
    (ms : List (PlayerActionMessage × List PlayerId)) :
    observe (run (System.step env) system (oneByOne p ms)) =
      run (Gameplay.dispatchAlone env p) system.gameplay (ms.map Prod.fst) := by
  induction ms generalizing system with
  | nil => rfl
  | cons m ms ih =>
    have hlisten := system.gameplay.messageBroker.mem_listeners_of_mem_callbacksWithContext hp
    have hone := observe_run_together env hdrained hlisten [m.1] m.2
    rw [run_singleton] at hone
    have hsplit : oneByOne p (m :: ms) = together p [m.1] m.2 ++ oneByOne p ms := rfl
    rw [hsplit, run_append, List.map_cons, run_cons, Gameplay.dispatchAlone, ← hone]
    cases hstep : run (System.step env) system (together p [m.1] m.2) with
    | error fault => rfl
    | ok outcome =>
      obtain ⟨system₁, os₁⟩ := outcome
      rw [hstep] at hone
      have halone : system.gameplay.dispatchAlone env p m.1 = .ok (system₁.gameplay, os₁) :=
        hone.symm
      obtain ⟨system₀, os₀, os, hpublish, hdispatch, -⟩ := run_append_eq_ok.1 hstep
      have hinv₀ : system₀.gameplay.Inv := by
        refine run_invariant (fun _ _ _ _ h hs => step_inv h hs) hinv hpublish
      rw [run_singleton] at hdispatch
      have hbatch := (batch_entries hinv p).dispatchAction halone
      have hp₁ : Subscriber.gameplay ∈ system₁.gameplay.entries p := by
        rw [hbatch.entries]
        exact List.mem_append_left _ hp
      rw [observe_seq_ok, ih hbatch.inv (drained_of_dispatch hinv₀ hdispatch) hp₁]
      rfl

/-! ## The messages of the clients -/

/-- A client's queue grows by what was sent to it, in order. -/
theorem run_gameplayMessages {system system' : System} {events : List System.Event}
    {effects : List Effect} (hinv : system.gameplay.Inv)
    (hrun : run (System.step env) system events = .ok (system', effects)) (q : PlayerId) :
    system'.messageHub.gameplayMessagesByPlayerId q =
      system.messageHub.gameplayMessagesByPlayerId q ++ sent q effects := by
  have hend : system'.gameplay.Inv ∧ system'.messageHub.gameplayMessagesByPlayerId q =
      system.messageHub.gameplayMessagesByPlayerId q ++ sent q effects := by
    refine run_history_from_start (C := fun _ _ _ => True) (P := fun _ s ps => s.gameplay.Inv ∧
      s.messageHub.gameplayMessagesByPlayerId q =
        system.messageHub.gameplayMessagesByPlayerId q ++ sent q ps)
      (fun pre s ps e rest s' os h _ hstep => ⟨step_inv h.1 hstep, ?_⟩)
      ⟨hinv, (List.append_nil _).symm⟩ (along_true _ _) hrun
    rw [sent_append, ← List.append_assoc, ← h.2]
    cases step_cases h.1 hstep with
    | publishConnectivity message => exact (List.append_nil _).symm
    | publishAction q' m => exact (List.append_nil _).symm
    | dispatch preference gameplay' effects hd => exact s.messageHub.replay_gameplayMessages _ q
    | tick readings draws gameplay' effects hu hpublished =>
      exact s.messageHub.replay_gameplayMessages _ q
  exact hend.2

/-! ## Players whose connection was handled -/

theorem mem_entries_of_connectivity {c : Subscriber} {message : PlayerConnectivityMessage}
    {effects : List Effect} (h : c ∈ gameplay.entries p)
    (hcase : ConnectivityCase gameplay message gameplay' effects) : c ∈ gameplay'.entries p := by
  cases hcase with
  | connected q gameplay' hc =>
    rw [hc.entries]
    exact List.mem_append_left _ h
  | absent q gameplay' hseat hu => exact (hu.entries p).symm ▸ h
  | left q id room calls gameplay' hfirst hl => exact (hl.entries p).symm ▸ h

theorem mem_entries_of_dispatchPlayer {c : Subscriber} {hub : MessageHub} {q : PlayerId}
    {effects : List Effect} (hinv : gameplay.Inv) (h : c ∈ gameplay.entries p)
    (hrun : gameplay.dispatchPlayer env hub q = .ok (gameplay', effects)) :
    c ∈ gameplay'.entries p := by
  refine dispatchPlayer_preserves (P := fun g => c ∈ g.entries p)
    (fun hinv hmem _ hcall => ?_) hinv h hrun
  have hcase := call_cases hinv.wellFormed hcall
  exact (hcase.entries_prefix p).subset hmem

theorem mem_entries_of_connect {messages : List PlayerConnectivityMessage}
    {effects : List Effect} (hinv : gameplay.Inv)
    (hrun : run dispatchConnectivity gameplay messages = .ok (gameplay', effects))
    (h : ⟨.connect, p⟩ ∈ messages ∨ .gameplay ∈ gameplay.entries p) :
    .gameplay ∈ gameplay'.entries p := by
  induction messages generalizing gameplay effects with
  | nil =>
    cases hrun
    exact h.resolve_left (List.not_mem_nil)
  | cons message messages ih =>
    obtain ⟨gameplay₁, os₁, os₂, hstep, hrest, -⟩ := run_cons_eq_ok.1 hrun
    have hcase := dispatchConnectivity_cases hinv.wellFormed hstep
    apply ih (hinv.connectivity hcase) hrest
    rcases h with hmem | hmem
    · rcases List.mem_cons.1 hmem with rfl | hmem
      · cases hcase with
        | connected q gameplay' hc =>
          apply Or.inr
          rw [hc.entries, if_pos rfl]
          exact List.mem_append_right _ (List.mem_singleton_self _)
      · exact Or.inl hmem
    · exact Or.inr (mem_entries_of_connectivity hmem hcase)

theorem mem_connectivity_of_handled {hub : MessageHub} {preference : List PlayerId}
    {effects : List Effect} (hinv : gameplay.Inv)
    (hrun : gameplay.dispatchMessages env hub preference = .ok (gameplay', effects))
    (h : .connect ∈ handled p effects) :
    (⟨.connect, p⟩ : PlayerConnectivityMessage) ∈ hub.playerConnectivityMessages := by
  rw [(dispatchMessages_handled hinv hrun p).1] at h
  rcases List.mem_append.1 h with h | h
  · obtain ⟨⟨messageType, q⟩, hmem, hevent⟩ := List.mem_filterMap.1 h
    by_cases hq : q = p
    · subst hq
      cases messageType with
      | connect => exact hmem
      | disconnect => simp [PlayerConnectivityMessage.clientEvent?] at hevent
    · simp [PlayerConnectivityMessage.clientEvent?, hq] at hevent
  · by_cases hp : p ∈ gameplay'.messageBroker.listeners
    · rw [if_pos hp] at h
      simp at h
    · rw [if_neg hp] at h
      cases h

/-- Once the connection of a player has been handled, gameplay listens to the player. -/
theorem gameplay_mem_entries {events : List System.Event} {system : System}
    {effects : List Effect} (hrun : run (System.step env) .new events = .ok (system, effects))
    (h : .connect ∈ handled p effects) : .gameplay ∈ system.gameplay.entries p := by
  have hend : system.gameplay.Inv ∧
      (.connect ∈ handled p effects → .gameplay ∈ system.gameplay.entries p) := by
    refine run_history_from_start (C := fun _ _ _ => True) (P := fun _ s ps => s.gameplay.Inv ∧
      (.connect ∈ handled p ps → .gameplay ∈ s.gameplay.entries p))
      (fun pre s ps e rest s' os h _ hstep => ⟨step_inv h.1 hstep, fun hmem => ?_⟩)
      ⟨inv_new, fun h => by cases h⟩ (along_true _ _) hrun
    rw [handled_append, List.mem_append] at hmem
    cases step_cases h.1 hstep with
    | publishConnectivity message => exact h.2 (hmem.resolve_right List.not_mem_nil)
    | publishAction q m => exact h.2 (hmem.resolve_right List.not_mem_nil)
    | dispatch preference gameplay' effects hd =>
      obtain ⟨gameplay₁, os₁, os₂, hconn, hplayers, -⟩ := seq_eq_ok.1 hd
      have hinv₁ := run_dispatchConnectivity_inv h.1 hconn
      have hfirst : .gameplay ∈ gameplay₁.entries p := by
        apply mem_entries_of_connect h.1 hconn
        rcases hmem with hmem | hmem
        · exact Or.inr (h.2 hmem)
        · exact Or.inl (mem_connectivity_of_handled h.1 hd hmem)
      exact run_dispatchPlayer_preserves (P := fun g => .gameplay ∈ g.entries p)
        (fun hinv hmem hplayer => mem_entries_of_dispatchPlayer hinv hmem hplayer) hinv₁ hfirst
        hplayers
    | tick readings draws gameplay' effects hu hpublished =>
      have hnone : .connect ∉ handled p os := by
        intro hconnect
        obtain ⟨o, ho, hevent⟩ := List.mem_filterMap.1 hconnect
        obtain ⟨q, message, rfl⟩ := hpublished o ho
        cases hevent
      exact (hu.entries p).symm ▸ h.2 (hmem.resolve_right hnone)
  exact hend.2 h

/-! ## Together or one by one -/

/-- In a reachable state with nothing to dispatch, the actions of a connected player have the
same outcome together and one by one exactly when each of them is dispatched alike. -/
theorem sameOutcome_iff_along {events : List System.Event} {system : System}
    {effects : List Effect} (hrun : run (System.step env) .new events = .ok (system, effects))
    (hdrained : Drained system) (hconnect : .connect ∈ handled p effects)
    (ms : List (PlayerActionMessage × List PlayerId)) (preference : List PlayerId) :
    SameOutcome (run (System.step env) system (together p (ms.map Prod.fst) preference))
        (run (System.step env) system (oneByOne p ms)) ↔
      Along (Gameplay.dispatchAction env p (system.gameplay.entries p))
        (fun g m _ => DispatchesAlike env p (system.gameplay.entries p) g m) system.gameplay
        (ms.map Prod.fst) := by
  have hinv := run_inv hrun
  have hp := gameplay_mem_entries hrun hconnect
  have hlisten := system.gameplay.messageBroker.mem_listeners_of_mem_callbacksWithContext hp
  have htogether := observe_run_together env hdrained hlisten (ms.map Prod.fst) preference
  have halone := observe_run_oneByOne env hinv hdrained hp ms
  have hbatch := batch_entries hinv p
  constructor
  · rintro ⟨s, os, s', os', hs, hs', -, -, hlog⟩
    rw [hs] at htogether
    rw [hs'] at halone
    exact hbatch.alike_of_run htogether.symm halone.symm hlog
  · intro halike
    obtain ⟨⟨g, os⟩, hs, hs'⟩ := hbatch.run_of_alike _ halike
    obtain ⟨hub, hs⟩ := observe_eq_ok.1 (htogether.trans hs)
    obtain ⟨hub', hs'⟩ := observe_eq_ok.1 (halone.trans hs')
    refine ⟨_, _, _, _, hs, hs', rfl, fun q => ?_, rfl⟩
    rw [run_gameplayMessages hinv hs q, run_gameplayMessages hinv hs' q]

/-- Player 0 has connected. -/
def connected : List System.Event :=
  [.publishPlayerConnectivityMessage ⟨.connect, 0⟩, .dispatchMessages []]

/-- Player 0 has connected and joined. -/
def seated : List System.Event :=
  connected ++ [.publishPlayerActionMessage 0 (.joinGame [] .easy), .dispatchMessages []]

/-- Once the room has subscribed, it takes two actions from one dispatch as from two. -/
theorem sameOutcome_iff_along_seated :
    ∃ system effects, run (System.step stillEnvironment) .new seated = .ok (system, effects) ∧
      SameOutcome
          (run (System.step stillEnvironment) system
            (together 0 [.setReadyState true, .setReadyState false] []))
          (run (System.step stillEnvironment) system
            (oneByOne 0 [(.setReadyState true, []), (.setReadyState false, [])])) ∧
        Along (Gameplay.dispatchAction stillEnvironment 0 (system.gameplay.entries 0))
          (fun g m _ => DispatchesAlike stillEnvironment 0 (system.gameplay.entries 0) g m)
          system.gameplay [.setReadyState true, .setReadyState false] := by
  have hseated : ∃ system effects, run (System.step stillEnvironment) .new seated =
      .ok (system, effects) ∧ Drained system ∧ .connect ∈ handled 0 effects ∧
      SameOutcome
        (run (System.step stillEnvironment) system
          (together 0 [.setReadyState true, .setReadyState false] []))
        (run (System.step stillEnvironment) system
          (oneByOne 0 [(.setReadyState true, []), (.setReadyState false, [])])) :=
    ⟨_, _, rfl, ⟨rfl, by decide⟩, by decide, _, _, _, _, rfl, rfl, rfl, fun _ => rfl, rfl⟩
  obtain ⟨system, effects, hrun, hdrained, hconnect, hsame⟩ := hseated
  have hiff := sameOutcome_iff_along hrun hdrained hconnect
    [(.setReadyState true, []), (.setReadyState false, [])] []
  exact ⟨system, effects, hrun, hsame, hiff.1 hsame⟩

/-- A player that joins and gets ready in one dispatch is not ready. -/
theorem ready_behind_join_is_lost :
    ¬ ∀ (env : Environment) (events : List System.Event) (system : System)
      (effects : List Effect) (p : PlayerId) (ms : List (PlayerActionMessage × List PlayerId))
      (preference : List PlayerId),
      run (System.step env) .new events = .ok (system, effects) → Drained system →
        .connect ∈ handled p effects →
        SameOutcome (run (System.step env) system (together p (ms.map Prod.fst) preference))
          (run (System.step env) system (oneByOne p ms)) := by
  intro h
  have hconnected : ∃ system effects, run (System.step stillEnvironment) .new connected =
      .ok (system, effects) ∧ Drained system ∧ .connect ∈ handled 0 effects ∧
      ∃ s os s' os',
        run (System.step stillEnvironment) system
          (together 0 [.joinGame [] .easy, .setReadyState true] []) = .ok (s, os) ∧
        run (System.step stillEnvironment) system
          (oneByOne 0 [(.joinGame [] .easy, []), (.setReadyState true, [])]) = .ok (s', os') ∧
        (s.messageHub.gameplayMessagesByPlayerId 0).length = 1 ∧
        (s'.messageHub.gameplayMessagesByPlayerId 0).length = 2 :=
    ⟨_, _, rfl, ⟨rfl, by decide⟩, by decide, _, _, _, _, rfl, rfl, rfl, rfl⟩
  obtain ⟨system, effects, hrun, hdrained, hconnect, s, os, s', os', hs, hs', hone, htwo⟩ :=
    hconnected
  obtain ⟨t, ps, t', ps', ht, ht', -, hmessages, -⟩ := h _ _ _ _ _
    [(.joinGame [] .easy, []), (.setReadyState true, [])] [] hrun hdrained hconnect
  rw [List.map_cons, List.map_singleton, hs] at ht
  rw [hs'] at ht'
  cases ht
  cases ht'
  rw [hmessages 0, htwo] at hone
  cases hone

end Gameplay
end SamuraiKirby
