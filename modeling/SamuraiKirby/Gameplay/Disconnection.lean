/-
When a disconnection is the last thing gameplay does for a client.

Connectivity messages overtake actions: a dispatch drains the first queue before
it looks at the others, and the unsubscription that should stop the actions of a
gone client stops none.  The events of a client are handled in order, and a gone
client keeps no seat, as long as a disconnection finds no action of the client
pending and the client in at most one slot.
-/
import SamuraiKirby.Gameplay.Queues
import SamuraiKirby.Gameplay.Roster

namespace SamuraiKirby

/-! ## The network side -/

/-- What an event of the system publishes about a client. -/
def System.Event.clientEvent? (p : PlayerId) : System.Event → Option ClientEvent
  | .publishPlayerConnectivityMessage message => message.clientEvent? p
  | .publishPlayerActionMessage q message => if q = p then some (.action message) else none
  | _ => none

/-- The events of a client in the order the network published them. -/
def published (p : PlayerId) (events : List System.Event) : List ClientEvent :=
  events.filterMap (System.Event.clientEvent? p)

theorem published_append (p : PlayerId) (events events' : List System.Event) :
    published p (events ++ events') = published p events ++ published p events' :=
  List.filterMap_append

/-- The life of a client: it connects, acts and disconnects. -/
def clientLife (ms : List PlayerActionMessage) : List ClientEvent :=
  .connect :: ms.map .action ++ [.disconnect]

/-- Each client has published an initial part of its life. -/
def NetworkOrder (events : List System.Event) : Prop :=
  ∀ p, ∃ ms, published p events <+: clientLife ms

theorem NetworkOrder.of_append {events events' : List System.Event}
    (h : NetworkOrder (events ++ events')) : NetworkOrder events := by
  intro p
  obtain ⟨ms, hms⟩ := h p
  refine ⟨ms, List.IsPrefix.trans ?_ hms⟩
  rw [published_append]
  exact List.prefix_append _ _

/-- Nothing comes before the connection. -/
theorem eq_nil_of_connect {l : List ClientEvent} {ms : List PlayerActionMessage}
    (h : l ++ [.connect] <+: clientLife ms) : l = [] := by
  cases l with
  | nil => rfl
  | cons x l =>
    have htail := (List.cons_prefix_cons.1 h).2
    have hmem := htail.subset
      (List.mem_append_right l (List.mem_singleton_self ClientEvent.connect))
    simp at hmem

/-- Nothing comes after the disconnection. -/
theorem eq_nil_of_disconnect {l l' : List ClientEvent} {ms : List PlayerActionMessage}
    (h : l ++ l' <+: clientLife ms) (hmem : .disconnect ∈ l) : l' = [] := by
  cases l' with
  | nil => rfl
  | cons x l' =>
    have hlen := h.length_le
    have hl : l <+: .connect :: ms.map .action := by
      refine List.prefix_of_prefix_length_le ((List.prefix_append _ _).trans h)
        (List.prefix_append _ [ClientEvent.disconnect]) ?_
      simp only [clientLife, List.length_append, List.length_cons, List.length_nil] at hlen ⊢
      omega
    have hmem' := hl.subset hmem
    simp at hmem'

namespace Gameplay

open Transition

variable {env : Environment} {gameplay gameplay' : Gameplay} {p q : PlayerId}
  {m : PlayerActionMessage} {c : Subscriber} {effects : List Effect} {hub : MessageHub}

/-! ## The guard -/

/-- The player occupies at most one slot over all rooms. -/
def AtMostOneSeat (gameplay : Gameplay) (p : PlayerId) : Prop :=
  ∀ id id', 0 < gameplay.seats p id → 0 < gameplay.seats p id' →
    id = id' ∧ gameplay.seats p id = 1

theorem atMostOneSeat_iff : gameplay.AtMostOneSeat p ↔
    ∀ r ∈ gameplay.roomManager.rooms, ∀ r' ∈ gameplay.roomManager.rooms,
      0 < gameplay.seats p r.1 → 0 < gameplay.seats p r'.1 →
        r.1 = r'.1 ∧ gameplay.seats p r.1 = 1 := by
  constructor
  · exact fun h r _ r' _ => h r.1 r'.1
  · intro h id id' hid hid'
    obtain ⟨room, hroom⟩ := Option.isSome_iff_exists.1 (live_of_seats hid)
    obtain ⟨room', hroom'⟩ := Option.isSome_iff_exists.1 (live_of_seats hid')
    exact h _ (RoomManager.room?_eq_some_iff.1 hroom) _ (RoomManager.room?_eq_some_iff.1 hroom')
      hid hid'

instance : Decidable (gameplay.AtMostOneSeat p) := decidable_of_iff _ atMostOneSeat_iff.symm

/-- Whoever disconnects has no action pending and at most one seat. -/
def disconnectsLast : Guard where
  connectivity hub gameplay message := message.messageType = .disconnect →
    hub.playerActionMessagesByPlayerId message.playerId = [] ∧
      gameplay.AtMostOneSeat message.playerId
  action _ _ _ _ := True
  callback _ _ _ _ _ := True

instance (hub : MessageHub) (g : Gameplay) (message : PlayerConnectivityMessage) :
    Decidable (disconnectsLast.connectivity hub g message) :=
  inferInstanceAs (Decidable (message.messageType = .disconnect →
    hub.playerActionMessagesByPlayerId message.playerId = [] ∧ g.AtMostOneSeat message.playerId))

instance (g : Gameplay) (p : PlayerId) (m : PlayerActionMessage) (cs : List Subscriber) :
    Decidable (disconnectsLast.action g p m cs) := inferInstanceAs (Decidable True)

instance (g : Gameplay) (p : PlayerId) (m : PlayerActionMessage) (c : Subscriber)
    (rest : List Subscriber) : Decidable (disconnectsLast.callback g p m c rest) :=
  inferInstanceAs (Decidable True)

/-! ## A client without a seat -/

theorem Left.unseated {erased : Prop} {id : RoomId} (hl : Left erased p id gameplay gameplay')
    (hone : gameplay.AtMostOneSeat p) : gameplay'.Unseated p := by
  intro id'
  have hseats := hl.seats p id'
  by_cases hid : id' = id
  · rw [if_pos ⟨rfl, hid⟩, hid, (hone id id hl.seat_pos hl.seat_pos).2] at hseats
    rw [hid]
    omega
  · rw [if_neg fun h => hid h.2, Nat.add_zero] at hseats
    rw [hseats]
    by_cases hpos : 0 < gameplay.seats p id'
    · exact absurd (hone id' id hpos hl.seat_pos).1 hid
    · omega

theorem Unseated.of_le (h : gameplay.Unseated p)
    (hle : ∀ id, gameplay'.seats p id ≤ gameplay.seats p id) : gameplay'.Unseated p :=
  fun id => Nat.le_zero.1 (h id ▸ hle id)

theorem Left.seats_le {erased : Prop} {id : RoomId} (hl : Left erased q id gameplay gameplay')
    (p : PlayerId) (id' : RoomId) : gameplay'.seats p id' ≤ gameplay.seats p id' := by
  have hseats := hl.seats p id'
  omega

theorem Unseated.connectivity (h : gameplay.Unseated p) {message : PlayerConnectivityMessage}
    (hcase : ConnectivityCase gameplay message gameplay' effects) : gameplay'.Unseated p := by
  cases hcase with
  | connected q gameplay' hc => exact h.of_le fun id => Nat.le_of_eq (hc.seats p id)
  | absent q gameplay' hseat hu => exact h.of_le fun id => Nat.le_of_eq (hu.seats p id)
  | left q id room calls gameplay' hfirst hl => exact h.of_le fun id' => hl.seats_le p id'

/-- The callbacks of one player seat nobody else. -/
theorem Unseated.call (h : gameplay.Unseated p) (hne : p ≠ q)
    (hcase : CallCase q m gameplay c gameplay' effects) : gameplay'.Unseated p := by
  cases hcase with
  | ignored => exact h
  | joined nickname difficulty id calls gameplay' hm hj =>
    apply h.of_le
    intro id'
    rw [hj.seats, if_neg fun heq => hne heq.1]
    exact Nat.le_refl _
  | left id room calls gameplay' hm hfirst hl => exact h.of_le fun id' => hl.seats_le p id'
  | leftRoom id calls gameplay' hm hl => exact h.of_le fun id' => hl.seats_le p id'
  | handled id calls gameplay' hjoin hleave hlive hseat hu =>
    exact h.of_le fun id' => Nat.le_of_eq (hu.seats p id')

theorem Unseated.dispatchPlayer (h : gameplay.Unseated p) (hinv : gameplay.Inv)
    (hpending : hub.playerActionMessagesByPlayerId p = [])
    (hrun : gameplay.dispatchPlayer env hub q = .ok (gameplay', effects)) :
    gameplay'.Unseated p := by
  by_cases hq : p = q
  · subst hq
    rw [Gameplay.dispatchPlayer, hpending] at hrun
    cases hrun
    exact h
  · refine dispatchPlayer_preserves (P := fun g => g.Unseated p)
      (fun hinv hun _ hcall => ?_) hinv h hrun
    exact hun.call hq (call_cases hinv.wellFormed hcall)

theorem Unseated.run_dispatchPlayer (h : gameplay.Unseated p) (hinv : gameplay.Inv)
    (hpending : hub.playerActionMessagesByPlayerId p = []) {players : List PlayerId}
    (hrun : run (Gameplay.dispatchPlayer env hub) gameplay players = .ok (gameplay', effects)) :
    gameplay'.Unseated p := by
  refine run_dispatchPlayer_preserves (P := fun g => g.Unseated p)
    (fun hinv hun hplayer => ?_) hinv h hrun
  exact hun.dispatchPlayer hinv hpending hplayer

theorem Unseated.run_dispatchConnectivity (h : gameplay.Unseated p) (hinv : gameplay.Inv)
    {messages : List PlayerConnectivityMessage}
    (hrun : run dispatchConnectivity gameplay messages = .ok (gameplay', effects)) :
    gameplay'.Unseated p := by
  refine run_invariant_under (P := fun g => g.Unseated p) (C := fun _ _ _ => True)
    (fun g message g' os _ hinv hstep => dispatchConnectivity_inv hinv hstep)
    (fun g message rest g' os _ hinv hun _ hstep => ?_) hinv h
    (along_true _ _) hrun
  exact hun.connectivity (dispatchConnectivity_cases hinv.wellFormed hstep)

/-- A disconnection that meets the guard leaves the client without a seat. -/
theorem unseated_of_disconnect {messages : List PlayerConnectivityMessage} (hinv : gameplay.Inv)
    (hC : Along dispatchConnectivity
      (fun gameplay message _ => disconnectsLast.connectivity hub gameplay message) gameplay
      messages)
    (hrun : run dispatchConnectivity gameplay messages = .ok (gameplay', effects))
    (hmem : ⟨.disconnect, p⟩ ∈ messages) :
    hub.playerActionMessagesByPlayerId p = [] ∧ gameplay'.Unseated p := by
  induction messages generalizing gameplay effects with
  | nil => cases hmem
  | cons message messages ih =>
    obtain ⟨gameplay₁, os₁, os₂, hstep, hrest, -⟩ := run_cons_eq_ok.1 hrun
    have hinv₁ := dispatchConnectivity_inv hinv hstep
    rcases List.mem_cons.1 hmem with rfl | hmem
    · obtain ⟨hpending, hone⟩ := hC.1 rfl
      refine ⟨hpending, ?_⟩
      have hunseated : gameplay₁.Unseated p := by
        cases dispatchConnectivity_cases hinv.wellFormed hstep with
        | absent p gameplay' hseat hu =>
          exact Unseated.of_le hseat fun id => Nat.le_of_eq (hu.seats p id)
        | left p id room calls gameplay' hfirst hl => exact hl.unseated hone
      exact hunseated.run_dispatchConnectivity hinv₁ hrest
    · exact ih hinv₁ (hC.2 _ _ hstep) hrest hmem

/-- After a dispatch that handles the disconnection of a client, or that finds a client
without a seat and without pending actions, the client has no seat. -/
theorem dispatchMessages_unseated {preference : List PlayerId} (hinv : gameplay.Inv)
    (hC : disconnectsLast.Dispatch env hub preference gameplay)
    (hrun : gameplay.dispatchMessages env hub preference = .ok (gameplay', effects))
    (h : (⟨.disconnect, p⟩ : PlayerConnectivityMessage) ∈ hub.playerConnectivityMessages ∨
      hub.playerActionMessagesByPlayerId p = [] ∧ gameplay.Unseated p) :
    hub.playerActionMessagesByPlayerId p = [] ∧ gameplay'.Unseated p := by
  obtain ⟨gameplay₁, os₁, os₂, hconn, hplayers, -⟩ := seq_eq_ok.1 hrun
  have hinv₁ := run_dispatchConnectivity_inv hinv hconn
  have hfirst : hub.playerActionMessagesByPlayerId p = [] ∧ gameplay₁.Unseated p := by
    rcases h with hmem | ⟨hpending, hunseated⟩
    · exact unseated_of_disconnect hinv hC.1 hconn hmem
    · exact ⟨hpending, hunseated.run_dispatchConnectivity hinv hconn⟩
  exact ⟨hfirst.1, hfirst.2.run_dispatchPlayer hinv₁ hfirst.1 hplayers⟩

/-! ## What is pending -/

/-- The pending connectivity messages of a client. -/
def pendingConnectivity (hub : MessageHub) (p : PlayerId) : List ClientEvent :=
  hub.playerConnectivityMessages.filterMap (PlayerConnectivityMessage.clientEvent? p)

/-- The pending actions of a client. -/
def pendingActions (hub : MessageHub) (p : PlayerId) : List ClientEvent :=
  (hub.playerActionMessagesByPlayerId p).map .action

/-- What has been handled and what is pending make up what has been published: connections
first, then actions, then disconnections. -/
structure Tracks (p : PlayerId) (sent done : List ClientEvent) (system : System) : Prop where
  order : pendingConnectivity system.messageHub p =
    (pendingConnectivity system.messageHub p).filter (· = .connect) ++
      (pendingConnectivity system.messageHub p).filter (· = .disconnect)
  total : done ++ (pendingConnectivity system.messageHub p).filter (· = .connect) ++
    pendingActions system.messageHub p ++
      (pendingConnectivity system.messageHub p).filter (· = .disconnect) = sent
  gone : .disconnect ∈ done → system.gameplay.Unseated p

theorem tracks_new (p : PlayerId) : Tracks p [] [] .new :=
  ⟨rfl, rfl, fun h => by cases h⟩

theorem Tracks.congr {sent done : List ClientEvent} {system system' : System}
    (h : Tracks p sent done system)
    (hconn : pendingConnectivity system'.messageHub p = pendingConnectivity system.messageHub p)
    (hactions : pendingActions system'.messageHub p = pendingActions system.messageHub p)
    (hgone : system.gameplay.Unseated p → system'.gameplay.Unseated p) :
    Tracks p sent done system' where
  order := by
    rw [hconn]
    exact h.order
  total := by
    rw [hconn, hactions]
    exact h.total
  gone hd := hgone (h.gone hd)

theorem Tracks.handled_first {sent done : List ClientEvent} {system : System}
    (h : Tracks p sent done system) : done <+: sent := by
  rw [← h.total, List.append_assoc, List.append_assoc]
  exact List.prefix_append _ _

theorem mem_pendingConnectivity (hub : MessageHub) (p : PlayerId)
    (h : ClientEvent.disconnect ∈ pendingConnectivity hub p) :
    (⟨.disconnect, p⟩ : PlayerConnectivityMessage) ∈ hub.playerConnectivityMessages := by
  obtain ⟨⟨messageType, q⟩, hmem, hevent⟩ := List.mem_filterMap.1 h
  by_cases hq : q = p
  · subst hq
    cases messageType with
    | connect => simp [PlayerConnectivityMessage.clientEvent?] at hevent
    | disconnect => exact hmem
  · simp [PlayerConnectivityMessage.clientEvent?, hq] at hevent

theorem pendingConnectivity_push (hub : MessageHub) (message : PlayerConnectivityMessage)
    (p : PlayerId) : pendingConnectivity (hub.pushConnectivity message) p =
      pendingConnectivity hub p ++ (message.clientEvent? p).toList := by
  unfold pendingConnectivity MessageHub.pushConnectivity
  rw [List.filterMap_append]
  cases hevent : message.clientEvent? p <;> simp [hevent]

theorem Tracks.publishConnectivity {sent done : List ClientEvent} {system : System}
    (h : Tracks p sent done system) (message : PlayerConnectivityMessage)
    {ms : List PlayerActionMessage}
    (horder : sent ++ (message.clientEvent? p).toList <+: clientLife ms) :
    Tracks p (sent ++ (message.clientEvent? p).toList) done
      { system with messageHub := system.messageHub.pushConnectivity message } := by
  cases hevent : message.clientEvent? p with
  | none =>
    simp only [Option.toList_none, List.append_nil]
    refine h.congr ?_ rfl id
    rw [pendingConnectivity_push, hevent]
    exact List.append_nil _
  | some e =>
    rw [hevent] at horder
    have hpush : pendingConnectivity (system.messageHub.pushConnectivity message) p =
        pendingConnectivity system.messageHub p ++ [e] := by
      rw [pendingConnectivity_push, hevent]
      rfl
    have htotal := h.total
    cases e with
    | connect =>
      -- a client connects before it does anything else
      have hnil := eq_nil_of_connect horder
      rw [hnil] at htotal
      simp only [List.append_eq_nil_iff] at htotal
      obtain ⟨⟨⟨hdone, hconnect⟩, hactions⟩, hdisconnect⟩ := htotal
      have hpending : pendingConnectivity system.messageHub p = [] := by
        rw [h.order, hconnect, hdisconnect]
        rfl
      refine ⟨?_, ?_, h.gone⟩
      · rw [hpush, hpending]
        rfl
      · rw [hpush, hpending, hdone, hnil]
        show _ ++ pendingActions system.messageHub p ++ _ = _
        rw [hactions]
        rfl
    | disconnect =>
      refine ⟨?_, ?_, h.gone⟩
      · rw [hpush, List.filter_append, List.filter_append]
        simp only [decide_false, decide_true, List.filter_cons_of_pos, List.filter_cons_of_neg,
          List.filter_nil, List.append_nil, reduceCtorEq, Bool.false_eq_true, not_false_eq_true]
        rw [← List.append_assoc, ← h.order]
      · rw [hpush, List.filter_append, List.filter_append]
        simp only [decide_false, decide_true, List.filter_cons_of_pos, List.filter_cons_of_neg,
          List.filter_nil, List.append_nil, reduceCtorEq, Bool.false_eq_true, not_false_eq_true]
        rw [← List.append_assoc]
        exact congrArg (· ++ [ClientEvent.disconnect]) htotal
    | action m =>
      obtain ⟨messageType, q⟩ := message
      cases messageType <;> simp [PlayerConnectivityMessage.clientEvent?] at hevent

theorem Tracks.publishAction {sent done : List ClientEvent} {system : System}
    (h : Tracks p sent done system) (m : PlayerActionMessage) {ms : List PlayerActionMessage}
    (horder : sent ++ [.action m] <+: clientLife ms) :
    Tracks p (sent ++ [.action m]) done
      { system with messageHub := system.messageHub.pushAction p m } := by
  have htotal := h.total
  -- a client that acts has not disconnected
  have hno : (pendingConnectivity system.messageHub p).filter (· = .disconnect) = [] := by
    apply List.filter_eq_nil_iff.2
    intro e he hdisconnect
    have hmem : ClientEvent.disconnect ∈ sent := by
      rw [← htotal]
      refine List.mem_append_right _ (List.mem_filter.2 ⟨?_, by simp⟩)
      exact of_decide_eq_true hdisconnect ▸ he
    cases eq_nil_of_disconnect horder hmem
  have hpush : pendingActions (system.messageHub.pushAction p m) p =
      pendingActions system.messageHub p ++ [.action m] := by
    simp [pendingActions, MessageHub.pushAction]
  refine ⟨h.order, ?_, h.gone⟩
  show done ++ (pendingConnectivity system.messageHub p).filter (· = .connect) ++
    pendingActions (system.messageHub.pushAction p m) p ++
      (pendingConnectivity system.messageHub p).filter (· = .disconnect) = _
  rw [hno, List.append_nil] at htotal ⊢
  rw [hpush, ← List.append_assoc, htotal]

/-- A dispatch that meets the guard moves what it handles from pending to done. -/
theorem Tracks.dispatch {sent done : List ClientEvent} {system : System}
    {preference : List PlayerId} {ms : List PlayerActionMessage} (h : Tracks p sent done system)
    (horder : sent <+: clientLife ms) (hinv : system.gameplay.Inv)
    (hC : disconnectsLast.Dispatch env system.messageHub preference system.gameplay)
    (hrun : system.gameplay.dispatchMessages env system.messageHub preference =
      .ok (gameplay', effects)) :
    Tracks p sent (done ++ handled p effects)
      ⟨system.messageHub.replay effects, gameplay'⟩ := by
  obtain ⟨hhandled, hconn, hactions⟩ := dispatchMessages_handled hinv hrun p
  have hpending : pendingConnectivity (system.messageHub.replay effects) p = [] := by
    rw [pendingConnectivity, hconn]
    rfl
  have hsplit : (if p ∈ gameplay'.messageBroker.listeners then
      pendingActions system.messageHub p else []) ++
        pendingActions (system.messageHub.replay effects) p =
          pendingActions system.messageHub p := by
    unfold pendingActions
    rw [hactions]
    by_cases hp : p ∈ gameplay'.messageBroker.listeners
    · rw [if_pos hp, if_pos hp]
      exact List.append_nil _
    · rw [if_neg hp, if_neg hp]
      rfl
  have hdone : handled p effects = pendingConnectivity system.messageHub p ++
      (if p ∈ gameplay'.messageBroker.listeners then pendingActions system.messageHub p
        else []) := hhandled
  have hlast : ClientEvent.disconnect ∈ pendingConnectivity system.messageHub p →
      system.messageHub.playerActionMessagesByPlayerId p = [] ∧ gameplay'.Unseated p := fun hd =>
    dispatchMessages_unseated hinv hC hrun (Or.inl (mem_pendingConnectivity _ p hd))
  refine ⟨by rw [hpending]; rfl, ?_, fun hd => ?_⟩
  · have htotal := h.total
    rw [hpending, hdone]
    simp only [List.filter_nil, List.append_nil]
    rw [List.append_assoc, List.append_assoc, hsplit]
    by_cases hd : ClientEvent.disconnect ∈ pendingConnectivity system.messageHub p
    · have hnone : pendingActions system.messageHub p = [] := by
        rw [pendingActions, (hlast hd).1]
        rfl
      rw [hnone, List.append_nil] at htotal
      rw [hnone, List.append_nil, h.order, ← List.append_assoc]
      exact htotal
    · have hno : (pendingConnectivity system.messageHub p).filter (· = .disconnect) = [] := by
        refine List.filter_eq_nil_iff.2 fun e he hdisconnect => hd ?_
        exact of_decide_eq_true hdisconnect ▸ he
      rw [hno, List.append_nil] at htotal
      rw [h.order, hno, List.append_nil, ← List.append_assoc]
      exact htotal
  · rcases List.mem_append.1 hd with hd | hd
    · -- the client was gone before: it has published nothing since
      have hsplit : done ++ ((pendingConnectivity system.messageHub p).filter (· = .connect) ++
          (pendingActions system.messageHub p ++
            (pendingConnectivity system.messageHub p).filter (· = .disconnect))) <+:
          clientLife ms := by
        rw [← List.append_assoc, ← List.append_assoc, h.total]
        exact horder
      have hrest := eq_nil_of_disconnect hsplit hd
      simp only [List.append_eq_nil_iff] at hrest
      have hnone : system.messageHub.playerActionMessagesByPlayerId p = [] :=
        List.map_eq_nil_iff.1 hrest.2.1
      exact (dispatchMessages_unseated hinv hC hrun (Or.inr ⟨hnone, h.gone hd⟩)).2
    · rw [hdone] at hd
      rcases List.mem_append.1 hd with hd | hd
      · exact (hlast hd).2
      · by_cases hp : p ∈ gameplay'.messageBroker.listeners
        · rw [if_pos hp] at hd
          simp [pendingActions] at hd
        · rw [if_neg hp] at hd
          cases hd

/-! ## Whole runs -/

/-- A step of the system, seen from one client. -/
theorem Tracks.step {sent done : List ClientEvent} {system system' : System} {e : System.Event}
    {ms : List PlayerActionMessage} (h : Tracks p sent done system)
    (horder : sent ++ (e.clientEvent? p).toList <+: clientLife ms)
    (hinv : system.gameplay.Inv) (hC : disconnectsLast.Step env system e [])
    (hstep : System.step env system e = .ok (system', effects)) :
    Tracks p (sent ++ (e.clientEvent? p).toList) (done ++ handled p effects) system' := by
  have hdone : done ++ handled p [] = done := List.append_nil _
  cases step_cases hinv hstep with
  | publishConnectivity message =>
    rw [hdone]
    exact h.publishConnectivity message horder
  | publishAction q m =>
    rw [hdone]
    by_cases hq : q = p
    · subst hq
      simp only [System.Event.clientEvent?, if_true, Option.toList_some] at horder ⊢
      exact h.publishAction m horder
    · simp only [System.Event.clientEvent?, if_neg hq, Option.toList_none, List.append_nil]
      refine h.congr rfl ?_ id
      show ((system.messageHub.pushAction q m).playerActionMessagesByPlayerId p).map _ = _
      rw [MessageHub.playerActionMessages_pushAction, if_neg hq, List.append_nil]
      rfl
  | dispatch preference gameplay' effects hdispatch =>
    have hsent : sent ++ (System.Event.clientEvent? p (.dispatchMessages preference)).toList =
        sent := List.append_nil _
    rw [hsent] at horder ⊢
    exact h.dispatch horder hinv hC hdispatch
  | tick readings draws gameplay' effects hunmoved hpublished =>
    have hquiet : ∀ o ∈ effects, o.isQuiet = true := by
      intro o ho
      obtain ⟨q, message, rfl⟩ := hpublished o ho
      rfl
    have hsent : sent ++ (System.Event.clientEvent? p (.tickAllRooms readings draws)).toList =
        sent := List.append_nil _
    obtain ⟨hconn, hactions⟩ := system.messageHub.replay_of_isQuiet hquiet
    rw [hsent, handled_of_isQuiet hquiet, List.append_nil]
    refine h.congr ?_ ?_ fun hun => hun.of_le fun id => Nat.le_of_eq (hunmoved.seats p id)
    · rw [pendingConnectivity, hconn]
      rfl
    · rw [pendingActions, hactions]
      rfl

/-- When every disconnection meets the guard, gameplay handles the events of each client in the
order they were published, and a client whose disconnection was handled has no seat. -/
theorem disconnection_is_last {events : List System.Event} {system : System}
    (horder : NetworkOrder events)
    (hguard : Along (System.step env) (disconnectsLast.Step env) .new events)
    (hrun : run (System.step env) .new events = .ok (system, effects)) (p : PlayerId) :
    handled p effects <+: published p events ∧
      (.disconnect ∈ handled p effects → system.gameplay.Unseated p) := by
  have hend : system.gameplay.Inv ∧ (NetworkOrder events →
      Tracks p (published p events) (handled p effects) system) := by
    refine run_history_from_start (P := fun pre s ps => s.gameplay.Inv ∧ (NetworkOrder pre →
      Tracks p (published p pre) (handled p ps) s))
      (fun pre s ps e rest s' os h hC hstep => ?_) ⟨inv_new, fun _ => tracks_new p⟩ hguard hrun
    refine ⟨step_inv h.1 hstep, fun hnetwork => ?_⟩
    obtain ⟨ms, hms⟩ := hnetwork p
    rw [published_append] at hms ⊢
    rw [handled_append]
    have hone : published p [e] = (e.clientEvent? p).toList := by
      cases hevent : e.clientEvent? p <;> simp [published, hevent]
    rw [hone] at hms ⊢
    exact (h.2 hnetwork.of_append).step hms h.1 hC hstep
  have htracks := hend.2 horder
  exact ⟨htracks.handled_first, htracks.gone⟩

/-- Player 0 connects, joins and disconnects, and gameplay dispatches in between. -/
def joinAndDisconnect : List System.Event :=
  [.publishPlayerConnectivityMessage ⟨.connect, 0⟩,
    .publishPlayerActionMessage 0 (.joinGame [] .easy), .dispatchMessages [],
    .publishPlayerConnectivityMessage ⟨.disconnect, 0⟩, .dispatchMessages []]

theorem networkOrder_of_player_zero {events : List System.Event} (ms : List PlayerActionMessage)
    (h : published 0 events = clientLife ms) (hnone : ∀ p ≠ 0, published p events = []) :
    NetworkOrder events := by
  intro p
  by_cases hp : p = 0
  · rw [hp, h]
    exact ⟨ms, List.prefix_refl _⟩
  · rw [hnone p hp]
    exact ⟨[], List.nil_prefix⟩

theorem networkOrder_joinAndDisconnect : NetworkOrder joinAndDisconnect := by
  refine networkOrder_of_player_zero [.joinGame [] .easy] rfl fun p hp => ?_
  simp [published, joinAndDisconnect, System.Event.clientEvent?,
    PlayerConnectivityMessage.clientEvent?, Ne.symm hp]

theorem disconnection_is_last_joinAndDisconnect :
    ∃ system effects, run (System.step stillEnvironment) .new joinAndDisconnect =
        .ok (system, effects) ∧ ∀ p,
      handled p effects <+: published p joinAndDisconnect ∧
        (.disconnect ∈ handled p effects → system.gameplay.Unseated p) :=
  ⟨_, _, rfl, disconnection_is_last networkOrder_joinAndDisconnect (by decide) rfl⟩

/-- Player 0 connects, joins and disconnects before gameplay dispatches. -/
def disconnectAtOnce : List System.Event :=
  [.publishPlayerConnectivityMessage ⟨.connect, 0⟩,
    .publishPlayerActionMessage 0 (.joinGame [] .easy),
    .publishPlayerConnectivityMessage ⟨.disconnect, 0⟩, .dispatchMessages []]

theorem networkOrder_disconnectAtOnce : NetworkOrder disconnectAtOnce := by
  refine networkOrder_of_player_zero [.joinGame [] .easy] rfl fun p hp => ?_
  simp [published, disconnectAtOnce, System.Event.clientEvent?,
    PlayerConnectivityMessage.clientEvent?, Ne.symm hp]

/-- The join of player 0 is handled after the disconnection, and its seat stays taken. -/
theorem disconnectAtOnce_joins_afterwards :
    ¬ ∀ (env : Environment) (events : List System.Event) (system : System)
      (effects : List Effect), NetworkOrder events →
        run (System.step env) .new events = .ok (system, effects) → ∀ p,
          handled p effects <+: published p events ∧
            (.disconnect ∈ handled p effects → system.gameplay.Unseated p) := by
  intro h
  have hseat : ∃ system effects, run (System.step stillEnvironment) .new disconnectAtOnce =
      .ok (system, effects) ∧ .disconnect ∈ handled 0 effects ∧
        system.gameplay.seats 0 0 = 1 := ⟨_, _, rfl, by decide, rfl⟩
  obtain ⟨system, effects, hrun, hgone, hone⟩ := hseat
  have hnone := (h _ _ _ _ networkOrder_disconnectAtOnce hrun 0).2 hgone 0
  omega

end Gameplay
end SamuraiKirby
