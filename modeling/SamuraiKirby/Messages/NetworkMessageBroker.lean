/-
The subscription table of the network side, and what comes out of it.

A client is subscribed by its constructor, after it has been announced, and
unsubscribed by its destructor.  Gameplay may publish for a player at any time,
so messages can be waiting before the player has a callback and can come in after
it has lost it.  Nothing leaves a queue but through the callback of its player.

A callback is any value.  It returns, and it does nothing to the broker or to the
queues it is served from.
-/
import SamuraiKirby.Messages.Messages
import SamuraiKirby.Transition.Run
import SamuraiKirby.Transition.Visit

namespace SamuraiKirby

/-- `gameplayMessagesByPlayerId[playerId].pop()` -/
def MessageHub.popGameplay (hub : MessageHub) (playerId : PlayerId) : MessageHub :=
  { hub with
    gameplayMessagesByPlayerId := Function.update hub.gameplayMessagesByPlayerId playerId
      (hub.gameplayMessagesByPlayerId playerId).tail }

structure NetworkMessageBroker (κ : Type) where
  gameplayMessageCallbackByPlayerId : List (PlayerId × κ)
  nodup : (gameplayMessageCallbackByPlayerId.map Prod.fst).Nodup

namespace NetworkMessageBroker

variable {κ : Type}

def empty : NetworkMessageBroker κ where
  gameplayMessageCallbackByPlayerId := []
  nodup := List.nodup_nil

/-- The players with a callback. -/
def registered (broker : NetworkMessageBroker κ) : List PlayerId :=
  broker.gameplayMessageCallbackByPlayerId.map Prod.fst

def callback? (broker : NetworkMessageBroker κ) (playerId : PlayerId) : Option κ :=
  broker.gameplayMessageCallbackByPlayerId.lookup playerId

theorem nodup_erase (broker : NetworkMessageBroker κ) (playerId : PlayerId) :
    ((broker.gameplayMessageCallbackByPlayerId.filter (·.1 ≠ playerId)).map Prod.fst).Nodup :=
  broker.nodup.sublist (List.filter_sublist.map Prod.fst)

/-- `gameplayMessageCallbackByPlayerId[playerId] = callback` -/
def subscribeToGameplayMessagesForPlayer (broker : NetworkMessageBroker κ) (playerId : PlayerId)
    (callback : κ) : NetworkMessageBroker κ where
  gameplayMessageCallbackByPlayerId :=
    broker.gameplayMessageCallbackByPlayerId.filter (·.1 ≠ playerId) ++ [(playerId, callback)]
  nodup := by
    rw [List.map_append]
    refine List.nodup_append.2 ⟨broker.nodup_erase playerId, List.nodup_singleton _, ?_⟩
    intro p hp q hq heq
    obtain ⟨entry, hentry, rfl⟩ := List.mem_map.1 hp
    have hne := (List.mem_filter.1 hentry).2
    rw [List.mem_singleton.1 hq] at heq
    simp [heq] at hne

/-- `gameplayMessageCallbackByPlayerId.erase(playerId)` -/
def unsubscribeToGameplayMessagesForPlayer (broker : NetworkMessageBroker κ)
    (playerId : PlayerId) : NetworkMessageBroker κ where
  gameplayMessageCallbackByPlayerId :=
    broker.gameplayMessageCallbackByPlayerId.filter (·.1 ≠ playerId)
  nodup := broker.nodup_erase playerId

/-- The keys in the order the map is visited. -/
def visitOrder (broker : NetworkMessageBroker κ) (preference : List PlayerId) : List PlayerId :=
  Transition.visitOrder broker.registered preference

theorem mem_visitOrder (broker : NetworkMessageBroker κ) (preference : List PlayerId)
    (p : PlayerId) : p ∈ broker.visitOrder preference ↔ p ∈ broker.registered :=
  Transition.mem_visitOrder broker.registered preference p

/-- The map may be visited in any order. -/
theorem visitOrder_of_perm (broker : NetworkMessageBroker κ) {order : List PlayerId}
    (h : order.Perm broker.registered) : broker.visitOrder order = order :=
  Transition.visitOrder_of_perm broker.nodup h

theorem mem_of_callback? {broker : NetworkMessageBroker κ} {p : PlayerId} {callback : κ}
    (h : broker.callback? p = some callback) :
    (p, callback) ∈ broker.gameplayMessageCallbackByPlayerId := by
  obtain ⟨l₁, l₂, heq, -⟩ := List.lookup_eq_some_iff.1 h
  rw [heq]
  exact List.mem_append_right _ (List.mem_cons_self ..)

/-- A registered player has a callback. -/
theorem exists_callback? {broker : NetworkMessageBroker κ} {p : PlayerId}
    (h : p ∈ broker.registered) : ∃ callback, broker.callback? p = some callback := by
  obtain ⟨entry, hentry, rfl⟩ := List.mem_map.1 h
  exact Option.isSome_iff_exists.1
    (List.lookup_isSome_iff.2 ⟨entry, hentry, beq_self_eq_true _⟩)

theorem mem_registered_of_callback? {broker : NetworkMessageBroker κ} {p : PlayerId}
    {callback : κ} (h : broker.callback? p = some callback) : p ∈ broker.registered :=
  List.mem_map_of_mem (mem_of_callback? h)

/-- Looking up a key where the entries of one key were erased. -/
theorem lookup_filter_ne (entries : List (PlayerId × κ)) (q p : PlayerId) :
    (entries.filter (·.1 ≠ q)).lookup p = if q = p then none else entries.lookup p := by
  induction entries with
  | nil => simp
  | cons entry entries ih =>
    by_cases hq : entry.1 = q
    · rw [List.filter_cons_of_neg (by simp [hq]), ih]
      by_cases hp : q = p
      · rw [if_pos hp, if_pos hp]
      · have hbeq : (p == entry.1) = false :=
          beq_eq_false_iff_ne.2 fun heq => hp (heq.trans hq).symm
        rw [if_neg hp, if_neg hp, List.lookup_cons, hbeq]
    · rw [List.filter_cons_of_pos (by simp [hq]), List.lookup_cons, List.lookup_cons, ih]
      by_cases hp : q = p
      · have hbeq : (p == entry.1) = false :=
          beq_eq_false_iff_ne.2 fun heq => hq (heq ▸ hp.symm)
        rw [hbeq, if_pos hp]
      · rw [if_neg hp, if_neg hp]

theorem callback?_unsubscribe (broker : NetworkMessageBroker κ) (q p : PlayerId) :
    (broker.unsubscribeToGameplayMessagesForPlayer q).callback? p =
      if q = p then none else broker.callback? p :=
  lookup_filter_ne broker.gameplayMessageCallbackByPlayerId q p

theorem callback?_subscribe (broker : NetworkMessageBroker κ) (q : PlayerId) (callback : κ)
    (p : PlayerId) : (broker.subscribeToGameplayMessagesForPlayer q callback).callback? p =
      if q = p then some callback else broker.callback? p := by
  unfold callback? subscribeToGameplayMessagesForPlayer
  rw [List.lookup_append, lookup_filter_ne]
  by_cases hp : q = p
  · simp [hp]
  · have hbeq : (p == q) = false := beq_eq_false_iff_ne.2 (Ne.symm hp)
    simp [hp, List.lookup_cons, hbeq]

end NetworkMessageBroker

/-- The network side as gameplay messages see it: the hub and the subscriptions. -/
structure Delivery (κ : Type) where
  messageHub : MessageHub
  messageBroker : NetworkMessageBroker κ

/-- The callback of a player was called with a message. -/
structure Handed (κ : Type) where
  playerId : PlayerId
  callback : κ
  message : GameplayMessage

namespace Delivery

open Transition

variable {κ : Type}

def new : Delivery κ where
  messageHub := .empty
  messageBroker := .empty

/-- Gameplay publishes, or the network thread creates a client, destroys one or dispatches. -/
inductive Event (κ : Type) where
  | publishGameplayMessage (playerId : PlayerId) (message : GameplayMessage)
  | createClient (playerId : PlayerId) (callback : κ)
  | destroyClient (playerId : PlayerId)
  | dispatchMessages (preference : List PlayerId)

/-- One pass of the inner loop: the callback takes the front message and it is popped. -/
def dispatchMessage (playerId : PlayerId) (callback : κ) (delivery : Delivery κ)
    (message : GameplayMessage) : Except Empty (Delivery κ × List (Handed κ)) :=
  .ok ({ delivery with messageHub := delivery.messageHub.popGameplay playerId },
    [⟨playerId, callback, message⟩])

/-- One pass of the loop over the map.  Gameplay publishes nothing meanwhile, so the inner loop
passes the messages that wait when it starts. -/
def dispatchPlayer (delivery : Delivery κ) (playerId : PlayerId) :
    Except Empty (Delivery κ × List (Handed κ)) :=
  match delivery.messageBroker.callback? playerId with
  | none => .ok (delivery, [])
  | some callback =>
    run (dispatchMessage playerId callback) delivery
      (delivery.messageHub.gameplayMessagesByPlayerId playerId)

/-- `NetworkMessageBroker::dispatchMessages` -/
def dispatchMessages (preference : List PlayerId) (delivery : Delivery κ) :
    Except Empty (Delivery κ × List (Handed κ)) :=
  run dispatchPlayer delivery (delivery.messageBroker.visitOrder preference)

def step (delivery : Delivery κ) : Event κ → Except Empty (Delivery κ × List (Handed κ))
  | .publishGameplayMessage playerId message =>
    .ok ({ delivery with messageHub := delivery.messageHub.pushGameplay playerId message }, [])
  | .createClient playerId callback =>
    .ok ({ messageHub := delivery.messageHub.pushConnectivity ⟨.connect, playerId⟩
           messageBroker := delivery.messageBroker.subscribeToGameplayMessagesForPlayer
             playerId callback }, [])
  | .destroyClient playerId =>
    .ok ({ delivery with
      messageBroker := delivery.messageBroker.unsubscribeToGameplayMessagesForPlayer
        playerId }, [])
  | .dispatchMessages preference => delivery.dispatchMessages preference

/-! ## What was published, what was handed over, what waits -/

/-- The callback a player is registered with after an event. -/
def Event.registers (p : PlayerId) (callback? : Option κ) : Event κ → Option κ
  | .createClient playerId callback => if playerId = p then some callback else callback?
  | .destroyClient playerId => if playerId = p then none else callback?
  | .publishGameplayMessage _ _ | .dispatchMessages _ => callback?

/-- The callback of the last client created for a player, unless that client was destroyed. -/
def registration (p : PlayerId) (events : List (Event κ)) : Option κ :=
  events.foldl (Event.registers p) none

/-- The messages gameplay published for a player. -/
def publishedFor (p : PlayerId) (events : List (Event κ)) : List GameplayMessage :=
  events.filterMap fun
    | .publishGameplayMessage playerId message => if playerId = p then some message else none
    | _ => none

/-- The messages the callback of a player was called with. -/
def handedTo (p : PlayerId) (effects : List (Handed κ)) : List GameplayMessage :=
  effects.filterMap fun handed => if handed.playerId = p then some handed.message else none

def waiting (delivery : Delivery κ) (p : PlayerId) : List GameplayMessage :=
  delivery.messageHub.gameplayMessagesByPlayerId p

theorem publishedFor_append (p : PlayerId) (events events' : List (Event κ)) :
    publishedFor p (events ++ events') = publishedFor p events ++ publishedFor p events' :=
  List.filterMap_append

theorem registration_snoc (p : PlayerId) (events : List (Event κ)) (event : Event κ) :
    registration p (events ++ [event]) = event.registers p (registration p events) :=
  List.foldl_append

theorem handedTo_append (p : PlayerId) (effects effects' : List (Handed κ)) :
    handedTo p (effects ++ effects') = handedTo p effects ++ handedTo p effects' :=
  List.filterMap_append

/-! ## What a dispatch does -/

variable {delivery delivery' : Delivery κ} {effects : List (Handed κ)} {p q : PlayerId}

/-- A part of a dispatch hands over the front of some queues, each message to the callback its
player has, and leaves the subscriptions alone. -/
structure Hands (delivery : Delivery κ) (effects : List (Handed κ)) (delivery' : Delivery κ) :
    Prop where
  messageBroker : delivery'.messageBroker = delivery.messageBroker
  conserved : ∀ p, handedTo p effects ++ delivery'.waiting p = delivery.waiting p
  callback : ∀ handed ∈ effects,
    delivery.messageBroker.callback? handed.playerId = some handed.callback

theorem Hands.refl (delivery : Delivery κ) : Hands delivery [] delivery :=
  ⟨rfl, fun _ => rfl, fun _ h => by cases h⟩

theorem Hands.trans {delivery₁ : Delivery κ} {effects' : List (Handed κ)}
    (h : Hands delivery effects delivery₁) (h' : Hands delivery₁ effects' delivery') :
    Hands delivery (effects ++ effects') delivery' where
  messageBroker := h'.messageBroker.trans h.messageBroker
  conserved p := by rw [handedTo_append, List.append_assoc, h'.conserved, h.conserved]
  callback handed hmem := by
    rcases List.mem_append.1 hmem with hmem | hmem
    · exact h.callback handed hmem
    · rw [← h.messageBroker]
      exact h'.callback handed hmem

theorem waiting_popGameplay (delivery : Delivery κ) (p q : PlayerId) :
    ({ delivery with messageHub := delivery.messageHub.popGameplay p } : Delivery κ).waiting q =
      if q = p then (delivery.waiting p).tail else delivery.waiting q :=
  Function.update_apply ..

theorem hands_dispatchMessage {callback : κ}
    (hcallback : delivery.messageBroker.callback? p = some callback) {message : GameplayMessage}
    {rest : List GameplayMessage} (hwaiting : delivery.waiting p = message :: rest) :
    Hands delivery [⟨p, callback, message⟩]
      { delivery with messageHub := delivery.messageHub.popGameplay p } where
  messageBroker := rfl
  conserved q := by
    rw [waiting_popGameplay]
    by_cases h : q = p
    · subst h
      simp [handedTo, hwaiting]
    · simp [handedTo, h, Ne.symm h]
  callback handed hmem := by
    rw [List.mem_singleton.1 hmem]
    exact hcallback

/-- The queue of a player is emptied into its callback. -/
theorem run_dispatchMessage {callback : κ}
    (hcallback : delivery.messageBroker.callback? p = some callback)
    {messages : List GameplayMessage} (hwaiting : delivery.waiting p = messages)
    (hrun : run (dispatchMessage p callback) delivery messages = .ok (delivery', effects)) :
    Hands delivery effects delivery' ∧ delivery'.waiting p = [] := by
  induction messages generalizing delivery effects with
  | nil =>
    cases hrun
    exact ⟨.refl _, hwaiting⟩
  | cons message messages ih =>
    obtain ⟨delivery₁, os₁, os₂, hstep, hrest, rfl⟩ := run_cons_eq_ok.1 hrun
    cases hstep
    have htail := waiting_popGameplay delivery p p
    rw [if_pos rfl, hwaiting, List.tail_cons] at htail
    obtain ⟨hhands, hempty⟩ := ih (by exact hcallback) htail hrest
    exact ⟨(hands_dispatchMessage hcallback hwaiting).trans hhands, hempty⟩

theorem dispatchPlayer_hands (hp : p ∈ delivery.messageBroker.registered)
    (hrun : delivery.dispatchPlayer p = .ok (delivery', effects)) :
    Hands delivery effects delivery' ∧ delivery'.waiting p = [] := by
  obtain ⟨callback, hcallback⟩ := NetworkMessageBroker.exists_callback? hp
  rw [dispatchPlayer, hcallback] at hrun
  exact run_dispatchMessage hcallback rfl hrun

/-- Nothing comes to wait during a dispatch. -/
theorem Hands.waiting_eq_nil (h : Hands delivery effects delivery')
    (hp : delivery.waiting p = []) : delivery'.waiting p = [] := by
  have hconserved := h.conserved p
  rw [hp] at hconserved
  exact (List.append_eq_nil_iff.1 hconserved).2

theorem run_dispatchPlayer_hands {players : List PlayerId}
    (hplayers : ∀ p ∈ players, p ∈ delivery.messageBroker.registered)
    (hrun : run dispatchPlayer delivery players = .ok (delivery', effects)) :
    Hands delivery effects delivery' ∧ ∀ p ∈ players, delivery'.waiting p = [] := by
  induction players generalizing delivery effects with
  | nil =>
    cases hrun
    exact ⟨.refl _, fun p hp => by cases hp⟩
  | cons q players ih =>
    obtain ⟨delivery₁, os₁, os₂, hfirst, hrest, rfl⟩ := run_cons_eq_ok.1 hrun
    obtain ⟨hhands, hempty⟩ := dispatchPlayer_hands (hplayers q (List.mem_cons_self ..)) hfirst
    obtain ⟨hhands', hempty'⟩ := ih (fun p hp => by
      rw [hhands.messageBroker]
      exact hplayers p (List.mem_cons_of_mem _ hp)) hrest
    refine ⟨hhands.trans hhands', fun p hp => ?_⟩
    rcases List.mem_cons.1 hp with rfl | hp
    · exact hhands'.waiting_eq_nil hempty
    · exact hempty' p hp

/-- A dispatch empties the queues of the registered players. -/
theorem dispatchMessages_hands {preference : List PlayerId}
    (hrun : delivery.dispatchMessages preference = .ok (delivery', effects)) :
    Hands delivery effects delivery' ∧
      ∀ p ∈ delivery.messageBroker.registered, delivery'.waiting p = [] := by
  obtain ⟨hhands, hempty⟩ := run_dispatchPlayer_hands
    (fun p hp => (delivery.messageBroker.mem_visitOrder preference p).1 hp) hrun
  exact ⟨hhands, fun p hp =>
    hempty p ((delivery.messageBroker.mem_visitOrder preference p).2 hp)⟩

/-! ## Whole runs -/

/-- What links a run to the state it leaves: every message published is handed over or waits, in
the order of publication, and callbacks are called for the players registered with them. -/
structure Links (events : List (Event κ)) (delivery : Delivery κ) (effects : List (Handed κ)) :
    Prop where
  total : ∀ p, handedTo p effects ++ delivery.waiting p = publishedFor p events
  registered : ∀ p, delivery.messageBroker.callback? p = registration p events
  handed : ∀ handed ∈ effects, ∃ before preference after,
    events = before ++ .dispatchMessages preference :: after ∧
      registration handed.playerId before = some handed.callback

theorem links_new : Links [] (new : Delivery κ) [] :=
  ⟨fun _ => rfl, fun _ => rfl, fun _ h => by cases h⟩

theorem waiting_pushGameplay (delivery : Delivery κ) (p q : PlayerId)
    (message : GameplayMessage) :
    ({ delivery with messageHub := delivery.messageHub.pushGameplay p message } :
      Delivery κ).waiting q = delivery.waiting q ++ if p = q then [message] else [] :=
  delivery.messageHub.gameplayMessages_pushGameplay p q message

variable {events : List (Event κ)} {event : Event κ}

theorem Links.handed_snoc (h : Links events delivery effects) (event : Event κ) :
    ∀ handed ∈ effects, ∃ before preference after,
      events ++ [event] = before ++ .dispatchMessages preference :: after ∧
        registration handed.playerId before = some handed.callback := by
  intro handed hmem
  obtain ⟨before, preference, after, rfl, hregistration⟩ := h.handed handed hmem
  exact ⟨before, preference, after ++ [event], List.append_assoc .., hregistration⟩

/-- A step that hands nothing over. -/
theorem Links.quiet (h : Links events delivery effects)
    (hwaiting : ∀ p, delivery'.waiting p = delivery.waiting p ++ publishedFor p [event])
    (hregistered : ∀ p, delivery'.messageBroker.callback? p =
      event.registers p (delivery.messageBroker.callback? p)) :
    Links (events ++ [event]) delivery' (effects ++ []) where
  total p := by
    rw [List.append_nil, hwaiting, ← List.append_assoc, h.total, publishedFor_append]
  registered p := by rw [hregistered, h.registered, registration_snoc]
  handed := by
    rw [List.append_nil]
    exact h.handed_snoc event

theorem Links.step (h : Links events delivery effects) {effects' : List (Handed κ)}
    (hstep : delivery.step event = .ok (delivery', effects')) :
    Links (events ++ [event]) delivery' (effects ++ effects') := by
  cases event with
  | publishGameplayMessage p message =>
    cases hstep
    refine h.quiet (fun q => ?_) fun q => rfl
    rw [waiting_pushGameplay]
    by_cases hq : p = q <;> simp [publishedFor, hq]
  | createClient p callback =>
    cases hstep
    exact h.quiet (fun q => (List.append_nil _).symm) fun q =>
      delivery.messageBroker.callback?_subscribe p callback q
  | destroyClient p =>
    cases hstep
    exact h.quiet (fun q => (List.append_nil _).symm) fun q =>
      delivery.messageBroker.callback?_unsubscribe p q
  | dispatchMessages preference =>
    obtain ⟨hhands, -⟩ := dispatchMessages_hands hstep
    refine ⟨fun q => ?_, fun q => ?_, fun handed hmem => ?_⟩
    · rw [handedTo_append, List.append_assoc, hhands.conserved, h.total, publishedFor_append]
      exact (List.append_nil _).symm
    · rw [hhands.messageBroker, h.registered, registration_snoc]
      rfl
    · rcases List.mem_append.1 hmem with hmem | hmem
      · exact h.handed_snoc _ handed hmem
      · exact ⟨events, preference, [], rfl,
          (h.registered _).symm.trans (hhands.callback handed hmem)⟩

theorem links_of_run (hrun : run Delivery.step new events = .ok (delivery, effects)) :
    Links events delivery effects :=
  run_history_from_start (P := Links) (C := fun _ _ _ => True)
    (fun _ _ _ _ _ _ _ h _ hstep => h.step hstep) links_new (along_true _ _) hrun

/-- At every moment the callback of a player has been handed the first of the messages published
for the player, in order.  Right after a dispatch a player that is registered has been handed
all of them, also those published before it was registered.  A callback is called only in a
dispatch, and only for the player that is registered with it at that time. -/
theorem handed_in_order {events : List (Event κ)}
    (hrun : run Delivery.step new events = .ok (delivery, effects)) :
    (∀ p, handedTo p effects <+: publishedFor p events) ∧
      (∀ before preference, events = before ++ [.dispatchMessages preference] →
        ∀ p, (registration p before).isSome = true →
          handedTo p effects = publishedFor p events) ∧
      ∀ handed ∈ effects, ∃ before preference after,
        events = before ++ .dispatchMessages preference :: after ∧
          registration handed.playerId before = some handed.callback := by
  have hlinks := links_of_run hrun
  refine ⟨fun p => ⟨_, hlinks.total p⟩, ?_, hlinks.handed⟩
  rintro before preference rfl p hp
  obtain ⟨callback, hcallback⟩ := Option.isSome_iff_exists.1 hp
  obtain ⟨delivery₁, os₁, os₂, hbefore, hlast, rfl⟩ := run_append_eq_ok.1 hrun
  rw [run_singleton] at hlast
  rw [← (links_of_run hbefore).registered] at hcallback
  obtain ⟨-, hempty⟩ := dispatchMessages_hands hlast
  rw [← hlinks.total p, hempty p (NetworkMessageBroker.mem_registered_of_callback? hcallback),
    List.append_nil]

/-- A message is published before its player is there, and another one afterwards. -/
def publishedEarly : List (Event Unit) :=
  [.publishGameplayMessage 0 .allReadyGameStarting, .createClient 0 (), .dispatchMessages [],
    .publishGameplayMessage 1 .allReadyGameStarting,
    .publishGameplayMessage 0 .allReplayReadyGameStarting, .dispatchMessages []]

theorem handed_in_order_publishedEarly :
    ∃ delivery effects, run Delivery.step new publishedEarly = .ok (delivery, effects) ∧
      handedTo 0 effects = [.allReadyGameStarting, .allReplayReadyGameStarting] ∧
      handedTo 1 effects <+: [.allReadyGameStarting] := by
  refine ⟨_, _, rfl, ?_⟩
  have h := @handed_in_order Unit _ _ publishedEarly rfl
  exact ⟨h.2.1 (publishedEarly.take 5) [] rfl 0 rfl, h.1 1⟩

end Delivery
end SamuraiKirby
