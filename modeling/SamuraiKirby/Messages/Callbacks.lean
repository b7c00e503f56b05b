/-
What a subscription is worth.

Here the broker is taken by itself: an entry is any context with any callback, a
callback changes a world of which nothing is known, and it may throw.  An
exception of an action callback is caught and logged.  One of the connectivity
callback leaves `dispatchMessages`, with the broker as it then is.

`Subscriptions` says what callers were promised: the entries subscribed for a
player and not unsubscribed since.  A run keeps the promise exactly as long as no
unsubscription finds an entry to remove.
-/
import SamuraiKirby.Messages.GameplayMessageBroker
import SamuraiKirby.Transition.Moves

namespace SamuraiKirby

/-- How a call ends.  `threw` is a `std::exception`, which is all the program throws and all that
`dispatchMessages` catches; a callback that throws anything else is left out. -/
inductive CallbackOutcome (σ : Type) where
  | returned (world : σ)
  | threw (world : σ)

def CallbackOutcome.world {σ : Type} : CallbackOutcome σ → σ
  | .returned world => world
  | .threw world => world

/-- An entry of the broker: `first` is the context and `second` the callback. -/
structure PlayerActionCallbackWithContext (γ σ : Type) where
  first : γ
  second : PlayerId → PlayerActionMessage → σ → CallbackOutcome σ

namespace PlayerActionCallbackWithContext

variable {γ σ : Type} [DecidableEq γ]

/-- The loop of `unsubscribeToPlayerActionMessages`, which erases while it iterates. -/
def eraseContext (context : γ) : List (PlayerActionCallbackWithContext γ σ) →
    List (PlayerActionCallbackWithContext γ σ)
  | [] => []
  | callbackWithContext :: rest =>
    if callbackWithContext.first = context then eraseContext context rest
    else callbackWithContext :: eraseContext context rest

/-- The loop itself erases what it should. -/
theorem eraseContext_eq_filter (context : γ)
    (entries : List (PlayerActionCallbackWithContext γ σ)) :
    eraseContext context entries = entries.filter (·.first ≠ context) := by
  induction entries with
  | nil => rfl
  | cons e entries ih =>
    by_cases h : e.first = context
    · rw [eraseContext, if_pos h, ih, List.filter_cons_of_neg (by simpa using h)]
    · rw [eraseContext, if_neg h, ih, List.filter_cons_of_pos (by simpa using h)]

end PlayerActionCallbackWithContext

open PlayerActionCallbackWithContext

/-- The broker with the hub it holds a reference to and the world its callbacks change. -/
structure CallbackBroker (γ σ : Type) where
  messageHub : MessageHub
  connectivityCallback : Option (PlayerConnectivityMessage → σ → CallbackOutcome σ)
  subscribers : GameplayMessageBroker (PlayerActionCallbackWithContext γ σ)
  world : σ

/-- What a step lets one see: a callback was called, or an exception has left the broker. -/
inductive CallbackEffect (γ σ : Type) where
  | called (playerId : PlayerId)
      (callbackWithContext : PlayerActionCallbackWithContext γ σ) (message : PlayerActionMessage)
  | threw

def CallbackEffect.isThrew {γ σ : Type} : CallbackEffect γ σ → Bool
  | .called _ _ _ => false
  | .threw => true

namespace CallbackBroker

open Transition

variable {γ σ : Type}

def new (world : σ) : CallbackBroker γ σ where
  messageHub := .empty
  connectivityCallback := none
  subscribers := .empty
  world := world

/-- The entries found under a player. -/
def entries (broker : CallbackBroker γ σ) (playerId : PlayerId) :
    List (PlayerActionCallbackWithContext γ σ) :=
  broker.subscribers.callbacksWithContext playerId

/-- The actions pending for a player. -/
def pending (broker : CallbackBroker γ σ) (playerId : PlayerId) : List PlayerActionMessage :=
  broker.messageHub.playerActionMessagesByPlayerId playerId

/-- `callbacksWithContext` is a copy of the vector in the map: what the loop erases from it is
dropped on return. -/
def unsubscribeToPlayerActionMessages [DecidableEq γ] (broker : CallbackBroker γ σ)
    (playerId : PlayerId) (context : γ) : CallbackBroker γ σ :=
  let subscribers := broker.subscribers.access playerId
  let callbacksWithContext := subscribers.callbacksWithContext playerId
  let _callbacksWithContext := eraseContext context callbacksWithContext
  { broker with subscribers := subscribers }

/-! ## The dispatch loop -/

/-- One pass of the loop over connectivity messages.  An empty `std::function` throws when it is
called, and the message is popped only after the call. -/
def dispatchConnectivity (broker : CallbackBroker γ σ) (message : PlayerConnectivityMessage) :
    Except (CallbackBroker γ σ) (CallbackBroker γ σ × List (CallbackEffect γ σ)) :=
  match broker.connectivityCallback with
  | none => .error broker
  | some connectivityCallback =>
    match connectivityCallback message broker.world with
    | .returned world =>
      .ok ({ broker with messageHub := broker.messageHub.popConnectivity, world := world }, [])
    | .threw world => .error { broker with world := world }

/-- One pass of the loop over the callbacks.  The exception is caught here. -/
def callBack (playerId : PlayerId) (message : PlayerActionMessage) (broker : CallbackBroker γ σ)
    (callbackWithContext : PlayerActionCallbackWithContext γ σ) :
    Except (CallbackBroker γ σ) (CallbackBroker γ σ × List (CallbackEffect γ σ)) :=
  match callbackWithContext.second playerId message broker.world with
  | .returned world =>
    .ok ({ broker with world := world }, [.called playerId callbackWithContext message])
  | .threw world =>
    .ok ({ broker with world := world }, [.called playerId callbackWithContext message])

/-- One pass of the loop over the pending actions of a player. -/
def dispatchAction (playerId : PlayerId)
    (callbacksWithContext : List (PlayerActionCallbackWithContext γ σ))
    (broker : CallbackBroker γ σ) (message : PlayerActionMessage) :
    Except (CallbackBroker γ σ) (CallbackBroker γ σ × List (CallbackEffect γ σ)) :=
  seq (run (callBack playerId message) broker callbacksWithContext) fun broker' =>
    .ok ({ broker' with messageHub := broker'.messageHub.popAction playerId }, [])

/-- One pass of the loop over the map.  Callbacks publish no action, so the inner loop passes
the actions pending when it starts. -/
def dispatchPlayer (broker : CallbackBroker γ σ) (playerId : PlayerId) :
    Except (CallbackBroker γ σ) (CallbackBroker γ σ × List (CallbackEffect γ σ)) :=
  run (dispatchAction playerId (broker.entries playerId)) broker (broker.pending playerId)

def dispatchMessages (preference : List PlayerId) (broker : CallbackBroker γ σ) :
    Except (CallbackBroker γ σ) (CallbackBroker γ σ × List (CallbackEffect γ σ)) :=
  seq (run dispatchConnectivity broker broker.messageHub.playerConnectivityMessages)
    fun broker' => run dispatchPlayer broker' (broker'.subscribers.visitOrder preference)

inductive Event (γ σ : Type) where
  | publishPlayerConnectivityMessage (message : PlayerConnectivityMessage)
  | publishPlayerActionMessage (playerId : PlayerId) (message : PlayerActionMessage)
  | subscribeToPlayerConnectivityMessages
      (callback : PlayerConnectivityMessage → σ → CallbackOutcome σ)
  | subscribeToPlayerActionMessages (playerId : PlayerId)
      (callback : PlayerId → PlayerActionMessage → σ → CallbackOutcome σ) (context : γ)
  | unsubscribeToPlayerActionMessages (playerId : PlayerId) (context : γ)
  | dispatchMessages (preference : List PlayerId)

/-- The caller of `dispatchMessages` is taken to catch what leaves it, so no step fails. -/
def step [DecidableEq γ] (broker : CallbackBroker γ σ) :
    Event γ σ → Except Empty (CallbackBroker γ σ × List (CallbackEffect γ σ))
  | .publishPlayerConnectivityMessage message =>
    .ok ({ broker with messageHub := broker.messageHub.pushConnectivity message }, [])
  | .publishPlayerActionMessage playerId message =>
    .ok ({ broker with messageHub := broker.messageHub.pushAction playerId message }, [])
  | .subscribeToPlayerConnectivityMessages callback =>
    .ok ({ broker with connectivityCallback := some callback }, [])
  | .subscribeToPlayerActionMessages playerId callback context =>
    .ok ({ broker with
      subscribers := broker.subscribers.subscribeToPlayerActionMessages playerId
        ⟨context, callback⟩ }, [])
  | .unsubscribeToPlayerActionMessages playerId context =>
    .ok (broker.unsubscribeToPlayerActionMessages playerId context, [])
  | .dispatchMessages preference =>
    match broker.dispatchMessages preference with
    | .ok result => .ok result
    | .error broker' => .ok (broker', [.threw])

/-! ## The promise -/

/-- The entries subscribed for each player and not unsubscribed since. -/
abbrev Subscriptions (γ σ : Type) := PlayerId → List (PlayerActionCallbackWithContext γ σ)

def Subscriptions.next [DecidableEq γ] (subscriptions : Subscriptions γ σ) :
    Event γ σ → Subscriptions γ σ
  | .subscribeToPlayerActionMessages playerId callback context =>
    Function.update subscriptions playerId (subscriptions playerId ++ [⟨context, callback⟩])
  | .unsubscribeToPlayerActionMessages playerId context =>
    Function.update subscriptions playerId
      ((subscriptions playerId).filter (·.first ≠ context))
  | _ => subscriptions

/-- The actions of a player that an event publishes. -/
def Event.published (p : PlayerId) : Event γ σ → List PlayerActionMessage
  | .publishPlayerActionMessage playerId message => if playerId = p then [message] else []
  | _ => []

/-- The calls made for a player, in order. -/
def callsFor (p : PlayerId) (effects : List (CallbackEffect γ σ)) :
    List (PlayerActionMessage × PlayerActionCallbackWithContext γ σ) :=
  effects.filterMap fun
    | .called playerId callbackWithContext message =>
      if playerId = p then some (message, callbackWithContext) else none
    | .threw => none

/-- The step is a dispatch that no exception has left. -/
def dispatched (move : Move (CallbackBroker γ σ) (Event γ σ) (CallbackEffect γ σ)) : Bool :=
  match move.input with
  | .dispatchMessages _ => move.emitted.all (!·.isThrew)
  | _ => false

/-- What one step owes to the subscriptions before it. -/
structure Honours [DecidableEq γ] (subscriptions : Subscriptions γ σ)
    (move : Move (CallbackBroker γ σ) (Event γ σ) (CallbackEffect γ σ)) : Prop where
  /-- Subscribing and unsubscribing change what they should and nothing else. -/
  entries : ∀ p, move.after.entries p = subscriptions.next move.input p
  /-- Each pending action is passed to each subscribed callback once, in order. -/
  calls : ∀ p, callsFor p move.emitted =
    if dispatched move then
      (move.before.pending p).flatMap fun message =>
        (subscriptions p).map fun callbackWithContext => (message, callbackWithContext)
    else []
  /-- Whatever the callbacks do, nothing they were passed stays behind. -/
  popped : dispatched move = true → ∀ p, subscriptions p ≠ [] → move.after.pending p = []
  kept : dispatched move = false → ∀ p,
    move.after.pending p = move.before.pending p ++ move.input.published p

def subscriptionSemantics [DecidableEq γ] : Monitor (Subscriptions γ σ)
    (Move (CallbackBroker γ σ) (Event γ σ) (CallbackEffect γ σ)) where
  next subscriptions move := subscriptions.next move.input
  ok := Honours

/-- The event is no unsubscription that has an entry to remove. -/
def UnsubscribesNothing (broker : CallbackBroker γ σ) : Event γ σ → Prop
  | .unsubscribeToPlayerActionMessages playerId context =>
    ∀ callbackWithContext ∈ broker.entries playerId, callbackWithContext.first ≠ context
  | _ => True

/-! ## What a dispatch does -/

variable {broker broker' : CallbackBroker γ σ} {p q : PlayerId}
  {effects : List (CallbackEffect γ σ)}

theorem callsFor_append (p : PlayerId) (effects effects' : List (CallbackEffect γ σ)) :
    callsFor p (effects ++ effects') = callsFor p effects ++ callsFor p effects' :=
  List.filterMap_append

/-- A callback that throws is as good as one that returns. -/
theorem callBack_eq (p : PlayerId) (message : PlayerActionMessage) (broker : CallbackBroker γ σ)
    (entry : PlayerActionCallbackWithContext γ σ) :
    callBack p message broker entry =
      .ok ({ broker with world := (entry.second p message broker.world).world },
        [.called p entry message]) := by
  unfold callBack
  cases entry.second p message broker.world <;> rfl

theorem run_callBack (p : PlayerId) (message : PlayerActionMessage)
    (entries : List (PlayerActionCallbackWithContext γ σ)) (broker : CallbackBroker γ σ) :
    ∃ world, run (callBack p message) broker entries =
      .ok ({ broker with world := world }, entries.map (.called p · message)) := by
  induction entries generalizing broker with
  | nil => exact ⟨broker.world, rfl⟩
  | cons entry entries ih =>
    obtain ⟨world, h⟩ := ih { broker with world := (entry.second p message broker.world).world }
    exact ⟨world, run_cons_eq_ok.2 ⟨_, _, _, callBack_eq p message broker entry, h, rfl⟩⟩

/-- The broker kept its entries, and the queues of the players in the list are drained. -/
structure Drained (players : List PlayerId) (broker broker' : CallbackBroker γ σ) : Prop where
  subscribers : broker'.subscribers = broker.subscribers
  pending : ∀ p, broker'.pending p = if p ∈ players then [] else broker.pending p

/-- The calls that pass some actions of a player to some entries. -/
def callsOf (p : PlayerId) (entries : List (PlayerActionCallbackWithContext γ σ))
    (messages : List PlayerActionMessage) : List (CallbackEffect γ σ) :=
  messages.flatMap fun message => entries.map (.called p · message)

theorem pending_popAction {message : PlayerActionMessage} {messages : List PlayerActionMessage}
    (h : broker.pending p = message :: messages) (world : σ) (q : PlayerId) :
    ({ broker with messageHub := broker.messageHub.popAction p, world := world } :
      CallbackBroker γ σ).pending q = if q = p then messages else broker.pending q := by
  have hpop := broker.messageHub.playerActionMessages_popAction p q
  rw [show broker.messageHub.playerActionMessagesByPlayerId p = _ from h, List.tail_cons] at hpop
  exact hpop

theorem run_dispatchAction (entries : List (PlayerActionCallbackWithContext γ σ))
    {messages : List PlayerActionMessage} (h : broker.pending p = messages) :
    ∃ broker', run (dispatchAction p entries) broker messages =
      .ok (broker', callsOf p entries messages) ∧ Drained [p] broker broker' := by
  induction messages generalizing broker with
  | nil =>
    refine ⟨broker, rfl, rfl, fun q => ?_⟩
    by_cases hq : q = p
    · rw [if_pos (List.mem_singleton.2 hq), hq, h]
    · rw [if_neg (mt List.mem_singleton.1 hq)]
  | cons message messages ih =>
    obtain ⟨world, hcalls⟩ := run_callBack p message entries broker
    have hpop := pending_popAction h world
    obtain ⟨broker', hrest, hdrained⟩ := ih ((hpop p).trans (if_pos rfl))
    refine ⟨broker', run_cons_eq_ok.2 ⟨_, _, _, seq_eq_ok.2 ⟨_, _, [], hcalls, rfl, rfl⟩, hrest,
      by rw [List.append_nil]; rfl⟩, hdrained.subscribers, fun q => ?_⟩
    rw [hdrained.pending, hpop]
    by_cases hq : q = p <;> simp [hq]

theorem run_dispatchPlayer {players : List PlayerId} (hnodup : players.Nodup)
    (broker : CallbackBroker γ σ) :
    ∃ broker', run dispatchPlayer broker players =
      .ok (broker', players.flatMap fun p => callsOf p (broker.entries p) (broker.pending p)) ∧
        Drained players broker broker' := by
  induction players generalizing broker with
  | nil => exact ⟨broker, rfl, rfl, fun q => rfl⟩
  | cons p players ih =>
    obtain ⟨hp, hnodup⟩ := List.nodup_cons.1 hnodup
    obtain ⟨broker₁, hfirst, hdrained₁⟩ := run_dispatchAction (broker.entries p) rfl
    obtain ⟨broker₂, hrest, hdrained₂⟩ := ih hnodup broker₁
    -- the players still to come find their queues and entries as they were
    have hsame : players.flatMap (fun q => callsOf q (broker₁.entries q) (broker₁.pending q)) =
        players.flatMap fun q => callsOf q (broker.entries q) (broker.pending q) := by
      refine List.flatMap_congr fun q hq => ?_
      have hne : q ∉ [p] := fun h => hp (List.mem_singleton.1 h ▸ hq)
      rw [hdrained₁.pending, if_neg hne, entries, entries, hdrained₁.subscribers]
    rw [hsame] at hrest
    refine ⟨broker₂, run_cons_eq_ok.2 ⟨broker₁, _, _, hfirst, hrest, rfl⟩,
      hdrained₂.subscribers.trans hdrained₁.subscribers, fun q => ?_⟩
    rw [hdrained₂.pending, hdrained₁.pending]
    by_cases hq : q ∈ players <;> simp [hq]

/-- The loop over connectivity messages leaves entries and actions alone, however it ends. -/
theorem run_dispatchConnectivity (messages : List PlayerConnectivityMessage)
    (broker : CallbackBroker γ σ) :
    ∃ broker', Drained [] broker broker' ∧
      (run dispatchConnectivity broker messages = .ok (broker', []) ∨
        run dispatchConnectivity broker messages = .error broker') := by
  induction messages generalizing broker with
  | nil => exact ⟨broker, ⟨rfl, fun _ => rfl⟩, Or.inl rfl⟩
  | cons message messages ih =>
    cases hcallback : broker.connectivityCallback with
    | none =>
      refine ⟨broker, ⟨rfl, fun _ => rfl⟩, Or.inr (run_cons_eq_error.2 (Or.inl ?_))⟩
      simp only [dispatchConnectivity, hcallback]
    | some callback =>
      cases houtcome : callback message broker.world with
      | returned world =>
        have hstep : dispatchConnectivity broker message = .ok ({ broker with
            messageHub := broker.messageHub.popConnectivity, world := world }, []) := by
          simp only [dispatchConnectivity, hcallback, houtcome]
        obtain ⟨broker', hdrained, hrun⟩ := ih { broker with
          messageHub := broker.messageHub.popConnectivity, world := world }
        refine ⟨broker', ⟨hdrained.subscribers, hdrained.pending⟩, hrun.imp (fun hok => ?_)
          fun herror => ?_⟩
        · exact run_cons_eq_ok.2 ⟨_, [], [], hstep, hok, rfl⟩
        · exact run_cons_eq_error.2 (Or.inr ⟨_, [], hstep, herror⟩)
      | threw world =>
        refine ⟨{ broker with world := world }, ⟨rfl, fun _ => rfl⟩,
          Or.inr (run_cons_eq_error.2 (Or.inl ?_))⟩
        simp only [dispatchConnectivity, hcallback, houtcome]

/-- A dispatch makes its calls and drains the queues of all keys, or throws before either. -/
theorem dispatchMessages_cases (preference : List PlayerId) (broker : CallbackBroker γ σ) :
    ∃ broker',
      (broker.dispatchMessages preference = .error broker' ∧ Drained [] broker broker') ∨
      (broker.dispatchMessages preference = .ok (broker',
          (broker.subscribers.visitOrder preference).flatMap fun p =>
            callsOf p (broker.entries p) (broker.pending p)) ∧
        Drained (broker.subscribers.visitOrder preference) broker broker') := by
  obtain ⟨broker₁, hdrained₁, hok | herror⟩ :=
    run_dispatchConnectivity broker.messageHub.playerConnectivityMessages broker
  · obtain ⟨broker₂, hplayers, hdrained₂⟩ :=
      run_dispatchPlayer (broker.subscribers.visitOrder_nodup preference) broker₁
    have hpending : broker₁.pending = broker.pending := funext hdrained₁.pending
    have hentries : broker₁.entries = broker.entries := by
      funext p
      rw [entries, hdrained₁.subscribers, entries]
    rw [hpending, hentries] at hplayers
    refine ⟨broker₂, Or.inr ⟨seq_eq_ok.2 ⟨broker₁, [], _, hok, ?_, rfl⟩,
      hdrained₂.subscribers.trans hdrained₁.subscribers, fun p => ?_⟩⟩
    · rw [hdrained₁.subscribers]
      exact hplayers
    · rw [hdrained₂.pending, hpending]
  · exact ⟨broker₁, Or.inl ⟨seq_eq_error.2 (Or.inl herror), hdrained₁⟩⟩

theorem callsFor_callsOf (p q : PlayerId)
    (entries : List (PlayerActionCallbackWithContext γ σ)) (messages : List PlayerActionMessage) :
    callsFor q (callsOf p entries messages) =
      if p = q then messages.flatMap fun message => entries.map fun entry => (message, entry)
      else [] := by
  rw [callsFor, callsOf, List.filterMap_flatMap]
  by_cases h : p = q
  · rw [if_pos h]
    refine List.flatMap_congr fun message _ => ?_
    rw [List.filterMap_map]
    simp [h]
  · rw [if_neg h]
    refine List.flatMap_eq_nil_iff.2 fun message _ => ?_
    rw [List.filterMap_map]
    simp [h]

/-- A visit of distinct players makes the calls for a player when it comes to it. -/
theorem callsFor_visit {players : List PlayerId} (hnodup : players.Nodup)
    (calls : PlayerId → List (CallbackEffect γ σ))
    (hother : ∀ p, p ≠ q → callsFor q (calls p) = []) :
    callsFor q (players.flatMap calls) = if q ∈ players then callsFor q (calls q) else [] := by
  induction players with
  | nil => rfl
  | cons p players ih =>
    obtain ⟨hp, hnodup⟩ := List.nodup_cons.1 hnodup
    rw [List.flatMap_cons, callsFor_append, ih hnodup]
    by_cases h : p = q
    · subst h
      rw [if_neg hp, List.append_nil, if_pos (List.mem_cons_self ..)]
    · rw [hother p h, List.nil_append]
      simp [Ne.symm h]

theorem callsOf_isThrew (p : PlayerId) (entries : List (PlayerActionCallbackWithContext γ σ))
    (messages : List PlayerActionMessage) :
    ∀ effect ∈ callsOf p entries messages, effect.isThrew = false := by
  intro effect heffect
  obtain ⟨message, -, hmem⟩ := List.mem_flatMap.1 heffect
  obtain ⟨entry, -, rfl⟩ := List.mem_map.1 hmem
  rfl

theorem entries_eq_nil (h : p ∉ broker.subscribers.listeners) : broker.entries p = [] :=
  broker.subscribers.absent p h

/-! ## Each step -/

theorem pending_pushAction (broker : CallbackBroker γ σ) (p q : PlayerId)
    (message : PlayerActionMessage) :
    ({ broker with messageHub := broker.messageHub.pushAction p message } :
      CallbackBroker γ σ).pending q =
        broker.pending q ++ (if p = q then [message] else []) :=
  broker.messageHub.playerActionMessages_pushAction p q message

section Steps

variable [DecidableEq γ] {subscriptions : Subscriptions γ σ}

/-- A step that is no dispatch only has to keep the books. -/
theorem honours_of_not_dispatched {event : Event γ σ}
    (hevent : dispatched ⟨broker, event, [], broker'⟩ = false)
    (hentries : ∀ p, broker'.entries p = subscriptions.next event p)
    (hkept : ∀ p, broker'.pending p = broker.pending p ++ event.published p) :
    Honours subscriptions ⟨broker, event, [], broker'⟩ where
  entries := hentries
  calls p := by
    rw [hevent]
    rfl
  popped h := by
    rw [hevent] at h
    cases h
  kept _ := hkept

theorem honours_subscribe (hentries : ∀ p, broker.entries p = subscriptions p)
    (callback : PlayerId → PlayerActionMessage → σ → CallbackOutcome σ) (context : γ) :
    Honours subscriptions ⟨broker, .subscribeToPlayerActionMessages p callback context, [],
      { broker with
        subscribers := broker.subscribers.subscribeToPlayerActionMessages p
          ⟨context, callback⟩ }⟩ := by
  refine honours_of_not_dispatched rfl (fun q => ?_) fun q => (List.append_nil _).symm
  refine (GameplayMessageBroker.callbacksWithContext_subscribe _ p q _).trans ?_
  show broker.entries q ++ _ = Function.update subscriptions p (subscriptions p ++ _) q
  rw [hentries, update_push]

theorem entries_unsubscribe (broker : CallbackBroker γ σ) (p q : PlayerId) (context : γ) :
    (broker.unsubscribeToPlayerActionMessages p context).entries q = broker.entries q :=
  GameplayMessageBroker.callbacksWithContext_access broker.subscribers p q

/-- Nothing is ever removed, so an unsubscription is right when there is nothing to remove. -/
theorem honours_unsubscribe_iff (hentries : ∀ p, broker.entries p = subscriptions p)
    (context : γ) :
    Honours subscriptions ⟨broker, .unsubscribeToPlayerActionMessages p context, [],
      broker.unsubscribeToPlayerActionMessages p context⟩ ↔
        ∀ entry ∈ broker.entries p, entry.first ≠ context := by
  constructor
  · intro h entry hentry
    have hkept := h.entries p
    rw [entries_unsubscribe, hentries, Subscriptions.next, Function.update_self] at hkept
    rw [hentries] at hentry
    simpa using List.filter_eq_self.1 hkept.symm entry hentry
  · intro h
    refine honours_of_not_dispatched rfl (fun q => ?_) fun q => (List.append_nil _).symm
    have hself : (subscriptions p).filter (·.first ≠ context) = subscriptions p := by
      refine List.filter_eq_self.2 fun entry hentry => ?_
      rw [← hentries] at hentry
      simpa using h entry hentry
    rw [entries_unsubscribe, hentries, Subscriptions.next, hself, Function.update_eq_self]

theorem honours_dispatch (hentries : ∀ p, broker.entries p = subscriptions p)
    {preference : List PlayerId}
    (hstep : step broker (.dispatchMessages preference) = .ok (broker', effects)) :
    Honours subscriptions ⟨broker, .dispatchMessages preference, effects, broker'⟩ := by
  obtain ⟨broker₁, ⟨herror, hdrained⟩ | ⟨hok, hdrained⟩⟩ := dispatchMessages_cases preference broker
  · simp only [step, herror, Except.ok.injEq, Prod.mk.injEq] at hstep
    obtain ⟨rfl, rfl⟩ := hstep
    refine ⟨fun p => ?_, fun p => rfl, (fun h => by cases h), fun _ p => ?_⟩
    · rw [entries, hdrained.subscribers]
      exact hentries p
    · exact (hdrained.pending p).trans (List.append_nil _).symm
  · simp only [step, hok, Except.ok.injEq, Prod.mk.injEq] at hstep
    obtain ⟨rfl, rfl⟩ := hstep
    have hdispatched : dispatched ⟨broker, .dispatchMessages preference,
        (broker.subscribers.visitOrder preference).flatMap fun p =>
          callsOf p (broker.entries p) (broker.pending p), broker₁⟩ = true := by
      refine List.all_eq_true.2 fun effect heffect => ?_
      obtain ⟨p, -, hmem⟩ := List.mem_flatMap.1 heffect
      rw [callsOf_isThrew p _ _ effect hmem]
      rfl
    refine ⟨fun p => ?_, fun p => ?_, fun _ p hp => ?_, fun h => ?_⟩
    · rw [entries, hdrained.subscribers]
      exact hentries p
    · rw [if_pos hdispatched, ← hentries, callsFor_visit (broker.subscribers.visitOrder_nodup _) _
        fun q hq => by rw [callsFor_callsOf, if_neg hq], callsFor_callsOf, if_pos rfl]
      by_cases hmem : p ∈ broker.subscribers.visitOrder preference
      · rw [if_pos hmem]
      · -- a player without a key has no entries
        rw [GameplayMessageBroker.mem_visitOrder] at hmem
        rw [entries_eq_nil hmem]
        simp
    · rw [hdrained.pending, if_pos]
      rw [GameplayMessageBroker.mem_visitOrder]
      by_contra hmem
      exact hp ((hentries p).symm.trans (entries_eq_nil hmem))
    · rw [hdispatched] at h
      cases h

/-- While the entries are those subscribed, a step honours them exactly if it is no
unsubscription with an entry to remove. -/
theorem honours_step_iff (hentries : ∀ p, broker.entries p = subscriptions p) {event : Event γ σ}
    (hstep : step broker event = .ok (broker', effects)) :
    Honours subscriptions ⟨broker, event, effects, broker'⟩ ↔
      broker.UnsubscribesNothing event := by
  cases event with
  | publishPlayerConnectivityMessage message =>
    cases hstep
    exact ⟨fun _ => trivial, fun _ => honours_of_not_dispatched rfl hentries
      fun q => (List.append_nil _).symm⟩
  | publishPlayerActionMessage p message =>
    cases hstep
    exact ⟨fun _ => trivial, fun _ => honours_of_not_dispatched rfl hentries
      fun q => pending_pushAction broker p q message⟩
  | subscribeToPlayerConnectivityMessages callback =>
    cases hstep
    exact ⟨fun _ => trivial, fun _ => honours_of_not_dispatched rfl hentries
      fun q => (List.append_nil _).symm⟩
  | subscribeToPlayerActionMessages p callback context =>
    cases hstep
    exact ⟨fun _ => trivial, fun _ => honours_subscribe hentries callback context⟩
  | unsubscribeToPlayerActionMessages p context =>
    cases hstep
    exact honours_unsubscribe_iff hentries context
  | dispatchMessages preference =>
    exact ⟨fun _ => trivial, fun _ => honours_dispatch hentries hstep⟩

/-! ## Whole runs -/

/-- The subscriptions are honoured along a run exactly if none of its unsubscriptions finds an
entry to remove. -/
theorem subscriptions_honoured_iff (world : σ) (events : List (Event γ σ)) :
    subscriptionSemantics.Accepts (fun _ => []) (moves step (new world) events) ↔
      Along step (fun broker event _ => UnsubscribesNothing broker event) (new world) events := by
  refine moves_accepts_iff_along
    (R := fun broker subscriptions _ => ∀ p, broker.entries p = subscriptions p)
    (fun broker subscriptions event rest _ => ?_)
    (fun broker subscriptions event rest broker' effects hentries hstep => ?_) fun _ => rfl
  · cases event with
    | dispatchMessages preference =>
      rw [step]
      cases broker.dispatchMessages preference with
      | ok result => exact ⟨_, _, rfl⟩
      | error broker' => exact ⟨_, _, rfl⟩
    | _ => exact ⟨_, _, rfl⟩
  · have hiff := honours_step_iff hentries hstep
    exact ⟨hiff, fun h => (hiff.2 h).entries⟩

end Steps

/-- A callback that counts its calls in the world. -/
def count (_ : PlayerId) (_ : PlayerActionMessage) (world : Nat) : CallbackOutcome Nat :=
  .returned (world + 1)

/-- A callback is subscribed and unsubscribed before the first action is published. -/
def unsubscribeInTime : List (Event Nat Nat) :=
  [.subscribeToPlayerActionMessages 0 count 7, .unsubscribeToPlayerActionMessages 0 7,
    .publishPlayerActionMessage 0 .notifyCanPlay, .dispatchMessages []]

/-- It is called all the same. -/
theorem unsubscribed_callback_is_called :
    ¬ ∀ events : List (Event Nat Nat), subscriptionSemantics.Accepts (fun _ => [])
        (moves step (new 0) events) := by
  intro h
  have hcalls := (h unsubscribeInTime).2.2.2.1.calls 0
  have hnone : ∀ {l : List (PlayerActionMessage × PlayerActionCallbackWithContext Nat Nat)},
      l = [] → l.length = 0 := fun hl => hl ▸ rfl
  exact absurd (hnone hcalls) (by decide)

end CallbackBroker
end SamuraiKirby
