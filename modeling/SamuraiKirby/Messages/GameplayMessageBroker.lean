/-
The subscription table of the gameplay side.

The table maps a player to the callbacks its actions are dispatched to.  It is a
`std::unordered_map` filled through `operator[]`, so a missing key reads as an
empty vector and reading a key creates it.  An entry is the pair of a context
and a callback; what an entry is made of does not matter here.
-/
import SamuraiKirby.Messages.Messages
import SamuraiKirby.Transition.Visit

namespace SamuraiKirby

structure GameplayMessageBroker (κ : Type) where
  /-- The keys of the map. -/
  listeners : List PlayerId
  playerActionCallbacksWithContextByPlayerId : PlayerId → List κ
  nodup : listeners.Nodup
  absent : ∀ p, p ∉ listeners → playerActionCallbacksWithContextByPlayerId p = []

namespace GameplayMessageBroker

variable {κ : Type}

def empty : GameplayMessageBroker κ where
  listeners := []
  playerActionCallbacksWithContextByPlayerId := fun _ => []
  nodup := List.nodup_nil
  absent := fun _ _ => rfl

/-- The vector found under a key. -/
def callbacksWithContext (broker : GameplayMessageBroker κ) (playerId : PlayerId) : List κ :=
  broker.playerActionCallbacksWithContextByPlayerId playerId

/-- `operator[]` inserts an empty vector under a missing key. -/
def access (broker : GameplayMessageBroker κ) (playerId : PlayerId) : GameplayMessageBroker κ :=
  if h : playerId ∈ broker.listeners then broker
  else
    { broker with
      listeners := broker.listeners ++ [playerId]
      nodup := List.nodup_append.2 ⟨broker.nodup, List.nodup_singleton playerId, by
        intro p hp q hq heq
        rw [List.mem_singleton.1 hq] at heq
        exact h (heq ▸ hp)⟩
      absent := fun p hp => broker.absent p fun hp' => hp (List.mem_append_left _ hp') }

theorem mem_listeners_access (broker : GameplayMessageBroker κ) (p q : PlayerId) :
    q ∈ (broker.access p).listeners ↔ q = p ∨ q ∈ broker.listeners := by
  unfold access
  by_cases h : p ∈ broker.listeners
  · rw [dif_pos h]
    constructor
    · exact Or.inr
    · rintro (rfl | hq)
      · exact h
      · exact hq
  · rw [dif_neg h]
    simp [or_comm]

theorem callbacksWithContext_access (broker : GameplayMessageBroker κ) (p q : PlayerId) :
    (broker.access p).callbacksWithContext q = broker.callbacksWithContext q := by
  unfold access
  by_cases h : p ∈ broker.listeners
  · rw [dif_pos h]
  · rw [dif_neg h]
    rfl

theorem access_of_mem (broker : GameplayMessageBroker κ) {p : PlayerId}
    (h : p ∈ broker.listeners) : broker.access p = broker := by
  rw [access, dif_pos h]

/-- `playerActionCallbacksWithContextByPlayerId[playerId].push_back(...)` -/
def subscribeToPlayerActionMessages (broker : GameplayMessageBroker κ) (playerId : PlayerId)
    (entry : κ) : GameplayMessageBroker κ :=
  let broker' := broker.access playerId
  { broker' with
    playerActionCallbacksWithContextByPlayerId :=
      Function.update broker'.playerActionCallbacksWithContextByPlayerId playerId
        (broker'.playerActionCallbacksWithContextByPlayerId playerId ++ [entry])
    absent := by
      intro p hp
      have hne : p ≠ playerId := by
        intro heq
        exact hp ((mem_listeners_access broker playerId p).2 (Or.inl heq))
      rw [Function.update_of_ne hne]
      exact broker'.absent p hp }

/-- The entries of the context are erased from `callbacksWithContext`, which is a copy of the
vector in the map and is dropped on return. -/
def unsubscribeToPlayerActionMessages [DecidableEq κ] (broker : GameplayMessageBroker κ)
    (playerId : PlayerId) (entry : κ) : GameplayMessageBroker κ :=
  let broker' := broker.access playerId
  let callbacksWithContext := broker'.callbacksWithContext playerId
  let _callbacksWithContext := callbacksWithContext.filter (· ≠ entry)
  broker'

theorem listeners_subscribe_of_mem (broker : GameplayMessageBroker κ) {p : PlayerId}
    (h : p ∈ broker.listeners) (entry : κ) :
    (broker.subscribeToPlayerActionMessages p entry).listeners = broker.listeners := by
  show (broker.access p).listeners = broker.listeners
  rw [access_of_mem broker h]

/-- Subscribing appends to the vector of one player. -/
theorem callbacksWithContext_subscribe (broker : GameplayMessageBroker κ) (p q : PlayerId)
    (entry : κ) :
    (broker.subscribeToPlayerActionMessages p entry).callbacksWithContext q =
      broker.callbacksWithContext q ++ if q = p then [entry] else [] := by
  show Function.update (broker.access p).playerActionCallbacksWithContextByPlayerId p
    ((broker.access p).playerActionCallbacksWithContextByPlayerId p ++ [entry]) q = _
  rw [update_push]
  exact congrArg (· ++ _) (callbacksWithContext_access broker p q)

/-- Unsubscribing removes no entry at all. -/
theorem callbacksWithContext_unsubscribe [DecidableEq κ] (broker : GameplayMessageBroker κ)
    (p q : PlayerId) (entry : κ) :
    (broker.unsubscribeToPlayerActionMessages p entry).callbacksWithContext q =
      broker.callbacksWithContext q :=
  callbacksWithContext_access broker p q

theorem listeners_unsubscribe_of_mem [DecidableEq κ] (broker : GameplayMessageBroker κ)
    {p : PlayerId} (h : p ∈ broker.listeners) (entry : κ) :
    (broker.unsubscribeToPlayerActionMessages p entry).listeners = broker.listeners := by
  show (broker.access p).listeners = broker.listeners
  rw [access_of_mem broker h]

theorem mem_listeners_of_mem_callbacksWithContext (broker : GameplayMessageBroker κ)
    {p : PlayerId} {entry : κ} (h : entry ∈ broker.callbacksWithContext p) :
    p ∈ broker.listeners := by
  by_cases hp : p ∈ broker.listeners
  · exact hp
  · rw [callbacksWithContext, broker.absent p hp] at h
    cases h

/-! ## The order of a visit -/

/-- The keys in the order the map is visited. -/
def visitOrder (broker : GameplayMessageBroker κ) (preference : List PlayerId) : List PlayerId :=
  Transition.visitOrder broker.listeners preference

theorem mem_visitOrder (broker : GameplayMessageBroker κ) (preference : List PlayerId)
    (p : PlayerId) : p ∈ broker.visitOrder preference ↔ p ∈ broker.listeners :=
  Transition.mem_visitOrder broker.listeners preference p

theorem visitOrder_nodup (broker : GameplayMessageBroker κ) (preference : List PlayerId) :
    (broker.visitOrder preference).Nodup :=
  Transition.visitOrder_nodup broker.nodup preference

/-- The map may be visited in any order. -/
theorem visitOrder_of_perm (broker : GameplayMessageBroker κ) {order : List PlayerId}
    (h : order.Perm broker.listeners) : broker.visitOrder order = order :=
  Transition.visitOrder_of_perm broker.nodup h

end GameplayMessageBroker

end SamuraiKirby
