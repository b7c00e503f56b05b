/-
Conditions along a run of gameplay, and what follows from the steps meeting them.

A dispatch is four loops deep: connectivity messages, players, actions and
callbacks.  A `Guard` says what must hold before a connectivity message is
handled, before an action is passed to the callbacks and before one of the
callbacks is called.  The theorems of this file carry a fact about these single
steps through all the loops and through whole runs, once for invariants
(`Preserves`), once for properties that are lost exactly when the guard is
missed (`Decides`) and once for the absence of faults (`DecidesOk`).
-/
import SamuraiKirby.Gameplay.Invariant

namespace SamuraiKirby
namespace Gameplay

open Transition

structure Guard where
  /-- Before a connectivity message is handled, with the hub the dispatch started from. -/
  connectivity : MessageHub → Gameplay → PlayerConnectivityMessage → Prop
  /-- Before an action of a player is passed to a list of callbacks. -/
  action : Gameplay → PlayerId → PlayerActionMessage → List Subscriber → Prop
  /-- Before a callback is called, with the callbacks to be called after it. -/
  callback : Gameplay → PlayerId → PlayerActionMessage → Subscriber → List Subscriber → Prop

namespace Guard

variable (guard : Guard) (env : Environment)

/-- The guard holds while an action is passed to the callbacks. -/
def Action (playerId : PlayerId) (callbacksWithContext : List Subscriber) (gameplay : Gameplay)
    (message : PlayerActionMessage) : Prop :=
  guard.action gameplay playerId message callbacksWithContext ∧
    Along (call env playerId message)
      (fun gameplay c rest => guard.callback gameplay playerId message c rest) gameplay
      callbacksWithContext

/-- The guard holds while the actions of a player are handled. -/
def Player (hub : MessageHub) (gameplay : Gameplay) (playerId : PlayerId) : Prop :=
  Along (dispatchAction env playerId (gameplay.entries playerId))
    (fun gameplay' message _ =>
      guard.Action env playerId (gameplay.entries playerId) gameplay' message) gameplay
    (hub.playerActionMessagesByPlayerId playerId)

/-- The guard holds during a dispatch. -/
def Dispatch (hub : MessageHub) (preference : List PlayerId) (gameplay : Gameplay) : Prop :=
  Along dispatchConnectivity (fun gameplay message _ => guard.connectivity hub gameplay message)
      gameplay hub.playerConnectivityMessages ∧
    ∀ gameplay' effects,
      run dispatchConnectivity gameplay hub.playerConnectivityMessages =
        .ok (gameplay', effects) →
      Along (dispatchPlayer env hub)
        (fun gameplay playerId _ => guard.Player env hub gameplay playerId) gameplay'
        (gameplay'.messageBroker.visitOrder preference)

/-- The guard holds during a step; only a dispatch can miss it. -/
def Step (system : System) (e : System.Event) (_ : List System.Event) : Prop :=
  match e with
  | .dispatchMessages preference => guard.Dispatch env system.messageHub preference system.gameplay
  | _ => True

end Guard

instance Guard.decidableAction (guard : Guard) (env : Environment)
    [∀ g p m cs, Decidable (guard.action g p m cs)]
    [∀ g p m c rest, Decidable (guard.callback g p m c rest)] (p : PlayerId)
    (cs : List Subscriber) (g : Gameplay) (m : PlayerActionMessage) :
    Decidable (guard.Action env p cs g m) :=
  inferInstanceAs (Decidable (_ ∧ _))

instance Guard.decidablePlayer (guard : Guard) (env : Environment)
    [∀ g p m cs, Decidable (guard.action g p m cs)]
    [∀ g p m c rest, Decidable (guard.callback g p m c rest)] (hub : MessageHub) (g : Gameplay)
    (p : PlayerId) : Decidable (guard.Player env hub g p) :=
  decidableAlong _ _

instance Guard.decidableDispatch (guard : Guard) (env : Environment)
    [∀ hub g m, Decidable (guard.connectivity hub g m)]
    [∀ g p m cs, Decidable (guard.action g p m cs)]
    [∀ g p m c rest, Decidable (guard.callback g p m c rest)] (hub : MessageHub)
    (preference : List PlayerId) (g : Gameplay) :
    Decidable (guard.Dispatch env hub preference g) :=
  inferInstanceAs (Decidable (_ ∧ _))

instance Guard.decidableStep (guard : Guard) (env : Environment)
    [∀ hub g m, Decidable (guard.connectivity hub g m)]
    [∀ g p m cs, Decidable (guard.action g p m cs)]
    [∀ g p m c rest, Decidable (guard.callback g p m c rest)] (system : System)
    (e : System.Event) (events : List System.Event) :
    Decidable (guard.Step env system e events) :=
  match e with
  | .publishPlayerConnectivityMessage _ => isTrue trivial
  | .publishPlayerActionMessage _ _ => isTrue trivial
  | .dispatchMessages preference =>
    inferInstanceAs (Decidable (guard.Dispatch env system.messageHub preference system.gameplay))
  | .tickAllRooms _ _ => isTrue trivial

variable {guard : Guard} {env : Environment} {gameplay gameplay' : Gameplay} {p : PlayerId}
  {m : PlayerActionMessage} {effects : List Effect} {P Q : Gameplay → Prop}

/-! ## The invariant along a dispatch -/

/-- While the callbacks of a copy are called, they remain entries of the player. -/
structure Calling (p : PlayerId) (callbacksWithContext : List Subscriber) (gameplay : Gameplay) :
    Prop where
  inv : gameplay.Inv
  subset : ∀ c ∈ callbacksWithContext, c ∈ gameplay.entries p

theorem Calling.call {callbacksWithContext : List Subscriber} {c : Subscriber}
    (hs : Calling p callbacksWithContext gameplay) (hc : c ∈ callbacksWithContext)
    (hcall : gameplay.call env p m c = .ok (gameplay', effects)) :
    Calling p callbacksWithContext gameplay' := by
  have hcase := call_cases hs.inv.wellFormed hcall
  exact ⟨hs.inv.call (hs.subset c hc) hcase,
    fun c' hc' => (hcase.entries_prefix p).subset (hs.subset c' hc')⟩

theorem Calling.run {callbacksWithContext calls : List Subscriber}
    (hs : Calling p callbacksWithContext gameplay) (hsub : ∀ c ∈ calls, c ∈ callbacksWithContext)
    (hrun : Transition.run (Gameplay.call env p m) gameplay calls = .ok (gameplay', effects)) :
    Calling p callbacksWithContext gameplay' := by
  refine run_invariant_along (C := fun _ _ _ => True) (fun g c rest g' os hc hs _ hcall => ?_) hs
    (along_true _ _) hrun
  exact hs.call (hsub c hc) hcall

theorem Calling.dispatchAction {callbacksWithContext : List Subscriber}
    (hs : Calling p callbacksWithContext gameplay)
    (hrun : gameplay.dispatchAction env p callbacksWithContext m = .ok (gameplay', effects)) :
    Calling p callbacksWithContext gameplay' := by
  obtain ⟨gameplay₁, os₁, os₂, hcalls, hpop, -⟩ := seq_eq_ok.1 hrun
  cases hpop
  exact hs.run (fun _ hc => hc) hcalls

theorem calling_entries (hinv : gameplay.Inv) (p : PlayerId) :
    Calling p (gameplay.entries p) gameplay := ⟨hinv, fun _ hc => hc⟩

theorem dispatchPlayer_inv {hub : MessageHub} (hinv : gameplay.Inv)
    (hrun : gameplay.dispatchPlayer env hub p = .ok (gameplay', effects)) : gameplay'.Inv := by
  have hs : Calling p (gameplay.entries p) gameplay' :=
    run_invariant (fun _ _ _ _ hs hact => hs.dispatchAction hact) (calling_entries hinv p) hrun
  exact hs.inv

theorem dispatchConnectivity_inv {message : PlayerConnectivityMessage} (hinv : gameplay.Inv)
    (h : gameplay.dispatchConnectivity message = .ok (gameplay', effects)) : gameplay'.Inv :=
  hinv.connectivity (dispatchConnectivity_cases hinv.wellFormed h)

theorem run_dispatchConnectivity_inv {messages : List PlayerConnectivityMessage}
    (hinv : gameplay.Inv)
    (h : run dispatchConnectivity gameplay messages = .ok (gameplay', effects)) :
    gameplay'.Inv :=
  run_invariant (fun _ _ _ _ hinv hstep => dispatchConnectivity_inv hinv hstep) hinv h

theorem run_dispatchPlayer_inv {hub : MessageHub} {players : List PlayerId}
    (hinv : gameplay.Inv)
    (h : run (dispatchPlayer env hub) gameplay players = .ok (gameplay', effects)) :
    gameplay'.Inv :=
  run_invariant (fun _ _ _ _ hinv hstep => dispatchPlayer_inv hinv hstep) hinv h

theorem dispatchMessages_inv {hub : MessageHub} {preference : List PlayerId}
    (hinv : gameplay.Inv)
    (h : gameplay.dispatchMessages env hub preference = .ok (gameplay', effects)) :
    gameplay'.Inv := by
  obtain ⟨gameplay₁, os₁, os₂, hconn, hplayers, -⟩ := seq_eq_ok.1 h
  exact run_dispatchPlayer_inv (run_dispatchConnectivity_inv hinv hconn) hplayers

/-- What a step does to gameplay: nothing, a dispatch, or a tick, which moves nobody. -/
inductive StepCase (env : Environment) (system : System) : System.Event → System → List Effect →
    Prop where
  | publishConnectivity (message : PlayerConnectivityMessage) :
      StepCase env system (.publishPlayerConnectivityMessage message)
        { system with messageHub := system.messageHub.pushConnectivity message } []
  | publishAction (playerId : PlayerId) (message : PlayerActionMessage) :
      StepCase env system (.publishPlayerActionMessage playerId message)
        { system with messageHub := system.messageHub.pushAction playerId message } []
  | dispatch (preference : List PlayerId) (gameplay' : Gameplay) (effects : List Effect)
      (h : system.gameplay.dispatchMessages env system.messageHub preference =
        .ok (gameplay', effects)) :
      StepCase env system (.dispatchMessages preference)
        ⟨system.messageHub.replay effects, gameplay'⟩ effects
  | tick (readings : RoomId → Readings) (draws : RoomId → Nat) (gameplay' : Gameplay)
      (effects : List Effect) (h : Unmoved system.gameplay gameplay')
      (hpublished : ∀ o ∈ effects, ∃ q message, o = .published q message) :
      StepCase env system (.tickAllRooms readings draws)
        ⟨system.messageHub.replay effects, gameplay'⟩ effects

theorem step_cases {system system' : System} {e : System.Event} (hinv : system.gameplay.Inv)
    (hstep : system.step env e = .ok (system', effects)) :
    StepCase env system e system' effects := by
  cases e with
  | publishPlayerConnectivityMessage message =>
    cases hstep
    exact .publishConnectivity message
  | publishPlayerActionMessage playerId message =>
    cases hstep
    exact .publishAction playerId message
  | dispatchMessages preference =>
    cases hd : system.gameplay.dispatchMessages env system.messageHub preference with
    | error fault =>
      simp only [System.step, System.perform, hd] at hstep
      cases hstep
    | ok outcome =>
      simp only [System.step, System.perform, hd] at hstep
      cases hstep
      exact .dispatch preference _ _ hd
  | tickAllRooms readings draws =>
    obtain ⟨gameplay', os, htick, hunmoved, hpublished⟩ :=
      tickAllRooms_unmoved readings draws hinv.wellFormed
    simp only [System.step, System.perform, htick] at hstep
    cases hstep
    exact .tick readings draws gameplay' _ hunmoved hpublished

theorem step_inv {system system' : System} {e : System.Event} (hinv : system.gameplay.Inv)
    (hstep : system.step env e = .ok (system', effects)) : system'.gameplay.Inv := by
  cases step_cases hinv hstep with
  | publishConnectivity message => exact hinv
  | publishAction playerId message => exact hinv
  | dispatch preference gameplay' effects h => exact dispatchMessages_inv hinv h
  | tick readings draws gameplay' effects h => exact hinv.unmoved h

/-- Every gameplay state a run reaches has the invariant. -/
theorem run_inv {events : List System.Event} {system : System}
    (hrun : run (System.step env) .new events = .ok (system, effects)) : system.gameplay.Inv :=
  run_invariant (P := fun s : System => s.gameplay.Inv) (fun _ _ _ _ h hs => step_inv h hs)
    inv_new hrun

/-! ## Invariants under a guard -/

/-- Steps that meet the guard keep `P`.  The callbacks an action is passed to start with the
one of `Gameplay`. -/
structure Preserves (guard : Guard) (P : Gameplay → Prop) : Prop where
  connectivity : ∀ {hub gameplay message gameplay' effects}, Inv gameplay → P gameplay →
    guard.connectivity hub gameplay message →
    ConnectivityCase gameplay message gameplay' effects → P gameplay'
  action : ∀ {env gameplay p m callbacksWithContext gameplay' effects},
    Calling p callbacksWithContext gameplay →
    (callbacksWithContext = [] ∨ ∃ rest, callbacksWithContext = .gameplay :: rest) →
    P gameplay → guard.Action env p callbacksWithContext gameplay m →
    Transition.run (Gameplay.call env p m) gameplay callbacksWithContext =
      .ok (gameplay', effects) → P gameplay'
  unmoved : ∀ {gameplay gameplay'}, P gameplay → Unmoved gameplay gameplay' → P gameplay'

/-- Callbacks that keep `P` keep it through an action. -/
theorem run_call_preserves {C : Gameplay → Subscriber → List Subscriber → Prop}
    (hcallback : ∀ {gameplay c rest gameplay' effects}, Inv gameplay → P gameplay →
      c ∈ gameplay.entries p → C gameplay c rest →
      CallCase p m gameplay c gameplay' effects → P gameplay')
    {callbacksWithContext : List Subscriber} (hs : Calling p callbacksWithContext gameplay)
    (hP : P gameplay) (hC : Along (call env p m) C gameplay callbacksWithContext)
    (hrun : run (call env p m) gameplay callbacksWithContext = .ok (gameplay', effects)) :
    P gameplay' := by
  refine run_invariant_under (fun g c g' os hc hs hcall => hs.call hc hcall)
    (fun g c rest g' os hc hs hP hC hcall => ?_) hs hP hC hrun
  exact hcallback hs.inv hP (hs.subset c hc) hC (call_cases hs.inv.wellFormed hcall)

/-- Callbacks that keep `P` whatever the action keep it through all actions of the player. -/
theorem dispatchPlayer_preserves {hub : MessageHub}
    (hcallback : ∀ {gameplay m c gameplay' effects}, Inv gameplay → P gameplay →
      c ∈ gameplay.entries p → gameplay.call env p m c = .ok (gameplay', effects) → P gameplay')
    (hinv : gameplay.Inv) (hP : P gameplay)
    (hrun : gameplay.dispatchPlayer env hub p = .ok (gameplay', effects)) : P gameplay' := by
  refine run_invariant_under (I := Calling p (gameplay.entries p)) (C := fun _ _ _ => True)
    (fun g m g' os _ hs hact => hs.dispatchAction hact) (fun g m rest g' os _ hs hP _ hact => ?_)
    (calling_entries hinv p) hP (along_true _ _) hrun
  obtain ⟨g₁, os₁, os₂, hcalls, hpop, -⟩ := seq_eq_ok.1 hact
  cases hpop
  exact run_invariant_under (C := fun _ _ _ => True)
    (fun g c g' os hc hs hcall => hs.call hc hcall)
    (fun g c rest g' os hc hs hP _ hcall => hcallback hs.inv hP (hs.subset c hc) hcall) hs hP
    (along_true _ _) hcalls

theorem run_dispatchPlayer_preserves {hub : MessageHub} {players : List PlayerId}
    (hplayer : ∀ {gameplay q gameplay' effects}, Inv gameplay → P gameplay →
      gameplay.dispatchPlayer env hub q = .ok (gameplay', effects) → P gameplay')
    (hinv : gameplay.Inv) (hP : P gameplay)
    (hrun : run (dispatchPlayer env hub) gameplay players = .ok (gameplay', effects)) :
    P gameplay' := by
  refine run_invariant_under (C := fun _ _ _ => True)
    (fun g q g' os _ hinv hstep => dispatchPlayer_inv hinv hstep)
    (fun g q rest g' os _ hinv hP _ hstep => ?_) hinv hP
    (along_true _ _) hrun
  exact hplayer hinv hP hstep

theorem Calling.tail {c : Subscriber} {rest : List Subscriber}
    (hs : Calling p (c :: rest) gameplay) : Calling p rest gameplay :=
  ⟨hs.inv, fun c' hc' => hs.subset c' (List.mem_cons_of_mem _ hc')⟩

theorem Preserves.dispatchPlayer (h : Preserves guard P) {hub : MessageHub}
    (hinv : gameplay.Inv) (hP : P gameplay) (hC : guard.Player env hub gameplay p)
    (hrun : gameplay.dispatchPlayer env hub p = .ok (gameplay', effects)) : P gameplay' := by
  refine run_invariant_under (I := Calling p (gameplay.entries p))
    (fun g m g' os _ hs hact => hs.dispatchAction hact) (fun g m rest g' os _ hs hP hC hact => ?_)
    (calling_entries hinv p) hP hC hrun
  obtain ⟨g₁, os₁, os₂, hcalls, hpop, -⟩ := seq_eq_ok.1 hact
  cases hpop
  exact h.action hs (hinv.head p) hP hC hcalls

theorem Preserves.dispatchMessages (h : Preserves guard P) {hub : MessageHub}
    {preference : List PlayerId} (hinv : gameplay.Inv) (hP : P gameplay)
    (hC : guard.Dispatch env hub preference gameplay)
    (hrun : gameplay.dispatchMessages env hub preference = .ok (gameplay', effects)) :
    P gameplay' := by
  obtain ⟨gameplay₁, os₁, os₂, hconn, hplayers, -⟩ := seq_eq_ok.1 hrun
  have hfirst : P gameplay₁ := by
    refine run_invariant_under (fun g message g' os _ hinv hstep => ?_)
      (fun g message rest g' os _ hinv hP hC hstep => ?_) hinv hP hC.1 hconn
    · exact dispatchConnectivity_inv hinv hstep
    · exact h.connectivity hinv hP hC (dispatchConnectivity_cases hinv.wellFormed hstep)
  refine run_invariant_under (fun g p g' os _ hinv hstep => ?_)
    (fun g p rest g' os _ hinv hP hC hstep => ?_) (run_dispatchConnectivity_inv hinv hconn) hfirst
    (hC.2 _ _ hconn) hplayers
  · exact dispatchPlayer_inv hinv hstep
  · exact h.dispatchPlayer hinv hP hC hstep

theorem Preserves.step (h : Preserves guard P) {system system' : System} {e : System.Event}
    {events : List System.Event} (hinv : system.gameplay.Inv) (hP : P system.gameplay)
    (hC : guard.Step env system e events)
    (hstep : system.step env e = .ok (system', effects)) : P system'.gameplay := by
  cases step_cases hinv hstep with
  | publishConnectivity message => exact hP
  | publishAction playerId message => exact hP
  | dispatch preference gameplay' effects hd => exact h.dispatchMessages hinv hP hC hd
  | tick readings draws gameplay' effects hu => exact h.unmoved hP hu

/-- Every run whose steps meet the guard keeps `P`. -/
theorem Preserves.run (h : Preserves guard P) (hnew : P new) {events : List System.Event}
    {system : System} (hC : Along (System.step env) (guard.Step env) .new events)
    (hrun : run (System.step env) .new events = .ok (system, effects)) : P system.gameplay := by
  refine run_invariant_under (I := fun s : System => s.gameplay.Inv)
    (P := fun s : System => P s.gameplay) (fun s e s' os _ hinv hstep => ?_)
    (fun s e events s' os _ hinv hP hC hstep => ?_) inv_new hnew hC hrun
  · exact step_inv hinv hstep
  · exact h.step hinv hP hC hstep

/-! ## Properties that the guard decides -/

/-- A step keeps `Q` exactly when it meets the guard, and never restores it. -/
structure Decides (guard : Guard) (Q : Gameplay → Prop) : Prop where
  connectivity : ∀ {hub gameplay message gameplay' effects}, Inv gameplay →
    ConnectivityCase gameplay message gameplay' effects →
    (Q gameplay' ↔ Q gameplay ∧ guard.connectivity hub gameplay message)
  action : ∀ gameplay p m callbacksWithContext, guard.action gameplay p m callbacksWithContext
  callback : ∀ {gameplay p m c rest gameplay' effects}, Inv gameplay →
    c ∈ gameplay.entries p → CallCase p m gameplay c gameplay' effects →
    (Q gameplay' ↔ Q gameplay ∧ guard.callback gameplay p m c rest)
  unmoved : ∀ {gameplay gameplay'}, Unmoved gameplay gameplay' → (Q gameplay' ↔ Q gameplay)

theorem Decides.dispatchAction (h : Decides guard Q) {callbacksWithContext : List Subscriber}
    (hs : Calling p callbacksWithContext gameplay)
    (hrun : gameplay.dispatchAction env p callbacksWithContext m = .ok (gameplay', effects)) :
    Q gameplay' ↔ Q gameplay ∧ guard.Action env p callbacksWithContext gameplay m := by
  obtain ⟨gameplay₁, os₁, os₂, hcalls, hpop, -⟩ := seq_eq_ok.1 hrun
  cases hpop
  have hiff : Q gameplay' ↔ Q gameplay ∧ Along (Gameplay.call env p m)
      (fun g c rest => guard.callback g p m c rest) gameplay callbacksWithContext := by
    refine run_iff_along (P := Calling p callbacksWithContext)
      (fun g c rest g' os hc hs hcall => ?_) (fun g c g' os hc hs hcall => ?_) hs hcalls
    · exact h.callback hs.inv (hs.subset c hc) (call_cases hs.inv.wellFormed hcall)
    · exact hs.call hc hcall
  rw [hiff]
  exact and_congr_right fun _ => ⟨fun ha => ⟨h.action _ _ _ _, ha⟩, fun ha => ha.2⟩

theorem Decides.dispatchPlayer (h : Decides guard Q) {hub : MessageHub} (hinv : gameplay.Inv)
    (hrun : gameplay.dispatchPlayer env hub p = .ok (gameplay', effects)) :
    Q gameplay' ↔ Q gameplay ∧ guard.Player env hub gameplay p := by
  refine run_iff_along (P := Calling p (gameplay.entries p))
    (fun g m rest g' os _ hs hact => ?_) (fun g m g' os _ hs hact => ?_)
    (calling_entries hinv p) hrun
  · exact h.dispatchAction hs hact
  · exact hs.dispatchAction hact

theorem Decides.dispatchMessages (h : Decides guard Q) {hub : MessageHub}
    {preference : List PlayerId} (hinv : gameplay.Inv)
    (hrun : gameplay.dispatchMessages env hub preference = .ok (gameplay', effects)) :
    Q gameplay' ↔ Q gameplay ∧ guard.Dispatch env hub preference gameplay := by
  obtain ⟨gameplay₁, os₁, os₂, hconn, hplayers, -⟩ := seq_eq_ok.1 hrun
  have hinv₁ := run_dispatchConnectivity_inv hinv hconn
  have hfirst : Q gameplay₁ ↔ Q gameplay ∧ Along dispatchConnectivity
      (fun g message _ => guard.connectivity hub g message) gameplay
        hub.playerConnectivityMessages := by
    refine run_iff_along (P := Inv) (fun g message rest g' os _ hg hstep => ?_)
      (fun g message g' os _ hg hstep => ?_) hinv hconn
    · exact h.connectivity hg (dispatchConnectivity_cases hg.wellFormed hstep)
    · exact dispatchConnectivity_inv hg hstep
  have hsecond : Q gameplay' ↔ Q gameplay₁ ∧ Along (Gameplay.dispatchPlayer env hub)
      (fun g p _ => guard.Player env hub g p) gameplay₁
        (gameplay₁.messageBroker.visitOrder preference) := by
    refine run_iff_along (P := Inv) (fun g p rest g' os _ hg hstep => ?_)
      (fun g p g' os _ hg hstep => ?_) hinv₁ hplayers
    · exact h.dispatchPlayer hg hstep
    · exact dispatchPlayer_inv hg hstep
  rw [hsecond, hfirst, and_assoc]
  refine and_congr_right fun _ => and_congr_right fun _ => ⟨fun ha g os hg => ?_, fun ha => ?_⟩
  · rw [hconn] at hg
    cases hg
    exact ha
  · exact ha _ _ hconn

theorem Decides.step (h : Decides guard Q) {system system' : System} {e : System.Event}
    {events : List System.Event} (hinv : system.gameplay.Inv)
    (hstep : system.step env e = .ok (system', effects)) :
    Q system'.gameplay ↔ Q system.gameplay ∧ guard.Step env system e events := by
  cases step_cases hinv hstep with
  | publishConnectivity message => exact ⟨fun hq => ⟨hq, trivial⟩, fun hq => hq.1⟩
  | publishAction playerId message => exact ⟨fun hq => ⟨hq, trivial⟩, fun hq => hq.1⟩
  | dispatch preference gameplay' effects hd => exact h.dispatchMessages hinv hd
  | tick readings draws gameplay' effects hu =>
    rw [h.unmoved hu]
    exact ⟨fun hq => ⟨hq, trivial⟩, fun hq => hq.1⟩

/-- A run ends with `Q` exactly when all its steps meet the guard. -/
theorem Decides.run (h : Decides guard Q) (hnew : Q new) {events : List System.Event}
    {system : System} (hrun : run (System.step env) .new events = .ok (system, effects)) :
    Q system.gameplay ↔ Along (System.step env) (guard.Step env) .new events := by
  have hiff : Q system.gameplay ↔
      Q new ∧ Along (System.step env) (guard.Step env) .new events := by
    refine run_iff_along (P := fun s : System => s.gameplay.Inv)
      (Q := fun s : System => Q s.gameplay)
      (fun s e events s' os _ hs hstep => ?_) (fun s e s' os _ hs hstep => ?_) inv_new hrun
    · exact h.step hs hstep
    · exact step_inv hs hstep
  rw [hiff]
  exact ⟨fun h => h.2, fun h => ⟨hnew, h⟩⟩

/-! ## Faults that the guard decides -/

/-- Passing an action to its callbacks succeeds exactly when it meets the guard. -/
structure DecidesOk (guard : Guard) : Prop where
  connectivity : ∀ hub gameplay message, guard.connectivity hub gameplay message
  action : ∀ {env gameplay p m callbacksWithContext}, Calling p callbacksWithContext gameplay →
    ((∃ r, Transition.run (Gameplay.call env p m) gameplay callbacksWithContext = .ok r) ↔
      guard.Action env p callbacksWithContext gameplay m)

theorem DecidesOk.dispatchPlayer (h : DecidesOk guard) {hub : MessageHub} (hinv : gameplay.Inv) :
    (∃ r, gameplay.dispatchPlayer env hub p = .ok r) ↔ guard.Player env hub gameplay p := by
  refine run_ok_iff_along (P := Calling p (gameplay.entries p)) (fun g m rest _ hs => ?_)
    (fun g m g' os _ hs hact => ?_) (calling_entries hinv p)
  · rw [← h.action hs]
    constructor
    · rintro ⟨r, hr⟩
      obtain ⟨g', os₁, os₂, hcalls, -, -⟩ := seq_eq_ok.1 hr
      exact ⟨_, hcalls⟩
    · rintro ⟨⟨g', os⟩, hcalls⟩
      exact ⟨_, seq_eq_ok.2 ⟨g', os, _, hcalls, rfl, rfl⟩⟩
  · exact hs.dispatchAction hact

theorem run_dispatchConnectivity_ok (gameplay : Gameplay)
    (messages : List PlayerConnectivityMessage) :
    ∃ gameplay' effects,
      Transition.run dispatchConnectivity gameplay messages = .ok (gameplay', effects) :=
  run_total (P := fun _ => True) (fun g message _ => dispatchConnectivity_ok g message)
    (fun _ _ _ _ _ _ => trivial) trivial messages

theorem DecidesOk.dispatchMessages (h : DecidesOk guard) {hub : MessageHub}
    {preference : List PlayerId} (hinv : gameplay.Inv) :
    (∃ r, gameplay.dispatchMessages env hub preference = .ok r) ↔
      guard.Dispatch env hub preference gameplay := by
  obtain ⟨gameplay₁, os₁, hconn⟩ :=
    run_dispatchConnectivity_ok gameplay hub.playerConnectivityMessages
  have hinv₁ := run_dispatchConnectivity_inv hinv hconn
  have hplayers : (∃ r, Transition.run (Gameplay.dispatchPlayer env hub) gameplay₁
      (gameplay₁.messageBroker.visitOrder preference) = .ok r) ↔
      Along (Gameplay.dispatchPlayer env hub) (fun g p _ => guard.Player env hub g p) gameplay₁
        (gameplay₁.messageBroker.visitOrder preference) := by
    refine run_ok_iff_along (P := Inv) (fun g p rest _ hg => ?_)
      (fun g p g' os _ hg hstep => ?_) hinv₁
    · exact h.dispatchPlayer hg
    · exact dispatchPlayer_inv hg hstep
  constructor
  · rintro ⟨⟨gameplay', os⟩, hr⟩
    obtain ⟨g, o₁, o₂, hconn', hr', -⟩ := seq_eq_ok.1 hr
    rw [hconn] at hconn'
    cases hconn'
    refine ⟨along_of_forall (fun g message _ => h.connectivity hub g message) _ _,
      fun g os hg => ?_⟩
    rw [hconn] at hg
    cases hg
    exact hplayers.1 ⟨_, hr'⟩
  · rintro ⟨-, hC⟩
    obtain ⟨⟨gameplay', os₂⟩, hr⟩ := hplayers.2 (hC _ _ hconn)
    exact ⟨_, seq_eq_ok.2 ⟨gameplay₁, os₁, os₂, hconn, hr, rfl⟩⟩

theorem DecidesOk.step (h : DecidesOk guard) {system : System} (hinv : system.gameplay.Inv)
    (e : System.Event) (events : List System.Event) :
    (∃ r, system.step env e = .ok r) ↔ guard.Step env system e events := by
  cases e with
  | publishPlayerConnectivityMessage message => exact ⟨fun _ => trivial, fun _ => ⟨_, rfl⟩⟩
  | publishPlayerActionMessage playerId message => exact ⟨fun _ => trivial, fun _ => ⟨_, rfl⟩⟩
  | dispatchMessages preference =>
    refine Iff.trans ?_ (h.dispatchMessages hinv)
    cases hd : system.gameplay.dispatchMessages env system.messageHub preference with
    | error fault => simp [System.step, System.perform, hd]
    | ok outcome => simp [System.step, System.perform, hd]
  | tickAllRooms readings draws =>
    obtain ⟨gameplay', os, htick, -, -⟩ :=
      tickAllRooms_unmoved readings draws hinv.wellFormed
    refine ⟨fun _ => trivial, fun _ => ⟨(⟨system.messageHub.replay os, gameplay'⟩, os), ?_⟩⟩
    simp only [System.step, System.perform, htick]

/-- A run ends without a fault exactly when all its steps meet the guard. -/
theorem DecidesOk.run (h : DecidesOk guard) (events : List System.Event) :
    (∃ r, run (System.step env) .new events = .ok r) ↔
      Along (System.step env) (guard.Step env) .new events :=
  run_ok_iff_along (P := fun s : System => s.gameplay.Inv)
    (fun _ e events _ hs => h.step hs e events) (fun _ _ _ _ _ hs hstep => step_inv hs hstep)
    inv_new

end Gameplay
end SamuraiKirby
