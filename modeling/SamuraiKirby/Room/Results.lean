/-
The results a room publishes.

`WellFormedResult` says what a game over may contain, given the input announced
for its round.  Each of its clauses rests on what the turn that broadcasts the
result has checked and on the invariant of the room.
-/
import SamuraiKirby.Room.Happening
import SamuraiKirby.Room.Verdict

namespace SamuraiKirby
namespace Room

open Transition

/-- What `m`, a game over with result `r`, may say when `announced` was the input asked for. -/
structure WellFormedResult (announced : Option GameplayInput) (m : GameplayMessage)
    (r : GameResultDTO) : Prop where
  assignment : ∀ a, (r.ofPlayer a).assignment = a
  paired : ∀ a, (r.ofPlayer a).timeToPress.isSome = (r.ofPlayer a).inputPressed.isSome
  winner : r.winningPlayer.isSome ↔ m ≠ .gameOverDraw r
  early : m = .gameOverEarlyInput r → ∃ loser, r.winningPlayer = some loser.other ∧
    (r.ofPlayer loser).inputPressed.isSome ∧ (r.ofPlayer loser.other).inputPressed = none
  wrong : m = .gameOverWrongInput r → ∃ loser i expected,
    r.winningPlayer = some loser.other ∧ (r.ofPlayer loser).inputPressed = some i ∧
      (r.ofPlayer loser.other).inputPressed = none ∧ announced = some expected ∧ i ≠ expected
  win : m = .gameOverWin r → ∃ winner i, r.winningPlayer = some winner ∧
    (r.ofPlayer winner).inputPressed = some i ∧
      ((r.ofPlayer winner.other).inputPressed = none → announced = some i)
  draw : m = .gameOverDraw r →
    r.player1.inputPressed.isSome = r.player2.inputPressed.isSome

/-- Judges the result a message carries, if it carries one. -/
def resultOfMessage : Monitor (Option GameplayInput) GameplayMessage where
  next := announce
  ok announced m := ∀ r, m.gameResult? = some r → WellFormedResult announced m r

/-- Judges every published result, remembering what was announced. -/
def resultForm : Monitor (Option GameplayInput) BrokerCall where
  next := rightWins.next
  ok announced call :=
    match call with
    | .publishGameplayMessage _ m => resultOfMessage.ok announced m
    | _ => True

variable {clock : Readings} {draw : Nat} {room room' : Room} {handler : Handler}
  {calls : List BrokerCall} {m : GameplayMessage} {ms : List GameplayMessage}
  {announced : Option GameplayInput}

/-! ## Reading publications -/

theorem resultOfMessage_ok_of_no_result (h : m.gameResult? = none) :
    resultOfMessage.ok announced m := by
  intro r hr
  rw [h] at hr
  cases hr

theorem accepts_of_no_result
    (h : ∀ id m, .publishGameplayMessage id m ∈ calls → m.gameResult? = none) :
    resultForm.Accepts announced calls := by
  induction calls generalizing announced with
  | nil => trivial
  | cons c calls ih =>
    refine ⟨?_, ih fun id m hm => h id m (List.mem_cons_of_mem _ hm)⟩
    cases c with
    | publishGameplayMessage id m =>
      exact resultOfMessage_ok_of_no_result (h id m (List.mem_cons_self ..))
    | _ => trivial

theorem accepts_broadcast (room : Room) (h : resultOfMessage.ok announced m) :
    resultForm.Accepts announced (room.broadcastGameplayMessage m) := by
  rw [broadcastGameplayMessage_eq]
  generalize room.recipients = ids
  cases hr : m.gameResult? with
  | none =>
    apply accepts_of_no_result
    intro id m' hm
    obtain ⟨id', -, heq⟩ := List.mem_map.1 hm
    cases heq
    exact hr
  | some r =>
    -- a result announces nothing, so every copy is judged alike
    have hann : announce announced m = announced := by
      cases m <;> first | rfl | cases hr
    induction ids with
    | nil => trivial
    | cons id ids ih =>
      refine ⟨h, ?_⟩
      simpa only [resultForm, rightWins, hann] using ih

theorem accepts_broadcastAll (hne : ms ≠ [] → room.recipients ≠ [])
    (h : resultOfMessage.Accepts announced ms) :
    resultForm.Accepts announced (room.broadcastAll ms) := by
  induction ms generalizing announced with
  | nil => trivial
  | cons m ms ih =>
    have hrec := hne (List.cons_ne_nil m ms)
    rw [broadcastAll, List.flatMap_cons, Monitor.accepts_append]
    refine ⟨accepts_broadcast room h.1, ?_⟩
    have hafter : resultForm.after announced (room.broadcastGameplayMessage m) =
        announce announced m := after_broadcast hrec
    rw [hafter]
    exact ih (fun _ => hrec) h.2

/-! ## Turns -/

/-- A result shows the assignments and the inputs of the players in the slots. -/
theorem ofPlayer_of_build {w : Option PlayerAssignment} {r : GameResultDTO}
    (hr : room.buildGameResultDTO w = .ok r) (a : PlayerAssignment) :
    ∃ p, room.players.get a = some p ∧ r.ofPlayer a = p.buildGameoverDTO := by
  unfold buildGameResultDTO at hr
  cases h1 : room.players.P1 with
  | none => simp [h1] at hr
  | some p1 =>
    cases h2 : room.players.P2 with
    | none => simp [h1, h2] at hr
    | some p2 =>
      simp only [h1, h2, value_some, ok_bind, pure_eq_ok, Except.ok.injEq] at hr
      subst hr
      cases a with
      | P1 => exact ⟨p1, h1, rfl⟩
      | P2 => exact ⟨p2, h2, rfl⟩

theorem assignment_of_build (h : WellFormed room) {w : Option PlayerAssignment}
    {r : GameResultDTO} (hr : room.buildGameResultDTO w = .ok r) (a : PlayerAssignment) :
    (r.ofPlayer a).assignment = a := by
  obtain ⟨p, hp, heq⟩ := ofPlayer_of_build hr a
  rw [heq]
  exact h.slot a p hp

theorem paired_of_build (h : WellFormed room) {w : Option PlayerAssignment}
    {r : GameResultDTO} (hr : room.buildGameResultDTO w = .ok r) (a : PlayerAssignment) :
    (r.ofPlayer a).timeToPress.isSome = (r.ofPlayer a).inputPressed.isSome := by
  obtain ⟨p, hp, heq⟩ := ofPlayer_of_build hr a
  rw [heq]
  exact (h.paired a p hp).declared

/-- A draw is declared when both players pass the same test of having pressed. -/
theorem draw_of_bothPlayers (pressed : Bool) {r : GameResultDTO}
    (htest : room.bothPlayers (fun p => p.inputPressed.isSome == pressed) = true)
    (hr : room.buildGameResultDTO none = .ok r) :
    r.player1.inputPressed.isSome = r.player2.inputPressed.isSome := by
  have hpressed : ∀ a, (r.ofPlayer a).inputPressed.isSome = pressed := by
    intro a
    obtain ⟨p, hp, heq⟩ := ofPlayer_of_build hr a
    rw [heq]
    exact eq_of_beq (of_bothPlayers htest hp)
  exact (hpressed .P1).trans (hpressed .P2).symm

theorem Turn.results (h : WellFormed room) (hann : Announced room announced)
    (ht : Turn clock draw room handler room' ms) : resultOfMessage.Accepts announced ms := by
  cases ht with
  | idle => trivial
  | firstCanPlay => trivial
  | allReady => exact ⟨resultOfMessage_ok_of_no_result rfl, trivial⟩
  | expectingInput => exact ⟨resultOfMessage_ok_of_no_result rfl, trivial⟩
  | replay => exact ⟨resultOfMessage_ok_of_no_result rfl, trivial⟩
  | earlyInput a p q i r hs hp hr =>
    obtain ⟨hw, hinputs⟩ := buildGameResultDTO_eq_ok hr
    have hpressed := (hinputs a p hp.player).trans hp.pressed
    have hother := (hinputs a.other q hp.other).trans hp.notPressed
    refine ⟨fun r' hr' => ?_, trivial⟩
    cases hr'
    exact {
      assignment := assignment_of_build h hr
      paired := paired_of_build h hr
      winner := by simp [hw]
      early := fun _ => ⟨a, hw, by rw [hpressed]; rfl, hother⟩
      wrong := nofun
      win := nofun
      draw := nofun }
  | wrongInput a p q i r hs hp hi hr =>
    obtain ⟨hw, hinputs⟩ := buildGameResultDTO_eq_ok hr
    have hpressed := (hinputs a p hp.player).trans hp.pressed
    have hother := (hinputs a.other q hp.other).trans hp.notPressed
    refine ⟨fun r' hr' => ?_, trivial⟩
    cases hr'
    exact {
      assignment := assignment_of_build h hr
      paired := paired_of_build h hr
      winner := by simp [hw]
      early := nofun
      wrong := fun _ => ⟨a, i, room.expectedInput, hw, hpressed, hother, hann hs, hi⟩
      win := nofun
      draw := nofun }
  | winAlone a p q i r t hs hp hi ht hd hr =>
    obtain ⟨hw, hinputs⟩ := buildGameResultDTO_eq_ok hr
    have hpressed := (hinputs a p hp.player).trans hp.pressed
    refine ⟨fun r' hr' => ?_, trivial⟩
    cases hr'
    exact {
      assignment := assignment_of_build h hr
      paired := paired_of_build h hr
      winner := by simp [hw]
      early := nofun
      wrong := nofun
      win := fun _ => ⟨a, i, hw, hpressed, fun _ => hi ▸ hann hs⟩
      draw := nofun }
  | winFirst a p q t t' r hs he hp hq ht ht' hlt hr =>
    obtain ⟨hw, hinputs⟩ := buildGameResultDTO_eq_ok hr
    obtain ⟨i, hi⟩ := Option.isSome_iff_exists.1 (of_bothPlayers he hp)
    obtain ⟨j, hj⟩ := Option.isSome_iff_exists.1 (of_bothPlayers he hq)
    have hpressed := (hinputs a p hp).trans hi
    have hother := (hinputs a.other q hq).trans hj
    refine ⟨fun r' hr' => ?_, trivial⟩
    cases hr'
    exact {
      assignment := assignment_of_build h hr
      paired := paired_of_build h hr
      winner := by simp [hw]
      early := nofun
      wrong := nofun
      win := fun _ => ⟨a, i, hw, hpressed, fun hnone => by cases hother.symm.trans hnone⟩
      draw := nofun }
  | drawTie p1 p2 t r hs he hp hq ht ht' hr =>
    refine ⟨fun r' hr' => ?_, trivial⟩
    cases hr'
    exact {
      assignment := assignment_of_build h hr
      paired := paired_of_build h hr
      winner := by simp [(buildGameResultDTO_eq_ok hr).1]
      early := nofun
      wrong := nofun
      win := nofun
      draw := fun _ => draw_of_bothPlayers true (by simpa [everyonePlayed] using he) hr }
  | drawTimeout reference r hs hn href hd hr =>
    refine ⟨fun r' hr' => ?_, trivial⟩
    cases hr'
    exact {
      assignment := assignment_of_build h hr
      paired := paired_of_build h hr
      winner := by simp [(buildGameResultDTO_eq_ok hr).1]
      early := nofun
      wrong := nofun
      win := nofun
      draw := fun _ => draw_of_bothPlayers false (by simpa [noOnePlayed] using hn) hr }

theorem Turn.announced_after (hann : Announced room announced)
    (ht : Turn clock draw room handler room' ms) :
    Announced room' (resultOfMessage.after announced ms) := by
  cases ht with
  | idle => exact hann
  | firstCanPlay => exact hann
  | expectingInput => exact fun _ => rfl
  | _ => exact nofun

theorem TickCase.results (h : WellFormed room) (hann : Announced room announced)
    (ht : TickCase clock draw room room' ms) : resultOfMessage.Accepts announced ms := by
  cases ht with
  | turn ht => exact ht.results h hann
  | twoTurns first second =>
    rw [Monitor.accepts_append]
    exact ⟨first.results h hann, second.results (first.wellFormed h) (first.announced_after hann)⟩

/-! ## Runs -/

theorem step_results {e : Event} (h : WellFormed room) (hann : Announced room announced)
    (hstep : room.step e = .ok (room', calls)) : resultForm.Accepts announced calls := by
  rcases step_cases h hstep with ⟨clock, draw, rfl, ht⟩ | hchange
  · obtain ⟨ms, rfl, hcase, hne⟩ := tick_cases h ht
    exact accepts_broadcastAll hne (hcase.results h hann)
  · apply accepts_of_no_result
    intro id m hm
    have hquiet := hchange.quiet hm
    cases m <;> first | rfl | cases hquiet

/-- Every result of every run is well formed. -/
theorem results_wellFormed (config : RoomConfig) (events : List Event) :
    ∃ room calls, run step (new config) events = .ok (room, calls) ∧
      resultForm.Accepts none calls := by
  obtain ⟨room, calls, hrun⟩ := run_ok config events
  refine ⟨room, calls, hrun, And.left (run_accepts (R := fun room announced => WellFormed room ∧
    Announced room announced) (fun r b e r' os hR hs => ?_)
    ⟨wellFormed_new config, fun hs => by cases hs⟩ hrun)⟩
  exact ⟨step_results hR.1 hR.2 hs, step_wellFormed hR.1 hs, (step_judged hR.1 hR.2 hs []).2⟩

end Room
end SamuraiKirby
