/-
The parser of the library at both ends of the connection.

What gameplay sends is an object whose integers fit their types: the codes of
enumerations, and the times of the presses, which clients have sent as integers of 32
bits.  So the parser that reads what clients send reads what the server sends as well,
and gets back the messages (`lines_of_run_parsed`).
-/
import SamuraiKirby.Network.Presses
import SamuraiKirby.Network.RoundTrip
import SamuraiKirby.Network.Sockets

namespace SamuraiKirby

open Transition

/-! ## Objects -/

namespace Json

variable {key : Bytes} {value : Json} {members : List (Bytes × Json)}
  {pairs : List (String × Json)}

theorem sorted_emplace (h : (members.map Prod.fst).Pairwise (· < ·)) :
    ((emplace key value members).map Prod.fst).Pairwise (· < ·) := by
  induction members with
  | nil => exact List.pairwise_singleton _ _
  | cons other rest ih =>
    have hrest := (List.pairwise_cons.1 h).2
    unfold emplace
    split_ifs with hlt heq
    · exact sorted_cons hlt h
    · exact h
    · exact sorted_behind hlt heq h (fun _ => mem_emplace) (ih hrest)

theorem WellFormedMembers.emplace (h : WellFormedMembers members) (hkey : Coding.Utf8 key)
    (hvalue : WellFormed value) : WellFormedMembers (emplace key value members) where
  keys member hmember := by
    rcases mem_emplace hmember with rfl | hmember
    · exact hkey
    · exact h.keys member hmember
  sorted := sorted_emplace h.sorted
  values member hmember := by
    rcases mem_emplace hmember with rfl | hmember
    · exact hvalue
    · exact h.values member hmember

theorem WellFormed.initializer (hkeys : ∀ pair ∈ pairs, ∀ b ∈ ascii pair.1, b ≤ 0x7F)
    (hvalues : ∀ pair ∈ pairs, WellFormed pair.2) : WellFormed (initializer pairs) := by
  have hmembers : WellFormedMembers (emplaceAll pairs) :=
    List.foldlRecOn (motive := WellFormedMembers) pairs _ .nil fun members hmembers pair hpair =>
      hmembers.emplace (Coding.Utf8.of_ascii (hkeys pair hpair)) (hvalues pair hpair)
  exact hmembers.object

theorem WellFormed.ofOption {α : Type} {encode : α → Json} {x : Option α}
    (h : ∀ a ∈ x, WellFormed (encode a)) : WellFormed (ofOption encode x) := by
  cases x with
  | none => exact .null
  | some a => exact h a rfl

/-- All strings in a well-formed value are UTF-8. -/
theorem WellFormed.utf8 {json : Json} {string : Bytes} (h : json.WellFormed)
    (hstring : json.HasString string) : Coding.Utf8 string := by
  induction hstring with
  | string =>
    cases h with
    | string hvalue => exact hvalue
  | element hmem _ ih =>
    cases h with
    | array helements => exact ih (helements _ hmem)
  | key hmem =>
    cases h with
    | object hkeys hsorted hvalues => exact hkeys _ hmem
  | value hmem _ ih =>
    cases h with
    | object hkeys hsorted hvalues => exact ih (hvalues _ hmem)

theorem wellFormed_code (code : UInt32) : WellFormed (.number code.toNat) := by
  have hlt := code.toNat_lt
  exact .number (by omega) (by omega)

end Json

/-! ## Messages -/

/-- A value of `int`. -/
def FitsInt (t : Int) : Prop := -2147483648 ≤ t ∧ t ≤ 2147483647

/-- The times in a result are values of `int`. -/
def GameplayMessage.FitsInt (message : GameplayMessage) : Prop :=
  ∀ r, message.gameResult? = some r → ∀ a, ∀ t ∈ (r.ofPlayer a).timeToPress, SamuraiKirby.FitsInt t

namespace Serializer

open Json

variable {message : GameplayMessage} {strtod : Bytes → Option Rat} {dumpFloat : Rat → Bytes}

theorem wellFormed_assignment (assignment : PlayerAssignment) :
    WellFormed assignment.toJson := by
  cases assignment with
  | P1 => exact .number (by decide) (by decide)
  | P2 => exact .number (by decide) (by decide)

theorem wellFormed_lobbyJson {player : PlayerLobbyDTO} (h : Coding.Utf8 player.nickname) :
    WellFormed (lobbyJson player) :=
  .initializer (by simp [ascii])
    (by simp [WellFormed.string h, wellFormed_assignment, WellFormed.boolean])

theorem wellFormed_playerResultJson {player : PlayerGameResultDTO}
    (h : ∀ t ∈ player.timeToPress, FitsInt t) : WellFormed (playerResultJson player) := by
  have htime : WellFormed (ofOption .number player.timeToPress) :=
    .ofOption fun t ht => .number (by have := (h t ht).1; omega) (by have := (h t ht).2; omega)
  have hinput : WellFormed (ofOption GameplayInput.toJson player.inputPressed) :=
    .ofOption fun input _ => wellFormed_code input.code
  exact .initializer (by simp [ascii]) (by simp [wellFormed_assignment, hinput, htime])

theorem wellFormed_serializeGameResult {r : GameResultDTO}
    (h : ∀ a, ∀ t ∈ (r.ofPlayer a).timeToPress, FitsInt t) :
    WellFormed (serializeGameResult r) := by
  have h1 : WellFormed (playerResultJson r.player1) := wellFormed_playerResultJson (h .P1)
  have h2 : WellFormed (playerResultJson r.player2) := wellFormed_playerResultJson (h .P2)
  exact .initializer (by simp [ascii])
    (by simp [WellFormed.ofOption, wellFormed_assignment, h1, h2])

theorem wellFormed_jsonMessage (h : message.Utf8Nicknames) (hfits : message.FitsInt) :
    WellFormed (jsonMessage message) := by
  have hcode := wellFormed_code message.messageType
  cases message with
  | roomJoined playerAssignment otherPlayer =>
    have hother : WellFormed (ofOption lobbyJson otherPlayer) :=
      .ofOption fun player hplayer => wellFormed_lobbyJson (h player.nickname (by
        cases hplayer
        exact List.mem_singleton_self _))
    exact .initializer (by simp [ascii]) (by simp [hcode, wellFormed_assignment, hother])
  | playerJoinedRoom player =>
    have hplayer := wellFormed_lobbyJson (h player.nickname (List.mem_singleton_self _))
    exact .initializer (by simp [ascii]) (by simp [hcode, hplayer])
  | gameExpectingInput expectedInput =>
    have hinput : WellFormed expectedInput.toJson := wellFormed_code expectedInput.code
    exact .initializer (by simp [ascii]) (by simp [hcode, hinput])
  | gameOverEarlyInput r | gameOverWrongInput r | gameOverWin r | gameOverDraw r =>
    have hresult := wellFormed_serializeGameResult (hfits r rfl)
    exact .initializer (by simp [ascii]) (by simp [hcode, hresult])
  | _ =>
    exact .initializer (by simp [ascii])
      (by simp [hcode, WellFormed.boolean, wellFormed_assignment])

/-- The parser reads what the serializer writes. -/
theorem parse_encoding (h : message.Utf8Nicknames) (hfits : message.FitsInt) :
    parse strtod (encoding dumpFloat message) = some (jsonMessage message) :=
  parse_text (plain_jsonMessage h) (wellFormed_jsonMessage h hfits)

/-- A time that was deserialized is a value of `int`, if every cast of a float is one. -/
theorem fitsInt_of_deserialize {cast : FloatCast} {parse : Bytes → Option Json} {bytes : Bytes}
    {i : GameplayInput} {t : Int} (hcast : ∀ value, FitsInt (cast.toInt value))
    (h : deserializePlayerActionMessage cast parse bytes = .ok (.playerInput i t)) :
    FitsInt t := by
  obtain ⟨jsonObj, value, code, hparse, hvalue, hcode, htype⟩ := messageType_of_deserialize h
  simp only [deserializePlayerActionMessage, hparse, hvalue, hcode, ok_bind] at h
  rw [htype] at h
  simp only [PlayerActionMessage.messageType, deserializeInputPlayerActionMessage] at h
  obtain ⟨_, -, h⟩ := bind_eq_ok.1 h
  obtain ⟨_, -, h⟩ := bind_eq_ok.1 h
  obtain ⟨json, -, h⟩ := bind_eq_ok.1 h
  obtain ⟨t', hget, h⟩ := bind_eq_ok.1 h
  cases h
  cases json with
  | number value =>
    cases hget
    have hlow := @Int.le_bmod value wordSize (by decide)
    have hhigh := @Int.bmod_lt value wordSize (by decide)
    exact ⟨hlow, Int.le_of_lt_add_one hhigh⟩
  | float value =>
    simp only [getInt] at hget
    split_ifs at hget with hrange
    · cases hget
      exact hrange
    · cases hget
      exact hcast value
  | boolean value =>
    cases hget
    cases value <;> exact ⟨by decide, by decide⟩
  | _ => cases hget

end Serializer

/-! ## What a peer parses -/

namespace Process

open Serializer

variable {env : Environment} {cast : FloatCast} {strtod : Bytes → Option Rat}
  {dumpFloat : Rat → Bytes} {process : Process} {effects : List Effect} {inputs : List Input}

/-- Each time that a client is told was once received. -/
theorem fitsInt_of_run {parse : Bytes → Option Json}
    (hcast : ∀ value, FitsInt (cast.toInt value))
    (hrun : run (step env (deserializePlayerActionMessage cast parse) dumpFloat) new inputs =
      .ok (process, effects)) {q : PlayerId} {message : GameplayMessage}
    (hmessage : .gameplay (.published q message) ∈ effects) : message.FitsInt := by
  intro r hr a t ht
  obtain ⟨before, after, rfl⟩ := List.append_of_mem hmessage
  obtain ⟨id, hbacked⟩ := backed_of_run hrun ⟨after, List.append_assoc ..⟩
  rcases (hbacked r hr).2 a with ⟨-, hnone⟩ | ⟨i, t', p, ⟨-, ht'⟩, -, bytes, -, hbytes⟩
  · cases hnone.symm.trans ht
  · cases ht'.symm.trans ht
    exact fitsInt_of_deserialize hcast hbytes

theorem published_of_mem_sent {p : PlayerId} {message : GameplayMessage}
    (h : message ∈ sent p (effects.filterMap Effect.gameplay?)) :
    .gameplay (.published p message) ∈ effects := by
  obtain ⟨o, ho, heq⟩ := List.mem_filterMap.1 h
  obtain ⟨effect, heffect, hgameplay⟩ := List.mem_filterMap.1 ho
  cases o with
  | published q message' =>
    simp only [SamuraiKirby.Effect.sent?] at heq
    split_ifs at heq with hq
    cases heq
    cases effect with
    | gameplay o =>
      cases hgameplay
      exact hq ▸ heffect
    | _ => cases hgameplay
  | _ => cases heq

/-- With the parser of the library at both ends, what a client parses are the first of the objects
that gameplay has sent to it, wherever the stream breaks off. -/
theorem lines_of_run_parsed (hcast : ∀ value, FitsInt (cast.toInt value))
    (hrun : run (step env (deserializePlayerActionMessage cast (Json.parse strtod)) dumpFloat) new
      inputs = .ok (process, effects)) (p : PlayerId) {seen : Bytes}
    (hseen : seen <+: stream p effects) :
    ((seen.splitOn 0x0A).dropLast.map fun line =>
        (Json.parse strtod line).bind Json.gameplayMessage?) <+:
      (sent p (effects.filterMap Effect.gameplay?)).map some := by
  have hparse : ∀ bytes json, Json.parse strtod bytes = some json →
      ∀ string, json.HasString string → Coding.Utf8 string := fun bytes json hjson string =>
    Json.WellFormed.utf8 (Json.wellFormed_of_parse hjson)
  obtain ⟨hnicknames, hlines⟩ := encodings_of_run (utf8_of_deserialize cast hparse) hrun p
  refine map_lines (fun message hmessage => ?_) (hlines seen hseen)
  have hpublished := published_of_mem_sent hmessage
  rw [parse_encoding (hnicknames message hmessage) (fitsInt_of_run hcast hrun hpublished)]
  exact Json.gameplayMessage?_jsonMessage message

/-- The first of two clients parses all it is told. -/
theorem lines_of_run_parsed_bothJoin :
    ∃ process effects,
      run (step Gameplay.stillEnvironment deserializeText fun _ => []) new bothJoin =
        .ok (process, effects) ∧
      (((stream 0 effects).splitOn 0x0A).dropLast.map fun line =>
          (Json.parse (fun _ => none) line).bind Json.gameplayMessage?) =
        toldFirst.map some := by
  obtain ⟨process, effects, hrun, hsummary⟩ := @exists_of_map_toOption _ (summary 0)
    (run (step Gameplay.stillEnvironment deserializeText fun _ => []) new bothJoin)
    ([⟨0, false⟩, ⟨1, false⟩], [], toldFirst, 2) (by decide +kernel)
  simp only [summary, Prod.mk.injEq] at hsummary
  obtain ⟨-, -, hsent, htwo⟩ := hsummary
  refine ⟨process, effects, hrun, ?_⟩
  have hzero : FitsInt 0 := ⟨by decide, by decide⟩
  have hlines := @lines_of_run_parsed Gameplay.stillEnvironment ⟨fun _ => 0, fun _ => 0⟩
    (fun _ => none) (fun _ => []) process effects bothJoin (fun _ => hzero) hrun 0 _ List.prefix_rfl
  rw [hsent] at hlines
  refine hlines.eq_of_length ?_
  rw [List.length_map, htwo]
  rfl

end Process
end SamuraiKirby
