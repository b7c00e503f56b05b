/-
How a gameplay message becomes the bytes of a line.

`serializeGameplayMessage` switches on the message type, casts the message to the
class of that case and dumps a JSON object.  An object is a map, so its members
are written in the order of their keys.  For a message whose nicknames are UTF-8
nothing is thrown, and the message can be read back from the bytes.  No byte is a
newline, so messages sent one after the other are the lines of what was sent.
-/
import Mathlib.Data.List.Induction
import SamuraiKirby.Network.ActionFormat
import SamuraiKirby.Network.Dump

namespace SamuraiKirby
namespace Json

/-! ## Objects -/

/-- `object->emplace(key, value)`.  A key that is already there keeps its value. -/
def emplace (key : Bytes) (value : Json) : List (Bytes × Json) → List (Bytes × Json)
  | [] => [(key, value)]
  | member :: rest =>
    if key < member.1 then (key, value) :: member :: rest
    else if key = member.1 then member :: rest
    else member :: emplace key value rest

def emplaceAll (pairs : List (String × Json)) : List (Bytes × Json) :=
  pairs.foldl (fun members pair => emplace (ascii pair.1) pair.2 members) []

/-- `json{{key, value}, ...}` -/
def initializer (pairs : List (String × Json)) : Json := .object (emplaceAll pairs)

/-- `x.has_value() ? json(x.value()) : json()` -/
def ofOption {α : Type} (encode : α → Json) : Option α → Json
  | none => .null
  | some a => encode a

variable {key : Bytes} {value : Json} {members : List (Bytes × Json)}
  {pairs : List (String × Json)}

theorem emplace_perm (h : key ∉ members.map Prod.fst) :
    (emplace key value members).Perm ((key, value) :: members) := by
  induction members with
  | nil => rfl
  | cons member rest ih =>
    rw [List.map_cons, List.mem_cons, not_or] at h
    unfold emplace
    split_ifs with hlt heq
    · rfl
    · exact absurd heq h.1
    · exact ((ih h.2).cons member).trans (List.Perm.swap ..)

/-- Pairs with distinct keys are the members of their object. -/
theorem emplaceAll_perm (h : (pairs.map fun pair => ascii pair.1).Nodup) :
    (emplaceAll pairs).Perm (pairs.map fun pair => (ascii pair.1, pair.2)) := by
  -- the last pair is the last to be emplaced
  induction pairs using List.reverseRecOn with
  | nil => rfl
  | append_singleton pairs pair ih =>
    rw [List.map_append, List.map_singleton, List.nodup_append] at h
    have hperm := ih h.1
    have hfresh : ascii pair.1 ∉ (emplaceAll pairs).map Prod.fst := by
      intro hmem
      have hmem' := (hperm.map Prod.fst).mem_iff.1 hmem
      rw [List.map_map] at hmem'
      exact h.2.2 _ hmem' _ (List.mem_singleton_self _) rfl
    rw [emplaceAll, List.foldl_append, List.map_append]
    exact (emplace_perm hfresh).trans ((hperm.cons _).trans (List.perm_append_singleton ..).symm)

theorem lookup_of_mem (hkeys : (members.map Prod.fst).Nodup) (h : (key, value) ∈ members) :
    members.lookup key = some value := by
  induction members with
  | nil => exact absurd h List.not_mem_nil
  | cons member rest ih =>
    obtain ⟨key', value'⟩ := member
    rw [List.map_cons, List.nodup_cons] at hkeys
    rw [List.lookup_cons]
    rcases List.mem_cons.1 h with heq | hrest
    · cases heq
      rw [beq_self_eq_true]
    · have hne : (key == key') = false := by
        rw [beq_eq_false_iff_ne]
        rintro rfl
        exact hkeys.1 (List.mem_map.2 ⟨_, hrest, rfl⟩)
      rw [hne]
      exact ih hkeys.2 hrest

theorem lookup_iff_mem (hkeys : (members.map Prod.fst).Nodup) :
    members.lookup key = some value ↔ (key, value) ∈ members := by
  refine ⟨fun h => ?_, lookup_of_mem hkeys⟩
  obtain ⟨l₁, l₂, rfl, -⟩ := List.lookup_eq_some_iff.1 h
  exact List.mem_append_right _ (List.mem_cons_self ..)

/-- What is found in an object is what is found among its pairs. -/
theorem member?_initializer (key : String)
    (hkeys : (pairs.map fun pair => ascii pair.1).Nodup) :
    (initializer pairs).member? key =
      (pairs.map fun pair => (ascii pair.1, pair.2)).lookup (ascii key) := by
  have hperm := emplaceAll_perm hkeys
  have hnodup : ((pairs.map fun pair => (ascii pair.1, pair.2)).map Prod.fst).Nodup := by
    rw [List.map_map]
    exact hkeys
  have hsame : (emplaceAll pairs).lookup (ascii key) =
      (pairs.map fun pair => (ascii pair.1, pair.2)).lookup (ascii key) := by
    ext value
    rw [lookup_iff_mem ((hperm.map Prod.fst).nodup_iff.2 hnodup), lookup_iff_mem hnodup,
      hperm.mem_iff]
  simp only [member?, Json.at, initializer]
  rw [hsame]
  cases (pairs.map fun pair => (ascii pair.1, pair.2)).lookup (ascii key) <;> rfl

theorem mem_emplace {member : Bytes × Json} (h : member ∈ emplace key value members) :
    member = (key, value) ∨ member ∈ members := by
  induction members with
  | nil => exact Or.inl (List.mem_singleton.1 h)
  | cons other rest ih =>
    unfold emplace at h
    split_ifs at h with hlt heq
    · exact List.mem_cons.1 h
    · exact Or.inr h
    · rcases List.mem_cons.1 h with h | h
      · exact Or.inr (h ▸ List.mem_cons_self ..)
      · exact (ih h).imp_right (List.mem_cons_of_mem _)

/-- An object is plain if its values are and its keys are ASCII. -/
theorem Plain.initializer (hkeys : ∀ pair ∈ pairs, ∀ b ∈ ascii pair.1, b ≤ 0x7F)
    (hvalues : ∀ pair ∈ pairs, Plain pair.2) : Plain (initializer pairs) := by
  have hmembers : ∀ member ∈ emplaceAll pairs, Coding.Utf8 member.1 ∧ Plain member.2 := by
    unfold emplaceAll
    refine List.foldlRecOn (motive := fun members : List (Bytes × Json) =>
      ∀ member ∈ members, Coding.Utf8 member.1 ∧ Plain member.2) pairs _
      (fun _ hm => absurd hm List.not_mem_nil) ?_
    intro members hmembers pair hpair member hm
    rcases mem_emplace hm with rfl | hm
    · exact ⟨Coding.Utf8.of_ascii (hkeys pair hpair), hvalues pair hpair⟩
    · exact hmembers member hm
  exact .object (fun member hm => (hmembers member hm).1) fun member hm => (hmembers member hm).2

theorem Plain.ofOption {α : Type} {encode : α → Json} {x : Option α}
    (h : ∀ a ∈ x, Plain (encode a)) : Plain (ofOption encode x) := by
  cases x with
  | none => exact .null
  | some a => exact h a rfl

end Json

/-! ## Messages and their types -/

inductive GameplayMessageType where
  | roomJoined
  | playerJoinedGame
  | playerLeftGame
  | playerReadyStateChanged
  | allReadyGameStarting
  | gameExpectingInput
  | gameOverEarlyInput
  | gameOverWrongInput
  | gameOverWin
  | gameOverDraw
  | playerReplayReadyStateChanged
  | allReplayReadyGameStarting
deriving DecidableEq, Repr

def GameplayMessageType.code : GameplayMessageType → UInt32
  | .roomJoined => 0
  | .playerJoinedGame => 1
  | .playerLeftGame => 2
  | .playerReadyStateChanged => 3
  | .allReadyGameStarting => 4
  | .gameExpectingInput => 5
  | .gameOverEarlyInput => 6
  | .gameOverWrongInput => 7
  | .gameOverWin => 8
  | .gameOverDraw => 9
  | .playerReplayReadyStateChanged => 10
  | .allReplayReadyGameStarting => 11

/-- The enumerator with a given code, if there is one. -/
def GameplayMessageType.ofCode? (code : UInt32) : Option GameplayMessageType :=
  if code = 0 then some .roomJoined
  else if code = 1 then some .playerJoinedGame
  else if code = 2 then some .playerLeftGame
  else if code = 3 then some .playerReadyStateChanged
  else if code = 4 then some .allReadyGameStarting
  else if code = 5 then some .gameExpectingInput
  else if code = 6 then some .gameOverEarlyInput
  else if code = 7 then some .gameOverWrongInput
  else if code = 8 then some .gameOverWin
  else if code = 9 then some .gameOverDraw
  else if code = 10 then some .playerReplayReadyStateChanged
  else if code = 11 then some .allReplayReadyGameStarting
  else none

inductive GameplayMessageClass where
  | roomJoinedMessage
  | playerJoinedRoomMessage
  | playerLeftRoomMessage
  | playerReadyStateChangedMessage
  | allReadyGameStartingMessage
  | gameExpectingInputMessage
  | gameOverEarlyInputMessage
  | gameOverWrongInputMessage
  | gameOverWinMessage
  | gameOverDrawMessage
  | playerReplayReadyStateChangedMessage
  | allReplayReadyGameStartingMessage
deriving DecidableEq, Repr

namespace GameplayMessage

/-- The class a message is constructed with. -/
def dynamicClass : GameplayMessage → GameplayMessageClass
  | .roomJoined _ _ => .roomJoinedMessage
  | .playerJoinedRoom _ => .playerJoinedRoomMessage
  | .playerLeftRoom _ => .playerLeftRoomMessage
  | .playerReadyStateChanged _ _ => .playerReadyStateChangedMessage
  | .allReadyGameStarting => .allReadyGameStartingMessage
  | .gameExpectingInput _ => .gameExpectingInputMessage
  | .gameOverEarlyInput _ => .gameOverEarlyInputMessage
  | .gameOverWrongInput _ => .gameOverWrongInputMessage
  | .gameOverWin _ => .gameOverWinMessage
  | .gameOverDraw _ => .gameOverDrawMessage
  | .playerReplayReadyStateChanged _ _ => .playerReplayReadyStateChangedMessage
  | .allReplayReadyGameStarting => .allReplayReadyGameStartingMessage

/-- The value that the constructor of the class gives to `messageType`. -/
def messageType : GameplayMessage → UInt32
  | .roomJoined _ _ => GameplayMessageType.roomJoined.code
  | .playerJoinedRoom _ => GameplayMessageType.playerJoinedGame.code
  | .playerLeftRoom _ => GameplayMessageType.playerLeftGame.code
  | .playerReadyStateChanged _ _ => GameplayMessageType.playerReadyStateChanged.code
  | .allReadyGameStarting => GameplayMessageType.allReadyGameStarting.code
  | .gameExpectingInput _ => GameplayMessageType.gameExpectingInput.code
  | .gameOverEarlyInput _ => GameplayMessageType.gameOverEarlyInput.code
  | .gameOverWrongInput _ => GameplayMessageType.gameOverWrongInput.code
  | .gameOverWin _ => GameplayMessageType.gameOverWin.code
  | .gameOverDraw _ => GameplayMessageType.gameOverDraw.code
  | .playerReplayReadyStateChanged _ _ => GameplayMessageType.playerReplayReadyStateChanged.code
  | .allReplayReadyGameStarting => GameplayMessageType.allReplayReadyGameStarting.code

/-- Each nickname in the message is UTF-8. -/
def Utf8Nicknames (message : GameplayMessage) : Prop :=
  ∀ nickname ∈ message.nicknames, Coding.Utf8 nickname

end GameplayMessage

def PlayerAssignment.toJson : PlayerAssignment → Json
  | .P1 => .number 0
  | .P2 => .number 1

def GameplayInput.code : GameplayInput → UInt32
  | .north => 0
  | .west => 1
  | .east => 2
  | .south => 3
  | .unlisted code _ => code

def GameplayInput.toJson (input : GameplayInput) : Json := .number input.code.toNat

/-! ## The serializer -/

inductive SerializeFailure where
  | serializeException (cause : DumpFailure)
  | serializeNotHandledException
  | badCast
deriving DecidableEq, Repr

namespace Serializer

open Json

/-- The object a player in a lobby is written as. -/
def lobbyJson (player : PlayerLobbyDTO) : Json :=
  initializer [("nickname", .string player.nickname), ("assignment", player.assignment.toJson),
    ("isReady", .boolean player.isReady)]

/-- The object one player's part of a result is written as. -/
def playerResultJson (player : PlayerGameResultDTO) : Json :=
  initializer [("assignment", player.assignment.toJson),
    ("inputPressed", ofOption GameplayInput.toJson player.inputPressed),
    ("timeToPress", ofOption .number player.timeToPress)]

def serializeGameResult (gameResult : GameResultDTO) : Json :=
  initializer [("winningPlayer", ofOption PlayerAssignment.toJson gameResult.winningPlayer),
    ("player1", playerResultJson gameResult.player1),
    ("player2", playerResultJson gameResult.player2)]

/-- The `jsonMessage` of each `serialize`. -/
def jsonMessage (message : GameplayMessage) : Json :=
  let messageType := Json.number message.messageType.toNat
  match message with
  | .roomJoined playerAssignment otherPlayer =>
    initializer [("messageType", messageType), ("playerAssignment", playerAssignment.toJson),
      ("otherPlayer", ofOption lobbyJson otherPlayer)]
  | .playerJoinedRoom player =>
    initializer [("messageType", messageType), ("player", lobbyJson player)]
  | .playerLeftRoom playerAssignment =>
    initializer [("messageType", messageType), ("playerAssignment", playerAssignment.toJson)]
  | .playerReadyStateChanged playerAssignment isReady =>
    initializer [("messageType", messageType), ("playerAssignment", playerAssignment.toJson),
      ("isReady", .boolean isReady)]
  | .allReadyGameStarting => initializer [("messageType", messageType)]
  | .gameExpectingInput expectedInput =>
    initializer [("messageType", messageType), ("expectedInput", expectedInput.toJson)]
  | .gameOverEarlyInput gameResult =>
    initializer [("messageType", messageType), ("gameResult", serializeGameResult gameResult)]
  | .gameOverWrongInput gameResult =>
    initializer [("messageType", messageType), ("gameResult", serializeGameResult gameResult)]
  | .gameOverWin gameResult =>
    initializer [("messageType", messageType), ("gameResult", serializeGameResult gameResult)]
  | .gameOverDraw gameResult =>
    initializer [("messageType", messageType), ("gameResult", serializeGameResult gameResult)]
  | .playerReplayReadyStateChanged playerAssignment isReadyToReplay =>
    initializer [("messageType", messageType), ("playerAssignment", playerAssignment.toJson),
      ("isReadyToReplay", .boolean isReadyToReplay)]
  | .allReplayReadyGameStarting => initializer [("messageType", messageType)]

variable (dumpFloat : Rat → Bytes)

def serialize (message : GameplayMessage) : Except DumpFailure Bytes :=
  dump dumpFloat (jsonMessage message)

/-- The class that a case of the switch casts to. -/
def castTarget : GameplayMessageType → GameplayMessageClass
  | .roomJoined => .roomJoinedMessage
  | .playerJoinedGame => .playerJoinedRoomMessage
  | .playerLeftGame => .playerLeftRoomMessage
  | .playerReadyStateChanged => .playerReadyStateChangedMessage
  | .allReadyGameStarting => .allReadyGameStartingMessage
  | .gameExpectingInput => .gameExpectingInputMessage
  | .gameOverEarlyInput => .gameOverEarlyInputMessage
  | .gameOverWrongInput => .gameOverWrongInputMessage
  | .gameOverWin => .gameOverWinMessage
  | .gameOverDraw => .gameOverDrawMessage
  | .playerReplayReadyStateChanged => .playerReplayReadyStateChangedMessage
  | .allReplayReadyGameStarting => .allReplayReadyGameStartingMessage

/-- `Serializer::serializeGameplayMessage`.  An exception of the library becomes a
`SerializeException`; a cast that fails is `std::bad_cast`, which passes through. -/
def serializeGameplayMessage (message : GameplayMessage) : Except SerializeFailure Bytes :=
  match GameplayMessageType.ofCode? message.messageType with
  | none => .error .serializeNotHandledException
  | some messageType =>
    if message.dynamicClass = castTarget messageType then
      (serialize dumpFloat message).mapError .serializeException
    else .error .badCast

/-! ## What is serialized -/

variable {dumpFloat} {message : GameplayMessage}

/-- A message has the class that the case of its type casts to. -/
theorem castTarget_eq (message : GameplayMessage) : ∃ messageType,
    GameplayMessageType.ofCode? message.messageType = some messageType ∧
      message.dynamicClass = castTarget messageType := by
  cases message <;> exact ⟨_, rfl, rfl⟩

theorem plain_assignment (assignment : PlayerAssignment) : Plain assignment.toJson := by
  cases assignment <;> exact .number _

theorem plain_input (input : GameplayInput) : Plain input.toJson := .number _

theorem plain_lobbyJson {player : PlayerLobbyDTO} (h : Coding.Utf8 player.nickname) :
    Plain (lobbyJson player) :=
  .initializer (by simp [ascii])
    (by simp [Plain.string h, plain_assignment, Plain.boolean])

theorem plain_playerResultJson (player : PlayerGameResultDTO) :
    Plain (playerResultJson player) :=
  .initializer (by simp [ascii])
    (by simp [plain_assignment, Plain.ofOption, plain_input, Plain.number])

theorem plain_serializeGameResult (gameResult : GameResultDTO) :
    Plain (serializeGameResult gameResult) :=
  .initializer (by simp [ascii])
    (by simp [plain_assignment, Plain.ofOption, plain_playerResultJson])

theorem plain_jsonMessage (h : message.Utf8Nicknames) : Plain (jsonMessage message) := by
  cases message with
  | roomJoined playerAssignment otherPlayer =>
    have hother : Plain (ofOption lobbyJson otherPlayer) :=
      Plain.ofOption fun player hplayer => plain_lobbyJson (h player.nickname (by
        cases hplayer
        exact List.mem_singleton_self _))
    exact .initializer (by simp [ascii]) (by simp [Plain.number, plain_assignment, hother])
  | playerJoinedRoom player =>
    have hplayer := plain_lobbyJson (h player.nickname (List.mem_singleton_self _))
    exact .initializer (by simp [ascii]) (by simp [Plain.number, hplayer])
  | _ =>
    exact .initializer (by simp [ascii]) (by
      simp [Plain.number, Plain.boolean, plain_assignment, plain_input,
        plain_serializeGameResult])

/-- A message whose nicknames are UTF-8 becomes the text of its object. -/
theorem serializeGameplayMessage_eq (h : message.Utf8Nicknames) :
    serializeGameplayMessage dumpFloat message = .ok (text dumpFloat (jsonMessage message)) := by
  obtain ⟨messageType, htype, hclass⟩ := castTarget_eq message
  rw [serializeGameplayMessage, htype]
  simp only [hclass, if_true, serialize, (plain_jsonMessage h).dump_eq]
  rfl

example : (serializeGameplayMessage (fun _ => [])
    (.roomJoined .P1 (some ⟨ascii "Player2", .P2, true⟩))).toOption =
      some (ascii ("\x7b\"messageType\":0,\"otherPlayer\":\x7b\"assignment\":1,\"isReady\":true," ++
        "\"nickname\":\"Player2\"\x7d,\"playerAssignment\":0\x7d")) := by
  decide +kernel

end Serializer
end SamuraiKirby
