/-
Reading gameplay messages back from the lines of what was sent.

`Json.gameplayMessage?` takes an object apart again, by the type it names.  It
undoes `jsonMessage`, whatever is present or absent in the message.  With the
value that a text belongs to, this decodes what the serializer writes.
-/
import SamuraiKirby.Network.GameplaySerializer

namespace SamuraiKirby
namespace Json

/-! ## Values -/

def assignment? (json : Json) : Option PlayerAssignment :=
  match json.integer? with
  | some 0 => some .P1
  | some 1 => some .P2
  | _ => none

/-- Any number of 32 bits is an input, listed or not. -/
def input? (json : Json) : Option GameplayInput :=
  json.integer?.map fun n => .ofCode (UInt32.ofInt n)

/-- `null` where there is no value. -/
def option? {α : Type} (decode : Json → Option α) : Json → Option (Option α)
  | .null => some none
  | json => (decode json).map some

def lobby? (json : Json) : Option PlayerLobbyDTO := do
  let nickname ← (← json.member? "nickname").string?
  let assignment ← (← json.member? "assignment").assignment?
  let isReady ← (← json.member? "isReady").bool?
  return ⟨nickname, assignment, isReady⟩

def playerResult? (json : Json) : Option PlayerGameResultDTO := do
  let assignment ← (← json.member? "assignment").assignment?
  let inputPressed ← (← json.member? "inputPressed").option? input?
  let timeToPress ← (← json.member? "timeToPress").option? integer?
  return ⟨assignment, inputPressed, timeToPress⟩

def gameResult? (json : Json) : Option GameResultDTO := do
  let winningPlayer ← (← json.member? "winningPlayer").option? assignment?
  let player1 ← (← json.member? "player1").playerResult?
  let player2 ← (← json.member? "player2").playerResult?
  return ⟨winningPlayer, player1, player2⟩

def gameplayMessageType? (json : Json) : Option GameplayMessageType :=
  json.integer?.bind fun n => GameplayMessageType.ofCode? (UInt32.ofInt n)

/-! ## Messages -/

/-- The message of a given type whose fields the object has. -/
def gameplayFields? (json : Json) : GameplayMessageType → Option GameplayMessage
  | .roomJoined => do
    let playerAssignment ← (← json.member? "playerAssignment").assignment?
    let otherPlayer ← (← json.member? "otherPlayer").option? lobby?
    return .roomJoined playerAssignment otherPlayer
  | .playerJoinedGame => do
    let player ← (← json.member? "player").lobby?
    return .playerJoinedRoom player
  | .playerLeftGame => do
    let playerAssignment ← (← json.member? "playerAssignment").assignment?
    return .playerLeftRoom playerAssignment
  | .playerReadyStateChanged => do
    let playerAssignment ← (← json.member? "playerAssignment").assignment?
    let isReady ← (← json.member? "isReady").bool?
    return .playerReadyStateChanged playerAssignment isReady
  | .allReadyGameStarting => some .allReadyGameStarting
  | .gameExpectingInput => do
    let expectedInput ← (← json.member? "expectedInput").input?
    return .gameExpectingInput expectedInput
  | .gameOverEarlyInput => do
    let gameResult ← (← json.member? "gameResult").gameResult?
    return .gameOverEarlyInput gameResult
  | .gameOverWrongInput => do
    let gameResult ← (← json.member? "gameResult").gameResult?
    return .gameOverWrongInput gameResult
  | .gameOverWin => do
    let gameResult ← (← json.member? "gameResult").gameResult?
    return .gameOverWin gameResult
  | .gameOverDraw => do
    let gameResult ← (← json.member? "gameResult").gameResult?
    return .gameOverDraw gameResult
  | .playerReplayReadyStateChanged => do
    let playerAssignment ← (← json.member? "playerAssignment").assignment?
    let isReadyToReplay ← (← json.member? "isReadyToReplay").bool?
    return .playerReplayReadyStateChanged playerAssignment isReadyToReplay
  | .allReplayReadyGameStarting => some .allReplayReadyGameStarting

/-- The message an object stands for. -/
def gameplayMessage? (json : Json) : Option GameplayMessage := do
  let messageType ← (← json.member? "messageType").gameplayMessageType?
  json.gameplayFields? messageType

/-! ## Decoding undoes encoding -/

theorem assignment?_toJson (assignment : PlayerAssignment) :
    assignment.toJson.assignment? = some assignment := by
  cases assignment <;> rfl

theorem ofInt_toNat (code : UInt32) : UInt32.ofInt (code.toNat : Int) = code := by
  have hlt := code.toNat_lt
  rw [UInt32.ofInt, Int.emod_eq_of_lt (by omega) (by omega), Int.toNat_natCast,
    UInt32.ofNat_toNat]

theorem ofCode_code (input : GameplayInput) : GameplayInput.ofCode input.code = input := by
  cases input with
  | unlisted code h =>
    rw [GameplayInput.code, GameplayInput.ofCode, dif_pos h]
  | _ => rfl

theorem input?_toJson (input : GameplayInput) : input.toJson.input? = some input := by
  show some (GameplayInput.ofCode (UInt32.ofInt (input.code.toNat : Int))) = some input
  rw [ofInt_toNat, ofCode_code]

theorem option?_ofOption {α : Type} {decode : Json → Option α} {encode : α → Json}
    (hnull : decode .null = none) (hdecode : ∀ a, decode (encode a) = some a) (x : Option α) :
    (ofOption encode x).option? decode = some x := by
  cases x with
  | none => rfl
  | some a =>
    have ha := hdecode a
    rw [ofOption, option?, ha]
    · rfl
    · rintro heq
      rw [heq, hnull] at ha
      cases ha

theorem lobby?_lobbyJson (player : PlayerLobbyDTO) :
    (Serializer.lobbyJson player).lobby? = some player := by
  simp [Serializer.lobbyJson, lobby?, member?_initializer, ascii, List.lookup_cons, string?,
    assignment?_toJson, bool?]

theorem playerResult?_playerResultJson (player : PlayerGameResultDTO) :
    (Serializer.playerResultJson player).playerResult? = some player := by
  have hinput := option?_ofOption rfl input?_toJson player.inputPressed
  have htime : (ofOption number player.timeToPress).option? integer? =
      some player.timeToPress := by
    apply option?_ofOption
    · rfl
    · exact fun _ => rfl
  simp [Serializer.playerResultJson, playerResult?, member?_initializer, ascii, List.lookup_cons,
    assignment?_toJson, hinput, htime]

theorem gameResult?_serializeGameResult (gameResult : GameResultDTO) :
    (Serializer.serializeGameResult gameResult).gameResult? = some gameResult := by
  have hwinner := option?_ofOption rfl assignment?_toJson gameResult.winningPlayer
  simp [Serializer.serializeGameResult, gameResult?, member?_initializer, ascii, List.lookup_cons,
    playerResult?_playerResultJson, hwinner]

theorem gameplayFields?_jsonMessage {message : GameplayMessage} {messageType : GameplayMessageType}
    (h : GameplayMessageType.ofCode? message.messageType = some messageType) :
    (Serializer.jsonMessage message).gameplayFields? messageType = some message := by
  cases message with
  | roomJoined playerAssignment otherPlayer =>
    cases h
    have hother := option?_ofOption rfl lobby?_lobbyJson otherPlayer
    simp [Serializer.jsonMessage, gameplayFields?, member?_initializer, ascii, List.lookup_cons,
      assignment?_toJson, hother]
  | _ =>
    cases h
    simp [Serializer.jsonMessage, gameplayFields?, member?_initializer, ascii, List.lookup_cons,
      assignment?_toJson, bool?, lobby?_lobbyJson, input?_toJson, gameResult?_serializeGameResult]

theorem messageType_jsonMessage (message : GameplayMessage) :
    (Serializer.jsonMessage message).member? "messageType" =
      some (.number message.messageType.toNat) := by
  cases message <;>
    simp [Serializer.jsonMessage, member?_initializer, ascii]

/-- Each message is read back from its object. -/
theorem gameplayMessage?_jsonMessage (message : GameplayMessage) :
    (Serializer.jsonMessage message).gameplayMessage? = some message := by
  obtain ⟨messageType, htype, -⟩ := Serializer.castTarget_eq message
  have hcode : (Json.number message.messageType.toNat).gameplayMessageType? = some messageType := by
    rw [← htype]
    show GameplayMessageType.ofCode? (UInt32.ofInt (message.messageType.toNat : Int)) = _
    rw [ofInt_toNat]
  rw [gameplayMessage?, messageType_jsonMessage]
  show (Json.number message.messageType.toNat).gameplayMessageType? >>= _ = _
  rw [hcode]
  exact gameplayFields?_jsonMessage htype

/-! ## Texts -/

variable (dumpFloat : Rat → Bytes)

open Classical in
/-- The plain value that a text belongs to. -/
noncomputable def ofText? (t : Bytes) : Option Json :=
  if h : ∃ json, Plain json ∧ text dumpFloat json = t then some h.choose else none

theorem ofText?_text {json : Json} (h : Plain json) :
    ofText? dumpFloat (text dumpFloat json) = some json := by
  have hex : ∃ json', Plain json' ∧ text dumpFloat json' = text dumpFloat json := ⟨json, h, rfl⟩
  rw [ofText?, dif_pos hex]
  exact congrArg some (text_injective hex.choose_spec.1 h hex.choose_spec.2)

end Json

namespace Serializer

open Json

variable (dumpFloat : Rat → Bytes)

/-- What is written for a message whose nicknames are UTF-8. -/
def encoding (message : GameplayMessage) : Bytes := text dumpFloat (jsonMessage message)

variable {dumpFloat} {messages : List GameplayMessage}

theorem mapM_serializeGameplayMessage (h : ∀ message ∈ messages, message.Utf8Nicknames) :
    messages.mapM (serializeGameplayMessage dumpFloat) =
      .ok (messages.map (encoding dumpFloat)) := by
  induction messages with
  | nil => rfl
  | cons message messages ih =>
    rw [List.mapM_cons, serializeGameplayMessage_eq (h message (List.mem_cons_self ..)),
      ih fun m hm => h m (List.mem_cons_of_mem _ hm)]
    rfl

/-- Sent one after the other, encodings are the lines of what was sent. -/
theorem splitOn_send (h : ∀ message ∈ messages, message.Utf8Nicknames) :
    ((messages.map (encoding dumpFloat)).flatMap ClientSocket.send).splitOn 0x0A =
      messages.map (encoding dumpFloat) ++ [[]] := by
  refine Coding.splitOn_flatMap fun line hline => ?_
  obtain ⟨message, hmessage, rfl⟩ := List.mem_map.1 hline
  exact newline_notMem_text (plain_jsonMessage (h message hmessage))

/-- There is a decoder for everything that the serializer writes for messages with UTF-8
nicknames.  It recovers a message from its encoding, which has no newline in it, and a
sequence of messages from the lines of what was sent. -/
theorem exists_decoder (dumpFloat : Rat → Bytes) :
    ∃ decode : Bytes → Option GameplayMessage,
      (∀ message : GameplayMessage, message.Utf8Nicknames →
        ∃ line, serializeGameplayMessage dumpFloat message = .ok line ∧
          decode line = some message ∧ 0x0A ∉ line) ∧
      ∀ messages : List GameplayMessage, (∀ message ∈ messages, message.Utf8Nicknames) →
        ∃ lines, messages.mapM (serializeGameplayMessage dumpFloat) = .ok lines ∧
          (lines.flatMap ClientSocket.send).splitOn 0x0A = lines ++ [[]] ∧
          lines.map decode = messages.map some := by
  have hdecode : ∀ message : GameplayMessage, message.Utf8Nicknames →
      (ofText? dumpFloat (encoding dumpFloat message)).bind gameplayMessage? = some message := by
    intro message h
    rw [encoding, ofText?_text dumpFloat (plain_jsonMessage h)]
    exact gameplayMessage?_jsonMessage message
  refine ⟨fun line => (ofText? dumpFloat line).bind gameplayMessage?, ?_, ?_⟩
  · intro message h
    exact ⟨encoding dumpFloat message, serializeGameplayMessage_eq h, hdecode message h,
      newline_notMem_text (plain_jsonMessage h)⟩
  · intro messages h
    refine ⟨_, mapM_serializeGameplayMessage h, splitOn_send h, ?_⟩
    rw [List.map_map]
    exact List.map_congr_left fun message hmessage => hdecode message (h message hmessage)

end Serializer
end SamuraiKirby
