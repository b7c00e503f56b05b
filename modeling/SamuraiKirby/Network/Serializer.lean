/-
How the bytes a client sends become an action.

`json::parse` is a parameter: it gives a value or throws.  What is done with the
value is the code's own: members are looked up with `at`, values are converted
with `get`, and every exception of the library becomes a `DeserializeException`.
The conversions are the library's.  A number becomes an integer by a plain cast,
and a boolean does too, but an enumeration takes numbers only.
-/
import SamuraiKirby.Messages.Messages

namespace SamuraiKirby

/-- The bytes of an ASCII literal. -/
def ascii (s : String) : Bytes := s.toList.map fun c => c.toNat.toUInt8

/-- A JSON value.  The keys of an object are distinct, and a float is the exact value of the
double. -/
inductive Json where
  | null
  | boolean (value : Bool)
  | number (value : Int)
  | float (value : Rat)
  | string (value : Bytes)
  | array (elements : List Json)
  | object (members : List (Bytes × Json))

inductive DeserializeFailure where
  | deserializeException
  | deserializeNotHandledException
deriving DecidableEq, Repr

/-- What the machine makes of a double that does not fit the integer it is cast to, which the
language leaves undefined. -/
structure FloatCast where
  toInt : Rat → Int
  toCode : Rat → UInt32

/-- `jsonObj.at(key)` -/
def Json.at (json : Json) (key : String) : Except DeserializeFailure Json :=
  match json with
  | .object members =>
    match members.lookup (ascii key) with
    | some value => .ok value
    | none => .error .deserializeException
  | _ => .error .deserializeException

namespace Json

def getString : Json → Except DeserializeFailure Bytes
  | .string value => .ok value
  | _ => .error .deserializeException

def getBool : Json → Except DeserializeFailure Bool
  | .boolean value => .ok value
  | _ => .error .deserializeException

/-- A double is cut off towards zero. -/
def truncate (value : Rat) : Int := if 0 ≤ value then value.floor else value.ceil

/-- `get<int>()` -/
def getInt (cast : FloatCast) : Json → Except DeserializeFailure Int
  | .number value => .ok (value.bmod wordSize)
  | .float value =>
    if -2147483648 ≤ truncate value ∧ truncate value ≤ 2147483647 then .ok (truncate value)
    else .ok (cast.toInt value)
  | .boolean value => .ok (if value then 1 else 0)
  | _ => .error .deserializeException

/-- `get` of an enumeration, by way of its underlying unsigned type. -/
def getCode (cast : FloatCast) : Json → Except DeserializeFailure UInt32
  | .number value => .ok (UInt32.ofInt value)
  | .float value =>
    if 0 ≤ truncate value ∧ truncate value < wordSize then .ok (UInt32.ofInt (truncate value))
    else .ok (cast.toCode value)
  | _ => .error .deserializeException

end Json

inductive PlayerActionMessageType where
  | joinGame
  | setReadyState
  | notifyCanPlay
  | playerInput
  | setReplayReadyState
  | leaveGame
deriving DecidableEq, Repr

/-- The enumerator with a given code, if there is one. -/
def PlayerActionMessageType.ofCode? (code : UInt32) : Option PlayerActionMessageType :=
  if code = 0 then some .joinGame
  else if code = 1 then some .setReadyState
  else if code = 2 then some .notifyCanPlay
  else if code = 3 then some .playerInput
  else if code = 4 then some .setReplayReadyState
  else if code = 5 then some .leaveGame
  else none

def PlayerActionMessage.messageType : PlayerActionMessage → PlayerActionMessageType
  | .joinGame _ _ => .joinGame
  | .setReadyState _ => .setReadyState
  | .notifyCanPlay => .notifyCanPlay
  | .playerInput _ _ => .playerInput
  | .setReplayReadyState _ => .setReplayReadyState
  | .leaveGame => .leaveGame

namespace Serializer

variable (cast : FloatCast)

def deserializeJoinGamePlayerActionMessage (jsonObj : Json) :
    Except DeserializeFailure PlayerActionMessage := do
  let nickname ← (← jsonObj.at "nickname").getString
  let difficulty ← (← jsonObj.at "difficulty").getCode cast
  return .joinGame nickname (.ofCode difficulty)

def deserializeSetReadyStatePlayerActionMessage (jsonObj : Json) :
    Except DeserializeFailure PlayerActionMessage := do
  let isReady ← (← jsonObj.at "isReady").getBool
  return .setReadyState isReady

def deserializeNotifyCanPlayPlayerActionMessage (_ : Json) :
    Except DeserializeFailure PlayerActionMessage :=
  return .notifyCanPlay

def deserializeInputPlayerActionMessage (jsonObj : Json) :
    Except DeserializeFailure PlayerActionMessage := do
  let inputPressed ← (← jsonObj.at "inputPressed").getCode cast
  let timeToPress ← (← jsonObj.at "timeToPress").getInt cast
  return .playerInput (.ofCode inputPressed) timeToPress

def deserializeSetReplayReadyStatePlayerActionMessage (jsonObj : Json) :
    Except DeserializeFailure PlayerActionMessage := do
  let isReadyToReplay ← (← jsonObj.at "isReadyToReplay").getBool
  return .setReplayReadyState isReadyToReplay

def deserializeLeaveGamePlayerActionMessage (_ : Json) :
    Except DeserializeFailure PlayerActionMessage :=
  return .leaveGame

/-- `Serializer::deserializePlayerActionMessage` -/
def deserializePlayerActionMessage (parse : Bytes → Option Json) (string : Bytes) :
    Except DeserializeFailure PlayerActionMessage :=
  match parse string with
  | none => .error .deserializeException
  | some jsonObj => do
    let code ← (← jsonObj.at "messageType").getCode cast
    match PlayerActionMessageType.ofCode? code with
    | some .joinGame => deserializeJoinGamePlayerActionMessage cast jsonObj
    | some .setReadyState => deserializeSetReadyStatePlayerActionMessage jsonObj
    | some .notifyCanPlay => deserializeNotifyCanPlayPlayerActionMessage jsonObj
    | some .playerInput => deserializeInputPlayerActionMessage cast jsonObj
    | some .setReplayReadyState => deserializeSetReplayReadyStatePlayerActionMessage jsonObj
    | some .leaveGame => deserializeLeaveGamePlayerActionMessage jsonObj
    | none => .error .deserializeNotHandledException

variable {cast : FloatCast} {parse : Bytes → Option Json} {string : Bytes}

theorem deserialize_of_parse_eq_none (h : parse string = none) :
    deserializePlayerActionMessage cast parse string = .error .deserializeException := by
  rw [deserializePlayerActionMessage, h]

/-- Texts that parse alike deserialize alike. -/
theorem deserialize_congr {string' : Bytes} (h : parse string = parse string') :
    deserializePlayerActionMessage cast parse string =
      deserializePlayerActionMessage cast parse string' := by
  rw [deserializePlayerActionMessage, deserializePlayerActionMessage, h]

theorem bind_eq_ok {α β : Type} {x : Except DeserializeFailure α}
    {f : α → Except DeserializeFailure β} {b : β} :
    x >>= f = .ok b ↔ ∃ a, x = .ok a ∧ f a = .ok b := by
  cases x with
  | error failure => simp [bind, Except.bind]
  | ok a => simp [bind, Except.bind]

/-- A message has the class that its `messageType` names. -/
theorem messageType_of_deserialize {message : PlayerActionMessage}
    (h : deserializePlayerActionMessage cast parse string = .ok message) :
    ∃ jsonObj value code, parse string = some jsonObj ∧ jsonObj.at "messageType" = .ok value ∧
      value.getCode cast = .ok code ∧
      PlayerActionMessageType.ofCode? code = some message.messageType := by
  cases hparse : parse string with
  | none =>
    rw [deserialize_of_parse_eq_none hparse] at h
    cases h
  | some jsonObj =>
    simp only [deserializePlayerActionMessage, hparse] at h
    obtain ⟨value, hvalue, h⟩ := bind_eq_ok.1 h
    obtain ⟨code, hcode, h⟩ := bind_eq_ok.1 h
    refine ⟨jsonObj, value, code, rfl, hvalue, hcode, ?_⟩
    cases htype : PlayerActionMessageType.ofCode? code with
    | none =>
      rw [htype] at h
      cases h
    | some messageType =>
      rw [htype] at h
      cases messageType with
      | joinGame =>
        simp only [deserializeJoinGamePlayerActionMessage] at h
        obtain ⟨_, -, h⟩ := bind_eq_ok.1 h
        obtain ⟨nickname, -, h⟩ := bind_eq_ok.1 h
        obtain ⟨_, -, h⟩ := bind_eq_ok.1 h
        obtain ⟨difficulty, -, h⟩ := bind_eq_ok.1 h
        cases h
        rfl
      | setReadyState =>
        simp only [deserializeSetReadyStatePlayerActionMessage] at h
        obtain ⟨_, -, h⟩ := bind_eq_ok.1 h
        obtain ⟨isReady, -, h⟩ := bind_eq_ok.1 h
        cases h
        rfl
      | notifyCanPlay =>
        cases h
        rfl
      | playerInput =>
        simp only [deserializeInputPlayerActionMessage] at h
        obtain ⟨_, -, h⟩ := bind_eq_ok.1 h
        obtain ⟨inputPressed, -, h⟩ := bind_eq_ok.1 h
        obtain ⟨_, -, h⟩ := bind_eq_ok.1 h
        obtain ⟨timeToPress, -, h⟩ := bind_eq_ok.1 h
        cases h
        rfl
      | setReplayReadyState =>
        simp only [deserializeSetReplayReadyStatePlayerActionMessage] at h
        obtain ⟨_, -, h⟩ := bind_eq_ok.1 h
        obtain ⟨isReadyToReplay, -, h⟩ := bind_eq_ok.1 h
        cases h
        rfl
      | leaveGame =>
        cases h
        rfl

end Serializer
end SamuraiKirby
