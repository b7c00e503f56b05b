/-
Which JSON values are player actions.

`Json.playerAction?` is the message format: the action a value stands for, if it
stands for one.  `deserializePlayerActionMessage` leaves the range of every
number to the cast that reads it, and only the code of `messageType` is looked
at again.  `decodesExactly_iff` says how far that is from the format: a value
that is no action is read as one exactly when a cast changes a number of it.
-/
import SamuraiKirby.Network.ConnectedClient

namespace SamuraiKirby

namespace Json

def member? (json : Json) (key : String) : Option Json := (json.at key).toOption

/-! ## The format -/

def string? : Json → Option Bytes
  | .string value => some value
  | _ => none

def bool? : Json → Option Bool
  | .boolean value => some value
  | _ => none

/-- The integer a number is, if it is one.  `2.0` is the integer 2. -/
def integer? : Json → Option Int
  | .number value => some value
  | .float value => if value.den = 1 then some value.num else none
  | _ => none

/-- An integer that an `int` holds. -/
def int? (json : Json) : Option Int :=
  json.integer?.filter fun n => -2147483648 ≤ n ∧ n ≤ 2147483647

def difficulty? (json : Json) : Option GameDifficulty :=
  match json.integer? with
  | some 0 => some .easy
  | some 1 => some .medium
  | some 2 => some .hard
  | _ => none

def gameplayInput? (json : Json) : Option GameplayInput :=
  match json.integer? with
  | some 0 => some .north
  | some 1 => some .west
  | some 2 => some .east
  | some 3 => some .south
  | _ => none

def messageType? (json : Json) : Option PlayerActionMessageType :=
  match json.integer? with
  | some 0 => some .joinGame
  | some 1 => some .setReadyState
  | some 2 => some .notifyCanPlay
  | some 3 => some .playerInput
  | some 4 => some .setReplayReadyState
  | some 5 => some .leaveGame
  | _ => none

/-- The message of a given type whose fields the object has. -/
def fields? (json : Json) : PlayerActionMessageType → Option PlayerActionMessage
  | .joinGame => do
    let nickname ← (← json.member? "nickname").string?
    let difficulty ← (← json.member? "difficulty").difficulty?
    return .joinGame nickname difficulty
  | .setReadyState => do
    let isReady ← (← json.member? "isReady").bool?
    return .setReadyState isReady
  | .notifyCanPlay => some .notifyCanPlay
  | .playerInput => do
    let inputPressed ← (← json.member? "inputPressed").gameplayInput?
    let timeToPress ← (← json.member? "timeToPress").int?
    return .playerInput inputPressed timeToPress
  | .setReplayReadyState => do
    let isReadyToReplay ← (← json.member? "isReadyToReplay").bool?
    return .setReplayReadyState isReadyToReplay
  | .leaveGame => some .leaveGame

/-- The action a value stands for. -/
def playerAction? (json : Json) : Option PlayerActionMessage := do
  let messageType ← (← json.member? "messageType").messageType?
  json.fields? messageType

/-! ## What the casts are given -/

def isNumber : Json → Bool
  | .number _ | .float _ => true
  | _ => false

/-- What an `int` can be read from. -/
def isArithmetic : Json → Bool
  | .number _ | .float _ | .boolean _ => true
  | _ => false

/-- The library converts every field of the message type. -/
def HasFields (json : Json) : PlayerActionMessageType → Prop
  | .joinGame => (∃ v nickname, json.member? "nickname" = some v ∧ v.string? = some nickname) ∧
      ∃ v, json.member? "difficulty" = some v ∧ v.isNumber = true
  | .setReadyState => ∃ v isReady, json.member? "isReady" = some v ∧ v.bool? = some isReady
  | .playerInput => (∃ v, json.member? "inputPressed" = some v ∧ v.isNumber = true) ∧
      ∃ v, json.member? "timeToPress" = some v ∧ v.isArithmetic = true
  | .setReplayReadyState =>
    ∃ v isReadyToReplay, json.member? "isReadyToReplay" = some v ∧ v.bool? = some isReadyToReplay
  | .notifyCanPlay | .leaveGame => True

/-- The fields that are cast hold what they are cast to. -/
def FieldsInRange (json : Json) : PlayerActionMessageType → Prop
  | .joinGame => ∀ v, json.member? "difficulty" = some v → v.difficulty?.isSome = true
  | .playerInput => (∀ v, json.member? "inputPressed" = some v → v.gameplayInput?.isSome = true) ∧
      ∀ v, json.member? "timeToPress" = some v → v.int?.isSome = true
  | _ => True

/-- No number of a message that the library converts is changed by its cast. -/
def CastsExact (cast : FloatCast) (json : Json) : Prop :=
  ∀ value code messageType, json.member? "messageType" = some value →
    value.getCode cast = .ok code → PlayerActionMessageType.ofCode? code = some messageType →
    json.HasFields messageType →
      value.integer? = some (code.toNat : Int) ∧ json.FieldsInRange messageType

/-! ## The casts -/

variable {json v : Json} {cast : FloatCast} {n : Int} {code : UInt32}

theorem toOption_at (json : Json) (key : String) : (json.at key).toOption = json.member? key := rfl

theorem toOption_getString (json : Json) : json.getString.toOption = json.string? := by
  cases json <;> rfl

theorem toOption_getBool (json : Json) : json.getBool.toOption = json.bool? := by
  cases json <;> rfl

theorem getCode_eq_ok (cast : FloatCast) (h : v.isNumber = true) :
    ∃ code, v.getCode cast = .ok code := by
  cases v with
  | number value => exact ⟨_, rfl⟩
  | float value =>
    simp only [getCode]
    split <;> exact ⟨_, rfl⟩
  | _ => cases h

theorem isNumber_of_getCode (h : (v.getCode cast).toOption = some code) : v.isNumber = true := by
  cases v with
  | number value => rfl
  | float value => rfl
  | _ => cases h

theorem getInt_eq_ok (cast : FloatCast) (h : v.isArithmetic = true) :
    ∃ value, v.getInt cast = .ok value := by
  cases v with
  | boolean value => exact ⟨_, rfl⟩
  | number value => exact ⟨_, rfl⟩
  | float value =>
    simp only [getInt]
    split <;> exact ⟨_, rfl⟩
  | _ => cases h

theorem isArithmetic_of_getInt (h : (v.getInt cast).toOption = some n) :
    v.isArithmetic = true := by
  cases v with
  | boolean value => rfl
  | number value => rfl
  | float value => rfl
  | _ => cases h

/-- Cutting off an integer changes nothing. -/
theorem truncate_of_den {q : Rat} (h : q.den = 1) : truncate q = q.num := by
  have hfloor : q.floor = q.num := by rw [Rat.floor_def, h, Int.natCast_one, Int.ediv_one]
  have hceil : q.ceil = q.num := by
    rw [Rat.ceil_eq_neg_floor_neg, Rat.floor_def, Rat.neg_den, h, Rat.neg_num, Int.natCast_one,
      Int.ediv_one, Int.neg_neg]
  unfold truncate
  split
  · exact hfloor
  · exact hceil

/-- The cast to an unsigned integer keeps an integer that fits. -/
theorem getCode_of_integer? (h : v.integer? = some n) (h0 : 0 ≤ n) (h1 : n < wordSize) :
    v.getCode cast = .ok (UInt32.ofInt n) := by
  cases v with
  | number value =>
    cases h
    rfl
  | float value =>
    simp only [integer?] at h
    split at h
    · next hden =>
      cases h
      simp only [getCode, truncate_of_den hden, h0, h1, and_self, if_true]
    · cases h
  | _ => cases h

/-- The cast to `int` keeps an integer that fits. -/
theorem getInt_of_int? (h : v.int? = some n) : v.getInt cast = .ok n := by
  obtain ⟨hn, hrange⟩ := Option.filter_eq_some_iff.1 h
  simp only [decide_eq_true_eq] at hrange
  cases v with
  | number value =>
    cases hn
    rw [getInt, Int.bmod_eq_of_le (by unfold wordSize; omega) (by unfold wordSize; omega)]
  | float value =>
    simp only [integer?] at hn
    split at hn
    · next hden =>
      cases hn
      simp only [getInt, truncate_of_den hden, hrange, and_self, if_true]
    · cases hn
  | _ => cases hn

/-! ## Fields in range are read as they are -/

theorem getCode_of_difficulty? {difficulty : GameDifficulty}
    (h : v.difficulty? = some difficulty) (cast : FloatCast) :
    ∃ code, v.getCode cast = .ok code ∧ GameDifficulty.ofCode code = difficulty := by
  unfold difficulty? at h
  split at h
  case h_4 => cases h
  all_goals
    next hn =>
    cases h
    exact ⟨_, getCode_of_integer? hn (by decide) (by decide), rfl⟩

theorem getCode_of_gameplayInput? {input : GameplayInput} (h : v.gameplayInput? = some input)
    (cast : FloatCast) :
    ∃ code, v.getCode cast = .ok code ∧ GameplayInput.ofCode code = input := by
  unfold gameplayInput? at h
  split at h
  case h_5 => cases h
  all_goals
    next hn =>
    cases h
    exact ⟨_, getCode_of_integer? hn (by decide) (by decide), rfl⟩

theorem getCode_of_messageType? {messageType : PlayerActionMessageType}
    (h : v.messageType? = some messageType) (cast : FloatCast) :
    ∃ code, v.getCode cast = .ok code ∧
      PlayerActionMessageType.ofCode? code = some messageType ∧
        v.integer? = some (code.toNat : Int) := by
  unfold messageType? at h
  split at h
  case h_7 => cases h
  all_goals
    next hn =>
    cases h
    exact ⟨_, getCode_of_integer? hn (by decide) (by decide), rfl, hn⟩

theorem messageType?_of_integer? {messageType : PlayerActionMessageType}
    (h : v.integer? = some (code.toNat : Int))
    (hcode : PlayerActionMessageType.ofCode? code = some messageType) :
    v.messageType? = some messageType := by
  unfold PlayerActionMessageType.ofCode? at hcode
  split_ifs at hcode with h0 h1 h2 h3 h4 h5 <;> subst code <;> cases hcode <;>
    simp [messageType?, h]

end Json

namespace Serializer

open Json

variable {cast : FloatCast} {json : Json} {messageType : PlayerActionMessageType}

/-- The decoder that a message type selects. -/
def deserializeFields (cast : FloatCast) (jsonObj : Json) :
    PlayerActionMessageType → Except DeserializeFailure PlayerActionMessage
  | .joinGame => deserializeJoinGamePlayerActionMessage cast jsonObj
  | .setReadyState => deserializeSetReadyStatePlayerActionMessage jsonObj
  | .notifyCanPlay => deserializeNotifyCanPlayPlayerActionMessage jsonObj
  | .playerInput => deserializeInputPlayerActionMessage cast jsonObj
  | .setReplayReadyState => deserializeSetReplayReadyStatePlayerActionMessage jsonObj
  | .leaveGame => deserializeLeaveGamePlayerActionMessage jsonObj

theorem toOption_bind {α β : Type} (x : Except DeserializeFailure α)
    (f : α → Except DeserializeFailure β) :
    (x >>= f).toOption = x.toOption.bind fun a => (f a).toOption := by
  cases x <;> rfl

/-- What is read of a value, written with `member?`. -/
theorem toOption_deserialize (cast : FloatCast) (parse : Bytes → Option Json) (string : Bytes) :
    (deserializePlayerActionMessage cast parse string).toOption =
      (parse string).bind fun jsonObj => (jsonObj.member? "messageType").bind fun value =>
        (value.getCode cast).toOption.bind fun code =>
          (PlayerActionMessageType.ofCode? code).bind fun messageType =>
            (deserializeFields cast jsonObj messageType).toOption := by
  unfold deserializePlayerActionMessage
  cases parse string with
  | none => rfl
  | some jsonObj =>
    simp only [toOption_bind, toOption_at, Option.bind_some]
    congr 1
    funext value
    congr 1
    funext code
    cases PlayerActionMessageType.ofCode? code with
    | none => rfl
    | some messageType => cases messageType <;> rfl

theorem toOption_pure {α : Type} (a : α) :
    (pure a : Except DeserializeFailure α).toOption = some a := rfl

/-! ### What the decoders read, in order -/

theorem toOption_joinGame (cast : FloatCast) (json : Json) :
    (deserializeFields cast json .joinGame).toOption =
      (json.member? "nickname").bind fun v => v.string?.bind fun nickname =>
        (json.member? "difficulty").bind fun v' => (v'.getCode cast).toOption.bind fun code =>
          some (.joinGame nickname (.ofCode code)) := by
  simp only [deserializeFields, deserializeJoinGamePlayerActionMessage, toOption_bind, toOption_at,
    toOption_getString, toOption_pure]

theorem toOption_setReadyState (cast : FloatCast) (json : Json) :
    (deserializeFields cast json .setReadyState).toOption =
      (json.member? "isReady").bind fun v => v.bool?.bind fun isReady =>
        some (.setReadyState isReady) := by
  simp only [deserializeFields, deserializeSetReadyStatePlayerActionMessage, toOption_bind,
    toOption_at, toOption_getBool, toOption_pure]

theorem toOption_playerInput (cast : FloatCast) (json : Json) :
    (deserializeFields cast json .playerInput).toOption =
      (json.member? "inputPressed").bind fun v => (v.getCode cast).toOption.bind fun code =>
        (json.member? "timeToPress").bind fun v' => (v'.getInt cast).toOption.bind fun n =>
          some (.playerInput (.ofCode code) n) := by
  simp only [deserializeFields, deserializeInputPlayerActionMessage, toOption_bind, toOption_at,
    toOption_pure]

theorem toOption_setReplayReadyState (cast : FloatCast) (json : Json) :
    (deserializeFields cast json .setReplayReadyState).toOption =
      (json.member? "isReadyToReplay").bind fun v => v.bool?.bind fun isReadyToReplay =>
        some (.setReplayReadyState isReadyToReplay) := by
  simp only [deserializeFields, deserializeSetReplayReadyStatePlayerActionMessage, toOption_bind,
    toOption_at, toOption_getBool, toOption_pure]

theorem hasFields_of_deserializeFields {message : PlayerActionMessage}
    (h : (deserializeFields cast json messageType).toOption = some message) :
    json.HasFields messageType := by
  cases messageType with
  | joinGame =>
    simp only [toOption_joinGame, Option.bind_eq_some_iff] at h
    obtain ⟨v, hv, nickname, hnickname, v', hv', code, hcode, -⟩ := h
    exact ⟨⟨v, nickname, hv, hnickname⟩, v', hv', isNumber_of_getCode hcode⟩
  | setReadyState =>
    simp only [toOption_setReadyState, Option.bind_eq_some_iff] at h
    obtain ⟨v, hv, isReady, hisReady, -⟩ := h
    exact ⟨v, isReady, hv, hisReady⟩
  | playerInput =>
    simp only [toOption_playerInput, Option.bind_eq_some_iff] at h
    obtain ⟨v, hv, code, hcode, v', hv', n, hn, -⟩ := h
    exact ⟨⟨v, hv, isNumber_of_getCode hcode⟩, v', hv', isArithmetic_of_getInt hn⟩
  | setReplayReadyState =>
    simp only [toOption_setReplayReadyState, Option.bind_eq_some_iff] at h
    obtain ⟨v, hv, isReadyToReplay, hisReady, -⟩ := h
    exact ⟨v, isReadyToReplay, hv, hisReady⟩
  | notifyCanPlay => trivial
  | leaveGame => trivial

theorem exists_deserializeFields (cast : FloatCast) (h : json.HasFields messageType) :
    ∃ message, (deserializeFields cast json messageType).toOption = some message := by
  cases messageType with
  | joinGame =>
    obtain ⟨⟨v, nickname, hv, hnickname⟩, v', hv', hnumber⟩ := h
    obtain ⟨code, hcode⟩ := getCode_eq_ok cast hnumber
    refine ⟨.joinGame nickname (.ofCode code), ?_⟩
    rw [toOption_joinGame, hv, Option.bind_some, hnickname, Option.bind_some, hv',
      Option.bind_some, hcode]
    rfl
  | setReadyState =>
    obtain ⟨v, isReady, hv, hisReady⟩ := h
    refine ⟨.setReadyState isReady, ?_⟩
    rw [toOption_setReadyState, hv, Option.bind_some, hisReady, Option.bind_some]
  | playerInput =>
    obtain ⟨⟨v, hv, hnumber⟩, v', hv', harithmetic⟩ := h
    obtain ⟨code, hcode⟩ := getCode_eq_ok cast hnumber
    obtain ⟨n, hn⟩ := getInt_eq_ok cast harithmetic
    refine ⟨.playerInput (.ofCode code) n, ?_⟩
    rw [toOption_playerInput, hv, Option.bind_some, hcode, hv']
    simp only [Except.toOption, Option.bind_some, hn]
  | setReplayReadyState =>
    obtain ⟨v, isReadyToReplay, hv, hisReady⟩ := h
    refine ⟨.setReplayReadyState isReadyToReplay, ?_⟩
    rw [toOption_setReplayReadyState, hv, Option.bind_some, hisReady, Option.bind_some]
  | notifyCanPlay => exact ⟨_, rfl⟩
  | leaveGame => exact ⟨_, rfl⟩

/-- A message of the format is read as it is. -/
theorem deserializeFields_of_fields? {message : PlayerActionMessage} (cast : FloatCast)
    (h : json.fields? messageType = some message) :
    (deserializeFields cast json messageType).toOption = some message := by
  cases messageType with
  | joinGame =>
    simp only [fields?, bind, pure, Option.bind_eq_some_iff] at h
    obtain ⟨v, hv, nickname, hnickname, v', hv', difficulty, hd, h⟩ := h
    cases h
    obtain ⟨code, hcode, rfl⟩ := getCode_of_difficulty? hd cast
    rw [toOption_joinGame, hv, Option.bind_some, hnickname, Option.bind_some, hv',
      Option.bind_some, hcode]
    rfl
  | setReadyState =>
    simp only [fields?, bind, pure, Option.bind_eq_some_iff] at h
    obtain ⟨v, hv, isReady, hisReady, h⟩ := h
    cases h
    rw [toOption_setReadyState, hv, Option.bind_some, hisReady, Option.bind_some]
  | playerInput =>
    simp only [fields?, bind, pure, Option.bind_eq_some_iff] at h
    obtain ⟨v, hv, input, hinput, v', hv', n, hn, h⟩ := h
    cases h
    obtain ⟨code, hcode, rfl⟩ := getCode_of_gameplayInput? hinput cast
    rw [toOption_playerInput, hv, Option.bind_some, hcode, hv']
    simp only [Except.toOption, Option.bind_some, getInt_of_int? hn]
  | setReplayReadyState =>
    simp only [fields?, bind, pure, Option.bind_eq_some_iff] at h
    obtain ⟨v, hv, isReadyToReplay, hisReady, h⟩ := h
    cases h
    rw [toOption_setReplayReadyState, hv, Option.bind_some, hisReady, Option.bind_some]
  | notifyCanPlay => exact h
  | leaveGame => exact h

theorem fieldsInRange_of_fields? {message : PlayerActionMessage}
    (h : json.fields? messageType = some message) : json.FieldsInRange messageType := by
  cases messageType with
  | joinGame =>
    simp only [fields?, bind, pure, Option.bind_eq_some_iff] at h
    obtain ⟨v, hv, nickname, hnickname, v', hv', difficulty, hd, -⟩ := h
    intro w hw
    cases hw.symm.trans hv'
    exact Option.isSome_iff_exists.2 ⟨_, hd⟩
  | playerInput =>
    simp only [fields?, bind, pure, Option.bind_eq_some_iff] at h
    obtain ⟨v, hv, input, hinput, v', hv', n, hn, -⟩ := h
    constructor
    · intro w hw
      cases hw.symm.trans hv
      exact Option.isSome_iff_exists.2 ⟨_, hinput⟩
    · intro w hw
      cases hw.symm.trans hv'
      exact Option.isSome_iff_exists.2 ⟨_, hn⟩
  | _ => trivial

theorem exists_fields? (h : json.HasFields messageType) (hrange : json.FieldsInRange messageType) :
    ∃ message, json.fields? messageType = some message := by
  cases messageType with
  | joinGame =>
    obtain ⟨⟨v, nickname, hv, hnickname⟩, v', hv', -⟩ := h
    obtain ⟨difficulty, hd⟩ := Option.isSome_iff_exists.1 (hrange v' hv')
    refine ⟨.joinGame nickname difficulty, ?_⟩
    simp only [fields?, bind, pure, hv, hnickname, hv', hd, Option.bind_some]
  | setReadyState =>
    obtain ⟨v, isReady, hv, hisReady⟩ := h
    refine ⟨.setReadyState isReady, ?_⟩
    simp only [fields?, bind, pure, hv, hisReady, Option.bind_some]
  | playerInput =>
    obtain ⟨⟨v, hv, -⟩, v', hv', -⟩ := h
    obtain ⟨input, hinput⟩ := Option.isSome_iff_exists.1 (hrange.1 v hv)
    obtain ⟨n, hn⟩ := Option.isSome_iff_exists.1 (hrange.2 v' hv')
    refine ⟨.playerInput input n, ?_⟩
    simp only [fields?, bind, pure, hv, hinput, hv', hn, Option.bind_some]
  | setReplayReadyState =>
    obtain ⟨v, isReadyToReplay, hv, hisReady⟩ := h
    refine ⟨.setReplayReadyState isReadyToReplay, ?_⟩
    simp only [fields?, bind, pure, hv, hisReady, Option.bind_some]
  | notifyCanPlay => exact ⟨_, rfl⟩
  | leaveGame => exact ⟨_, rfl⟩

/-- The value is read as the action it stands for, or not at all. -/
theorem deserialize_eq_playerAction?_iff (parse : Bytes → Option Json) {string : Bytes}
    (hparse : parse string = some json) :
    (deserializePlayerActionMessage cast parse string).toOption = json.playerAction? ↔
      json.CastsExact cast := by
  have hformat : json.playerAction? = (json.member? "messageType").bind fun value =>
      value.messageType?.bind json.fields? := rfl
  rw [toOption_deserialize, hparse, Option.bind_some, hformat]
  cases hvalue : json.member? "messageType" with
  | none => exact iff_of_true rfl fun value code messageType h => by cases hvalue.symm.trans h
  | some value =>
    simp only [Option.bind_some]
    cases hcode : value.getCode cast with
    | error failure =>
      refine iff_of_true ?_ fun value' code messageType h h' => ?_
      · cases htype : value.messageType? with
        | none => rfl
        | some messageType =>
          obtain ⟨code, hcode', -⟩ := getCode_of_messageType? htype cast
          cases hcode.symm.trans hcode'
      · cases hvalue.symm.trans h
        cases hcode.symm.trans h'
    | ok code =>
      -- the format and the cast can only disagree about a type if the cast changes the number
      have htypes : ∀ messageType, value.messageType? = some messageType →
          PlayerActionMessageType.ofCode? code = some messageType ∧
            value.integer? = some (code.toNat : Int) := by
        intro messageType htype
        obtain ⟨code', hcode', htype', hinteger⟩ := getCode_of_messageType? htype cast
        cases hcode.symm.trans hcode'
        exact ⟨htype', hinteger⟩
      have hread : (Except.ok code : Except DeserializeFailure UInt32).toOption = some code := rfl
      rw [hread, Option.bind_some]
      cases htype : PlayerActionMessageType.ofCode? code with
      | none =>
        refine iff_of_true ?_ fun value' code' messageType h h' h'' => ?_
        · cases hformat : value.messageType? with
          | none => rfl
          | some messageType => cases htype.symm.trans (htypes messageType hformat).1
        · cases hvalue.symm.trans h
          cases hcode.symm.trans h'
          cases htype.symm.trans h''
      | some messageType =>
        rw [Option.bind_some]
        constructor
        · intro heq value' code' messageType' h h' h'' hfields
          cases hvalue.symm.trans h
          cases hcode.symm.trans h'
          cases htype.symm.trans h''
          obtain ⟨message, hmessage⟩ := exists_deserializeFields cast hfields
          obtain ⟨messageType', htype', hfields'⟩ :=
            Option.bind_eq_some_iff.1 (heq.symm.trans hmessage)
          obtain ⟨hsame, hinteger⟩ := htypes messageType' htype'
          cases htype.symm.trans hsame
          exact ⟨hinteger, fieldsInRange_of_fields? hfields'⟩
        · intro hexact
          by_cases hfields : json.HasFields messageType
          · obtain ⟨hinteger, hrange⟩ := hexact value code messageType hvalue hcode htype hfields
            obtain ⟨message, hmessage⟩ := exists_fields? hfields hrange
            rw [messageType?_of_integer? hinteger htype, Option.bind_some, hmessage]
            exact deserializeFields_of_fields? cast hmessage
          · have hunread : (deserializeFields cast json messageType).toOption = none := by
              rw [Option.eq_none_iff_forall_ne_some]
              exact fun message h => hfields (hasFields_of_deserializeFields h)
            rw [hunread]
            symm
            rw [Option.eq_none_iff_forall_ne_some]
            intro message h
            obtain ⟨messageType', htype', hmessage⟩ := Option.bind_eq_some_iff.1 h
            cases htype.symm.trans (htypes messageType' htype').1
            exact hfields (hasFields_of_deserializeFields
              (deserializeFields_of_fields? cast hmessage))

/-- The text is taken for the action it stands for and for nothing else. -/
structure DecodesExactly (cast : FloatCast) (parse : Bytes → Option Json) (string : Bytes) :
    Prop where
  decodes : (deserializePlayerActionMessage cast parse string).toOption =
    (parse string).bind playerAction?
  publishes : ∀ client : ConnectedClient,
    (client.receiveFromNetwork (deserializePlayerActionMessage cast parse) (.data string)).2 =
      ((parse string).bind playerAction?).toList.map (.publishPlayerActionMessage client.id)

theorem receiveFromNetwork_data
    (deserialize : Bytes → Except DeserializeFailure PlayerActionMessage)
    (client : ConnectedClient) (string : Bytes) :
    (client.receiveFromNetwork deserialize (.data string)).2 =
      (deserialize string).toOption.toList.map (.publishPlayerActionMessage client.id) := by
  rw [ConnectedClient.receiveFromNetwork]
  cases deserialize string <;> rfl

/-- A text is decoded exactly if no cast changes a number of a message that the library
converts. -/
theorem decodesExactly_iff (cast : FloatCast) (parse : Bytes → Option Json) (string : Bytes) :
    DecodesExactly cast parse string ↔
      ∀ json, parse string = some json → json.CastsExact cast := by
  have hdecodes : DecodesExactly cast parse string ↔
      (deserializePlayerActionMessage cast parse string).toOption =
        (parse string).bind playerAction? := by
    refine ⟨fun h => h.decodes, fun h => ⟨h, fun client => ?_⟩⟩
    rw [receiveFromNetwork_data, h]
  rw [hdecodes]
  cases hparse : parse string with
  | none =>
    rw [deserialize_of_parse_eq_none hparse]
    exact iff_of_true rfl nofun
  | some json =>
    rw [Option.bind_some, deserialize_eq_playerAction?_iff parse hparse]
    exact ⟨fun h json' heq => Option.some.inj heq ▸ h, fun h => h json rfl⟩

/-- An input of a button that does not exist. -/
def unlistedInput : Bytes :=
  ascii "\x7b\"messageType\":3,\"inputPressed\":7,\"timeToPress\":250\x7d"

def unlistedInputJson : Json :=
  .object [(ascii "inputPressed", .number 7), (ascii "messageType", .number 3),
    (ascii "timeToPress", .number 250)]

theorem unlisted_input_is_accepted :
    ¬ ∀ (cast : FloatCast) (parse : Bytes → Option Json) (string : Bytes),
      DecodesExactly cast parse string := by
  intro hall
  have hdecodes := (hall ⟨fun _ => 0, fun _ => 0⟩
    (fun t => if t = unlistedInput then some unlistedInputJson else none) unlistedInput).decodes
  exact absurd (congrArg Option.isSome hdecodes) (by decide)

end Serializer

end SamuraiKirby
