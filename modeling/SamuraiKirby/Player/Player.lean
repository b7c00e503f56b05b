/-
Players, the inputs they press and the clock they are timed with.

`GameplayInput` and `GameDifficulty` are unscoped enumerations that the
deserializer fills with a plain cast from a number, so a value outside the
listed enumerators can reach the game.  `unlisted` keeps such a number.
-/
import Mathlib.Data.Option.Basic

namespace SamuraiKirby

/-- `int` player ids, handed out by the server. -/
abbrev PlayerId := Int

/-- A `std::string` as its bytes. -/
abbrev Bytes := List UInt8

inductive PlayerAssignment where
  | P1
  | P2
deriving DecidableEq, Repr

/-- The opposite assignment, spelled `a == P1 ? P2 : P1` throughout the source. -/
def PlayerAssignment.other : PlayerAssignment → PlayerAssignment
  | .P1 => .P2
  | .P2 => .P1

inductive GameplayInput where
  | north
  | west
  | east
  | south
  | unlisted (code : UInt32) (h : 3 < code)
deriving DecidableEq, Repr

inductive GameDifficulty where
  | easy
  | medium
  | hard
  | unlisted (code : UInt32) (h : 2 < code)
deriving DecidableEq, Repr

/-- The enumerator with a given code, as `static_cast` gives it. -/
def GameplayInput.ofCode (code : UInt32) : GameplayInput :=
  if h : 3 < code then .unlisted code h
  else if code = 3 then .south
  else if code = 2 then .east
  else if code = 1 then .west
  else .north

/-- The enumerator with a given code, as `static_cast` gives it. -/
def GameDifficulty.ofCode (code : UInt32) : GameDifficulty :=
  if h : 2 < code then .unlisted code h
  else if code = 2 then .hard
  else if code = 1 then .medium
  else .easy

/-! ## The clock -/

/-- A `system_clock::time_point`, in nanoseconds since the epoch. -/
abbrev ChronoTimePoint := Int

/-- Two to the power of 32. -/
def wordSize : Nat := 4294967296

/-- Nanoseconds in a second. -/
def nanosecondsPerSecond : Int := 1000000000

/-- `duration_cast<seconds>(getTimeNow() - reference).count()` narrowed to `int`.  The cast
truncates toward zero and the narrowing wraps at 32 bits.  `now` is the reading that the
call to `getTimeNow` returns. -/
def getSecondsSince (now reference : ChronoTimePoint) : Int :=
  Int.bmod (Int.tdiv (now - reference) nanosecondsPerSecond) wordSize

/-! ## Players -/

structure Player where
  id : PlayerId
  nickname : Bytes
  assignment : PlayerAssignment
  isReady : Bool := false
  canPlay : Bool := false
  isReadyToReplay : Bool := false
  inputPressed : Option GameplayInput := none
  timeToPress : Option Int := none
  inputPressedAtServerTime : Option ChronoTimePoint := none
deriving DecidableEq, Repr

structure PlayerLobbyDTO where
  nickname : Bytes
  assignment : PlayerAssignment
  isReady : Bool
deriving DecidableEq, Repr

structure PlayerGameResultDTO where
  assignment : PlayerAssignment
  inputPressed : Option GameplayInput
  timeToPress : Option Int
deriving DecidableEq, Repr

namespace Player

/-- Clears everything but `inputPressedAtServerTime`. -/
def resetToReplay (p : Player) : Player :=
  { p with
    isReady := true
    canPlay := false
    isReadyToReplay := false
    inputPressed := none
    timeToPress := none }

def buildLobbyDTO (p : Player) : PlayerLobbyDTO :=
  ⟨p.nickname, p.assignment, p.isReady⟩

def buildGameoverDTO (p : Player) : PlayerGameResultDTO :=
  ⟨p.assignment, p.inputPressed, p.timeToPress⟩

@[simp] theorem resetToReplay_id (p : Player) : p.resetToReplay.id = p.id := rfl

@[simp] theorem resetToReplay_assignment (p : Player) :
    p.resetToReplay.assignment = p.assignment := rfl

@[simp] theorem resetToReplay_inputPressed (p : Player) :
    p.resetToReplay.inputPressed = none := rfl

@[simp] theorem resetToReplay_timeToPress (p : Player) :
    p.resetToReplay.timeToPress = none := rfl

/-- A reset keeps the server time of the last input. -/
@[simp] theorem resetToReplay_inputPressedAtServerTime (p : Player) :
    p.resetToReplay.inputPressedAtServerTime = p.inputPressedAtServerTime := rfl

/-- A pressed input comes with both of its times. -/
structure Paired (p : Player) : Prop where
  declared : p.timeToPress.isSome = p.inputPressed.isSome
  handled : p.inputPressed.isSome → p.inputPressedAtServerTime.isSome

theorem Paired.resetToReplay {p : Player} (_h : p.Paired) : p.resetToReplay.Paired :=
  ⟨rfl, fun h => by simp at h⟩

end Player

end SamuraiKirby
