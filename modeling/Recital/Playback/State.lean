import Recital.Json.Shape

/-!
# Playback states

The states of a playback and the moves between them:

* `idle → loading → playing`, `playing ⇄ paused` and `playing ⇄ waiting`;
* `loading` and `playing` may fail, every active state may be stopped, `playing` may complete.

A state that ended a playback is left only by a reset to `idle`, which is not one of these moves.
-/

namespace Recital

/-- The state of a playback (`PlaybackState`). -/
inductive State
  /-- Nothing is loaded. -/
  | idle
  /-- The script is being checked and its resources fetched. -/
  | loading
  /-- Lines are being executed. -/
  | playing
  /-- Suspended by a caller or by a breakpoint. -/
  | paused
  /-- A command is in flight. -/
  | waiting
  /-- Ended early. -/
  | stopped
  /-- Ran past the last line with nothing left to return to. -/
  | completed
  /-- The script could not be played. -/
  | failed
deriving DecidableEq, Inhabited

namespace State

/-- The name of a state. -/
def name : State → String
  | idle => "idle"
  | loading => "loading"
  | playing => "playing"
  | paused => "paused"
  | waiting => "waiting"
  | stopped => "stopped"
  | completed => "completed"
  | failed => "failed"

/-- All states. -/
def all : List State := [idle, loading, playing, paused, waiting, stopped, completed, failed]

/-- The playback has ended. -/
def isTerminal : State → Bool
  | stopped | completed | failed => true
  | _ => false

/-- A playback is in progress. -/
def isActive : State → Bool
  | loading | playing | paused | waiting => true
  | _ => false

/-- The allowed moves. -/
def allows : State → State → Bool
  | idle, loading => true
  | loading, playing | loading, failed | loading, stopped => true
  | playing, paused | playing, waiting | playing, stopped | playing, completed
  | playing, failed => true
  | paused, playing | paused, stopped => true
  | waiting, playing | waiting, stopped => true
  | _, _ => false

/-- Why a move is refused. -/
def refusal : State → State → String
  | stopped, _ | completed, _ | failed, _ =>
    "terminal state - reset the engine before playing again"
  | _, idle => "returning to Idle requires a reset"
  | idle, _ => "nothing is loaded - start a playback first"
  | paused, waiting => "resume before executing a command"
  | waiting, paused => "a command is in flight - pause applies after it completes"
  | waiting, completed => "a command is in flight - cannot complete yet"
  | paused, completed => "resume before completing"
  | loading, paused | loading, waiting => "still loading"
  | _, _ => "invalid state transition"

/-- A state is written as its name. -/
def toJson (s : State) : Json := .str s.name

/-- Reads the name of a state where it stands. -/
def ofJsonAt? : Json.Site → Json → Option State := Json.named? name all

/-- Reads the name of a state. -/
def ofJson? : Json → Option State := ofJsonAt? .free

end State

/-- A move that is not allowed (`InvalidTransition`). -/
structure InvalidMove where
  /-- The state that was to be left. -/
  source : State
  /-- The state that was to be entered. -/
  target : State
deriving DecidableEq

namespace InvalidMove

/-- Why the move is refused. -/
def reason (m : InvalidMove) : String := m.source.refusal m.target

/-- The refusal with both states. -/
def message (m : InvalidMove) : String :=
  "invalid playback transition from " ++ m.source.name ++ " to " ++ m.target.name ++ ": " ++
    m.reason

end InvalidMove

/-- The state after a move, or the refusal. -/
def State.move (s t : State) : Except InvalidMove State :=
  if s.allows t then .ok t else .error ⟨s, t⟩

end Recital
