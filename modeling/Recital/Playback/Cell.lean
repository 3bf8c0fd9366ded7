import Recital.Playback.State

/-!
# The current state and its changes

A cell holds the state of a playback.  It is changed by the allowed moves and by a reset to `idle`;
each change is told to those who watch the cell.  A refused change leaves the cell as it is.
-/

namespace Recital

/-- A change of state. -/
structure State.Change where
  /-- The state that was left. -/
  before : State
  /-- The state that was entered. -/
  after : State
deriving DecidableEq

/-- The current state of a playback, as `PlaybackStateManager` holds it. -/
structure Cell where
  /-- The state. -/
  current : State := .idle
  /-- The state that watchers were told last. -/
  watched : State := .idle
deriving DecidableEq

namespace Cell

/-- Enters a state and tells those who watch. -/
def commit (c : Cell) (target : State) : Cell × State.Change :=
  ({ current := target, watched := target }, ⟨c.current, target⟩)

/-- Moves to a state, or refuses. -/
def move (c : Cell) (target : State) : Except InvalidMove (Cell × State.Change) :=
  match c.current.move target with
  | .ok target => .ok (c.commit target)
  | .error e => .error e

/-- Moves to a state if the move is allowed. -/
def moveIfAllowed (c : Cell) (target : State) : Option (Cell × State.Change) :=
  if c.current.allows target then some (c.commit target) else none

/-- Moves to a state if the cell holds the expected one and the move is allowed. -/
def moveFrom (c : Cell) (expected target : State) : Option (Cell × State.Change) :=
  if c.current = expected ∧ expected.allows target then some (c.commit target) else none

/-- Goes back to `idle` from any other state. -/
def reset (c : Cell) : Option (Cell × State.Change) :=
  if c.current = .idle then none else some (c.commit .idle)

/-- How waiting for the end of a pause goes: whether it ended, `none` while it lasts.  Cancellation
ends the waiting and not the pause. -/
def pauseOver (c : Cell) (cancelled : Bool) : Option Bool :=
  if c.watched ≠ .paused then some true else if cancelled then some false else none

end Cell

end Recital
