import Recital.Bus
import Recital.Command.Ledger
import Recital.Context
import Recital.Playback.Cell
import Recital.Playback.Recovery
import Recital.Player.Host
import Recital.Player.Lock
import Recital.Player.Refusal
import Recital.Tally

/-!
# Players

A player plays one script at a time.  Its state is everything that playbacks and requests share:
the state of the playback, its context, the bus, the store, the locks, and what was left over for
the playback by the last request.  This file has the operations that take no time.
-/

namespace Recital

/-- What cancels a playback: the player itself, or a caller to whose signal it is bound. -/
structure Token where
  /-- The number of the playback. -/
  id : Nat
  /-- The signal of the caller counts as well. -/
  bound : Bool
deriving DecidableEq

/-- How a playback comes to its end (`Finish`). -/
inductive Finish
  /-- The last line was passed with nothing left to return to. -/
  | completed
  | stopped (reason : String)
  | failed (fault : Fault) (line : Nat)
  /-- Ended by a remedy, which keeps the fault. -/
  | halted (fault : Fault) (line : Nat)
  | cancelled

/-- What follows a line (`LineStep`). -/
inductive LineEnd
  /-- Another line. -/
  | next
  /-- The end of the playback. -/
  | finished (finish : Finish)

/-- Something that the host was asked to do, and when. -/
inductive Trace
  /-- A command of the host was attempted for the `n`-th time on a line. -/
  | attempted (type : String) (line n : Nat) (at_ : Nat)
  /-- A text was shown. -/
  | presented (text : String) (at_ : Nat)
  /-- Resources were fetched. -/
  | preloaded (script : String) (at_ : Nat)

/-- A measurement (`ExecutionSample`, `MemorySample`). -/
inductive Sample
  /-- One attempt of a command. -/
  | execution (script : String) (line : Nat) (type : String) (success : Bool) (attempt : Nat)
  /-- The memory in use. -/
  | memory (script : String) (bytes lines : Nat)

/-- A line that a script wrote to the log. -/
structure Note where
  script : String
  line : Nat
  message : String

/-- A player (`ScriptEngine`). -/
structure Player where
  /-- What the player is given. -/
  host : Host
  /-- Where events go. -/
  bus : Bus
  /-- Where snapshots are kept. -/
  store : Option Store := none
  /-- The state of the playback. -/
  cell : Cell := {}
  /-- Where the playback stands. -/
  context : Context := {}
  /-- The checkpoint, and how recovery went. -/
  recovery : Recovery := {}
  /-- How commands went. -/
  ledger : Ledger := {}
  /-- Held for the whole of a playback (`play_gate`). -/
  gate : Lock := {}
  /-- Held while a line is executed or the cursor is moved (`exec_lock`). -/
  lineLock : Lock := {}
  /-- What cancels the playback (`run_token`). -/
  token : Option Token := none
  /-- The run that events are published for (`run_context`). -/
  run : Run := .numbered 0
  /-- The next identifier. -/
  serial : Nat := 1
  /-- The playbacks that the player has cancelled. -/
  cancelled : List Nat := []
  /-- The caller has given its signal. -/
  callerCancelled : Bool := false
  /-- No playback is started any more. -/
  isShutDown : Bool := false
  /-- The number that the delay after each line is divided by. -/
  speed : Binary64 := host.config.pacing.speed
  /-- A pause was asked for while a command was in flight. -/
  pauseRequested : Bool := false
  /-- The playback was stopped by request. -/
  stopRequested : Bool := false
  /-- An end that a single step came to, left for the playback to pick up. -/
  deferred : Option Finish := none
  /-- The repetitions and rollbacks that each line has used up (`line_attempts`). -/
  spent : Tally := {}
  /-- How often the command of each line was attempted since the script was loaded. -/
  attempts : Tally := {}
  /-- The time by the clock that timers go by, in milliseconds. -/
  now : Nat := 0
  /-- Where cancellation and something else are noticed together, cancellation counts. -/
  prompt : Bool := true
  /-- How many readings of the memory were taken. -/
  readings : Nat := 0
  /-- How many random numbers were drawn. -/
  draws : Nat := 0
  /-- What the host was asked to do. -/
  trace : Array Trace := #[]
  /-- The measurements. -/
  samples : Array Sample := #[]
  /-- The log. -/
  notes : Array Note := #[]

namespace Player

/-- The state of the playback. -/
def state (p : Player) : State := p.cell.current

/-- The tolerance that is configured. -/
def tolerance (p : Player) : Tolerance := p.host.config.tolerance

/-- What the stopwatch shows. -/
def stopwatch (p : Player) : Nat := p.host.stopwatch p.now

/-- The playback of the token is cancelled. -/
def isCancelled (p : Player) (t : Token) : Bool :=
  p.cancelled.contains t.id || (t.bound && p.callerCancelled)

/-- How far ahead a timer is set at most: thirty years, in milliseconds. -/
def horizon : Nat := 30 * 365 * 86400 * 1000

/-- When a timer set now goes off.  Timers go off at whole milliseconds, and a span beyond what a
clock can show counts as the horizon. -/
def timer (p : Player) (span : Span) : Nat :=
  p.now + if Nat.pow 2 63 ≤ span.secs then horizon else span.millisUp

/-! ### Events and the state -/

/-- Publishes an event of a run. -/
def publish (p : Player) (run : Run) (payload : Event.Payload) : Player :=
  { p with bus := p.bus.publish ⟨payload, Instant.ofMillis p.now, run⟩ }

/-- Publishes how far the playback has come. -/
def publishProgress (p : Player) : Player := p.publish p.run (.progressChanged p.context.progress)

/-- Takes over a change of state and publishes it. -/
def commit (p : Player) (run : Run) (change : Cell × State.Change) : Player :=
  { p with cell := change.1 }.publish run (.stateChanged change.2.before change.2.after)

/-- Moves to a state if that is allowed. -/
def moveIfAllowed (p : Player) (run : Run) (target : State) : Player :=
  match p.cell.moveIfAllowed target with
  | some change => p.commit run change
  | none => p

/-- Moves from the expected state to another; says whether it did. -/
def moveFrom (p : Player) (run : Run) (expected target : State) : Bool × Player :=
  match p.cell.moveFrom expected target with
  | some change => (true, p.commit run change)
  | none => (false, p)

/-- Goes back to `idle`. -/
def resetState (p : Player) (run : Run) : Player :=
  match p.cell.reset with
  | some change => p.commit run change
  | none => p

/-! ### Variables -/

/-- Writes a variable.  Nobody has been told yet. -/
def writeVariable (p : Player) (name : String) (value : Json) : Player :=
  { p with context := p.context.assign name value }

/-- Sets a variable: it is written, and then told. -/
def setVariable (p : Player) (run : Run) (name : String) (value : Json) : Player :=
  (p.writeVariable name value).publish run (.variableChanged name (some value))

/-- Drops all variables.  Nobody has been told yet. -/
def dropVariables (p : Player) : Player := { p with context := p.context.clearVariables }

/-- Removes all variables: they are dropped, and then told one after the other. -/
def clearVariables (p : Player) (run : Run) : Player :=
  p.context.vars.keys.foldl (fun p name => p.publish run (.variableChanged name none))
    p.dropVariables

/-! ### Stopping and deferring -/

/-- Cancels the playback in progress. -/
def cancelRun (p : Player) : Player :=
  match p.token with
  | some t => { p with cancelled := t.id :: p.cancelled }
  | none => p

/-- Stops the playback, if there is one. -/
def stop (p : Player) : Player :=
  if p.state.isActive then
    ({ p with stopRequested := true }.moveIfAllowed p.run .stopped).cancelRun
  else p

/-- Forgets what the last playback has left over. -/
def clearLeftovers (p : Player) : Player :=
  { p with pauseRequested := false, stopRequested := false, deferred := none, spent := {} }

/-- Leaves an end for the playback to pick up, and wakes it if it is paused. -/
def defer (p : Player) (finish : Finish) : Player :=
  ({ p with deferred := some finish }.moveFrom p.run .paused .playing).2

/-- Sets the rollback checkpoint to where the playback stands. -/
def setCheckpoint (p : Player) : Player :=
  match p.context.snapshot? (Instant.ofMillis p.now) with
  | some s => { p with recovery := p.recovery.setCheckpoint s }
  | none => p

/-- Takes a reading of the memory in use. -/
def measureMemory (p : Player) : Player :=
  match p.host.measures, p.host.memory with
  | true, some memory =>
    let taken := { p with readings := p.readings + 1 }
    match memory p.readings with
    | some bytes =>
      { taken with
        samples := p.samples.push
          (.memory p.context.scriptName bytes p.context.linesExecuted) }
    | none => taken
  | _, _ => p

end Player

end Recital
