import Recital.Player.Basic

/-!
# Requests that take no time

What a player does at once: pausing and resuming, the speed, breakpoints and variables.  Stopping
is among the basic operations.
-/

namespace Recital.Player

/-- A new player. -/
def create (host : Host) (bus : Bus) (store : Option Store) : Player := { host, bus, store }

/-- Pauses the playback; while a command is in flight the pause takes effect after its line. -/
def pause (p : Player) : Except Refusal Unit × Player :=
  match p.state with
  | .paused => (.ok (), p)
  | .playing =>
    (.ok (), { (p.moveFrom p.run .playing .paused).2 with pauseRequested := false })
  | .waiting => (.ok (), { p with pauseRequested := true })
  | state => (.error (.wrongState "pause" state), p)

/-- Ends a pause, and takes back one that has not taken effect. -/
def resume (p : Player) : Except Refusal Unit × Player :=
  let p := { p with pauseRequested := false }
  match p.state with
  | .paused => (.ok (), (p.moveFrom p.run .paused .playing).2)
  | .playing | .waiting => (.ok (), p)
  | state => (.error (.wrongState "resume" state), p)

/-- Gives the signal of the caller. -/
def cancelCaller (p : Player) : Player := { p with callerCancelled := true }

/-- Sets the playback speed. -/
def setSpeed (p : Player) (speed : Binary64) : Except Refusal Unit × Player :=
  if isValidSpeed speed then (.ok (), { p with speed })
  else (.error (.invalidValue "playback_speed" (speedRefusal speed)), p)

/-- Sets a breakpoint; says whether it is new. -/
def addBreakpoint (p : Player) (index : Nat) : Bool × Player :=
  (!p.context.breakpoints.contains index, { p with context := p.context.addBreakpoint index })

/-- Removes a breakpoint; says whether it was there. -/
def removeBreakpoint (p : Player) (index : Nat) : Bool × Player :=
  (p.context.breakpoints.contains index, { p with context := p.context.removeBreakpoint index })

/-- Removes all breakpoints. -/
def clearBreakpoints (p : Player) : Player := { p with context := p.context.clearBreakpoints }

/-- Sets a variable. -/
def assign (p : Player) (name : String) (value : Json) : Player := p.setVariable p.run name value

/-- Removes all variables. -/
def unassignAll (p : Player) : Player := p.clearVariables p.run

/-- A snapshot of the playback. -/
def snapshot? (p : Player) : Option Snapshot := p.context.snapshot? (Instant.ofMillis p.now)

end Recital.Player
