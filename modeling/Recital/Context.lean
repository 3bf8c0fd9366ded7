import Recital.Script.Basic
import Recital.Playback.Snapshot
import Recital.Word

/-!
# The context of a playback

Where a playback stands: the script, the line to execute next, the return addresses, the
breakpoints, the variables and the counters.  A flow action moves it.
-/

namespace Recital

/-- The state of a playback that its lines act on (`ExecutionContext`). -/
structure Context where
  /-- The script that is loaded. -/
  script : Option Script := none
  /-- The line to execute next. -/
  cursor : Nat := 0
  /-- The labels of the script. -/
  labels : Table Nat := ∅
  /-- The return addresses, the latest last. -/
  frames : List Frame := []
  /-- The lines before which the playback pauses, in increasing order. -/
  breakpoints : List Nat := []
  /-- The variables. -/
  vars : Table Json := ∅
  /-- How many lines were executed. -/
  linesExecuted : Nat := 0
  /-- How many commands were executed. -/
  commandsExecuted : Nat := 0
  /-- The playback is being stepped. -/
  stepMode : Bool := false
  /-- When the playback started, in milliseconds. -/
  startedAt : Option Nat := none
  /-- The breakpoint that has paused the playback and lets its line through once. -/
  released : Option Nat := none

instance : Inhabited Context := ⟨{}⟩

namespace Context

/-! ### Scripts -/

/-- The number of lines of the loaded script. -/
def lineCount (c : Context) : Nat := (c.script.map Script.size).getD 0

/-- The name of the loaded script. -/
def scriptName? (c : Context) : Option String := c.script.map Script.name

/-- The name of the loaded script, empty when there is none. -/
def scriptName (c : Context) : String := c.scriptName?.getD ""

/-- Prepares for a playback of a script from its start.  Only the breakpoints are kept. -/
def resetFor (c : Context) (script : Script) (now : Nat) : Context :=
  { script := some script, breakpoints := c.breakpoints, startedAt := some now }

/-- Continues with another script.  Variables, counters and breakpoints are kept. -/
def switchTo (c : Context) (script : Script) (labels : Table Nat) : Context :=
  { c with script := some script, cursor := 0, labels, frames := [], released := none }

/-! ### The cursor -/

/-- Moves the cursor. -/
def moveTo (c : Context) (index : Nat) : Context := { c with cursor := index }

/-- Moves the cursor to the next line. -/
def advance (c : Context) : Context := c.moveTo (c.cursor + 1)

/-- The line under the cursor. -/
def currentLine (c : Context) : Option Line := c.script.bind (·.line? c.cursor)

/-- The cursor stands on a line. -/
def canContinue (c : Context) : Bool := c.cursor < c.lineCount

/-- The part of the script that lies before the cursor. -/
def progress (c : Context) : Binary64 :=
  if c.lineCount = 0 then Binary64.zero
  else Binary64.ofRatio false (min c.cursor c.lineCount) c.lineCount

/-! ### Return addresses -/

/-- Leaves a return address. -/
def pushFrame (c : Context) (f : Frame) : Context := { c with frames := c.frames ++ [f] }

/-- Takes the latest return address. -/
def popFrame (c : Context) : Option (Frame × Context) :=
  c.frames.getLast?.map fun f => (f, { c with frames := c.frames.dropLast })

/-! ### Breakpoints -/

/-- Adds a number to an increasing list. -/
def insertMark (n : Nat) : List Nat → List Nat
  | [] => [n]
  | m :: rest =>
    if n < m then n :: m :: rest else if n = m then m :: rest else m :: insertMark n rest

/-- The increasing list of the given numbers. -/
def marks (ns : List Nat) : List Nat := ns.foldr insertMark []

/-- Sets a breakpoint. -/
def addBreakpoint (c : Context) (index : Nat) : Context :=
  { c with breakpoints := insertMark index c.breakpoints }

/-- Forgets that the breakpoint of a line has paused the playback. -/
def unrelease (c : Context) (index : Nat) : Context :=
  if c.released = some index then { c with released := none } else c

/-- Removes a breakpoint. -/
def removeBreakpoint (c : Context) (index : Nat) : Context :=
  { c.unrelease index with breakpoints := c.breakpoints.filter (· != index) }

/-- Removes all breakpoints. -/
def clearBreakpoints (c : Context) : Context := { c with breakpoints := [], released := none }

/-- The breakpoint that pauses the playback now.  One that has just done so lets its line
through. -/
def takeBreakpoint (c : Context) : Option Nat × Context :=
  if !c.breakpoints.contains c.cursor then (none, c)
  else if c.released = some c.cursor then (none, { c with released := none })
  else (some c.cursor, { c with released := some c.cursor })

/-- Notes that a line was executed. -/
def lineFinished (c : Context) (index : Nat) : Context := c.unrelease index

/-! ### Variables and counters -/

/-- Sets a variable. -/
def assign (c : Context) (name : String) (value : Json) : Context :=
  { c with vars := c.vars.insert name value }

/-- Removes a variable. -/
def unassign (c : Context) (name : String) : Context :=
  { c with vars := c.vars.erase name }

/-- Removes all variables. -/
def clearVariables (c : Context) : Context := { c with vars := ∅ }

/-- Counts a line, in a 64-bit word. -/
def recordLine (c : Context) : Context := { c with linesExecuted := Word.next 64 c.linesExecuted }

/-- Counts a command, in a 64-bit word. -/
def recordCommand (c : Context) : Context :=
  { c with commandsExecuted := Word.next 64 c.commandsExecuted }

/-- What a command on the given line of the given script sees. -/
def view (c : Context) (line : Nat) (script : String) : View :=
  { line, script, lineCount := c.lineCount, stepMode := c.stepMode, labels := c.labels,
    vars := c.vars }

/-! ### Snapshots -/

/-- A snapshot of the playback, if a script is loaded. -/
def snapshot? (c : Context) (at_ : Instant) : Option Snapshot :=
  c.script.map fun script =>
    { scriptName := script.name, cursor := c.cursor, frames := c.frames,
      vars := c.vars, breakpoints := c.breakpoints,
      linesExecuted := c.linesExecuted, commandsExecuted := c.commandsExecuted, savedAt := at_ }

/-- Restores a snapshot of the loaded script. -/
def restore (c : Context) (s : Snapshot) : Context :=
  { c with
    cursor := s.cursor, frames := s.frames, vars := s.vars,
    breakpoints := marks s.breakpoints, linesExecuted := s.linesExecuted,
    commandsExecuted := s.commandsExecuted, released := none }

/-! ### Flow actions -/

/-- What is left to do after a flow action was resolved (`FlowOutcome`). -/
inductive Resolution
  /-- Go on with the next line. -/
  | advance
  /-- The cursor was moved. -/
  | jumped (line : Nat)
  /-- The cursor was moved to a return address, which was taken. -/
  | returned (line : Nat)
  | stop (reason : String)
  /-- There was nothing to return to. -/
  | completed
  | call (script : String)

/-- Resolves a flow action.  A target that does not exist is a fault, and then nothing changes. -/
def resolve (c : Context) : Flow → Except Fault (Resolution × Context)
  | .next => .ok (.advance, c)
  | .toLine index =>
    if index < c.lineCount then .ok (.jumped index, c.moveTo index)
    else .error <|
      (Fault.validation
        ("jump target line " ++ Text.ofNat index ++ " is out of range (script has " ++
          Text.ofNat c.lineCount ++ " lines)")).withContext "target" (Text.ofNat index)
  | .toLabel label =>
    match c.labels.get? label with
    | some index => .ok (.jumped index, c.moveTo index)
    | none => .error <|
      (Fault.validation ("label not found: " ++ label)).withContext "label" label
  | .stop reason => .ok (.stop reason, c)
  | .back =>
    match c.popFrame with
    | some (frame, c) => .ok (.returned frame.returnLine, c.moveTo frame.returnLine)
    | none => .ok (.completed, c.moveTo c.lineCount)
  | .call script => .ok (.call script, c)

/-- Takes return addresses until the cursor stands on a line.  `depth` bounds how many are taken. -/
def implicitReturn : Nat → Context → Context
  | 0, c => c
  | depth + 1, c =>
    if c.canContinue then c
    else match c.popFrame with
      | some (frame, c) => implicitReturn depth (c.moveTo frame.returnLine)
      | none => c

/-- Past the end of the script, returns to the latest address that lies on a line. -/
def settleCursor (c : Context) : Context := implicitReturn c.frames.length c

end Context

end Recital
