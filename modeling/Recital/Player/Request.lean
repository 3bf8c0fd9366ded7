import Recital.Player.Line

/-!
# Requests that take time

A request to a player goes through phases.  In each it waits for something: a lock, an instant, the
end of a pause, a store or a loader, or for what the line waits for that it executes.
`Player.step` takes a request on from a phase and says what it waits for next, or how it has ended.
All that happens in one step happens at once.
-/

namespace Recital

/-- Where a playback starts (`Start`). -/
inductive Start
  | beginning
  | line (index : Nat)
  | snapshot (s : Snapshot)

/-- A request that takes time. -/
inductive Request
  /-- Plays a script; a bound playback ends at the signal of the caller. -/
  | play (script : Script) (start : Start) (bound : Bool)
  /-- Loads a script and plays it. -/
  | playNamed (name : String)
  /-- Stops, and forgets everything but the statistics. -/
  | reset
  /-- Stops for good. -/
  | shutDown
  /-- Executes one line. -/
  | stepForward
  /-- Moves the cursor back by one line. -/
  | stepBackward
  | skipToLine (index : Nat)
  | skipToLabel (label : String)
  /-- Saves a snapshot under a new key. -/
  | save
  /-- Reads a saved snapshot. -/
  | loadSnapshot (key : String)
  /-- Restores a saved snapshot. -/
  | loadState (key : String)

/-- How a request ends. -/
inductive Answer
  | report (r : Report)
  | done
  /-- The new cursor. -/
  | cursor (index : Nat)
  /-- The new key. -/
  | key (key : String)
  | snapshot (s : Snapshot)
  | refused (r : Refusal)

/-- A playback that has started: what `run_loop` knows of it. -/
structure Play where
  /-- What cancels it. -/
  token : Token
  /-- When it was last saved automatically, or has started, by the stopwatch. -/
  savedAt : Nat

/-- What a request waits for. -/
inductive Phase
  /-- To be taken up. -/
  | entering (request : Request)
  /-- A script to play. -/
  | loading (name : String)
  /-- The gate, to play. -/
  | playGate (script : Script) (start : Start) (bound : Bool)
  /-- The resources of a script. -/
  | preloading (token : Token) (run : Run) (script : String) (until_ : Nat)
  /-- The end of a pause. -/
  | paused (play : Play)
  /-- The line lock, to play on. -/
  | playLock (play : Play)
  /-- A line of a playback. -/
  | playing (play : Play) (line : LinePhase)
  /-- The end of the delay after a line. -/
  | delaying (play : Play) (until_ : Nat)
  /-- An automatic save. -/
  | autosaving (play : Play) (s : Snapshot)
  /-- The gate, to reset. -/
  | resetGate
  /-- The gate, to shut down. -/
  | closeGate
  /-- The line lock, to execute a line. -/
  | stepLock
  /-- A line that is executed on its own. -/
  | stepping (line : LinePhase)
  /-- The line lock, to go back. -/
  | backLock
  /-- The line lock, to move the cursor. -/
  | skipLock (index : Nat)
  /-- A save under a new key. -/
  | storing (key : String) (s : Snapshot)
  /-- A saved snapshot, to return or to restore it. -/
  | fetching (key : String) (restoring : Bool)
  /-- The line lock, to restore a snapshot. -/
  | restoreLock (s : Snapshot)

/-- How far a request has got. -/
inductive Progress
  /-- Nothing can be done yet. -/
  | blocked
  | goes (phase : Phase)
  | ends (answer : Answer)

namespace Player

/-! ### The end of a playback -/

/-- Enters the last state of a playback; gives the outcome, the fault and its line. -/
def conclude (p : Player) (f : Finish) : Player × Outcome × Option (Fault × Nat) :=
  match f with
  | .completed =>
    (((p.moveFrom p.run .paused .playing).2).moveIfAllowed p.run .completed, .success, none)
  | .stopped _ => (p.moveIfAllowed p.run .stopped, .stopped, none)
  | .failed fault line => (p.moveIfAllowed p.run .stopped, .failure, some (fault, line))
  | .halted fault line => (p.moveIfAllowed p.run .stopped, .stopped, some (fault, line))
  | .cancelled =>
    (p.moveIfAllowed p.run .stopped, if p.stopRequested then .stopped else .cancelled, none)

/-- The report of a playback that has ended. -/
def report (p : Player) (outcome : Outcome) (fault : Option (Fault × Nat)) : Report :=
  { outcome
    scriptName := p.context.scriptName
    linesExecuted := p.context.linesExecuted
    commandsExecuted := p.context.commandsExecuted
    elapsed := Span.ofMillis (p.stopwatch - p.context.startedAt.getD p.stopwatch)
    fault := fault.map Prod.fst
    lineIndex := fault.map Prod.snd }

/-- Publishes the end of a playback. -/
def publishEnd (p : Player) (r : Report) : Player :=
  match r.fault with
  | some fault => p.publish p.run (.scriptFailed r.scriptName fault)
  | none => p.publish p.run (.scriptCompleted r.scriptName r)

/-- Ends a playback and opens the gate. -/
def finish (p : Player) (f : Finish) : Player × Progress :=
  let (p, outcome, fault) := p.conclude f
  let r := p.report outcome fault
  let p := (p.publishEnd r).measureMemory
  ({ p with token := none, gate := p.gate.release }, .ends (.report r))

/-! ### The loop of a playback -/

/-- Goes on with a playback that is not paused: it ends, or asks for the line lock. -/
def playOn (p : Player) (id : Nat) (play : Play) : Player × Progress :=
  match p.deferred with
  | some f => { p with deferred := none }.finish f
  | none =>
    if p.isCancelled play.token then p.finish .cancelled
    else match p.state with
      | .playing | .waiting =>
        ({ p with lineLock := p.lineLock.request id }, .goes (.playLock play))
      | .paused => (p, .goes (.paused play))
      | .completed => p.finish .completed
      | _ => p.finish .cancelled

/-- Goes on with a playback between two lines. -/
def continuePlay (p : Player) (id : Nat) (play : Play) : Player × Progress :=
  if p.state = .paused then (p, .goes (.paused play)) else p.playOn id play

/-- The snapshot that is to be saved automatically now, if there is one. -/
def autosaveDue (p : Player) (play : Play) : Option Snapshot :=
  match p.host.config.pacing.autosaveInterval, p.store with
  | some interval, some _ =>
    if interval.nanos ≤ (Span.ofMillis (p.stopwatch - play.savedAt)).nanos then
      p.context.snapshot? (Instant.ofMillis p.now)
    else none
  | _, _ => none

/-- Saves automatically if it is time, and goes on. -/
def autosave (p : Player) (id : Nat) (play : Play) : Player × Progress :=
  match p.autosaveDue play with
  | some s =>
    ({ p with recovery := p.recovery.setCheckpoint s },
      .goes (.autosaving { play with savedAt := p.stopwatch } s))
  | none => p.continuePlay id play

/-- The delay after a line: the one at speed one divided by the speed, or the longest span where
that makes no sense. -/
def lineDelay (p : Player) : Span :=
  let base := p.host.config.pacing.lineDelay
  if base = .zero || p.speed = .infinity || p.speed = .negInfinity then .zero
  else if p.speed.isNaN || p.speed.isNegative || p.speed.magnitudeBits == 0 then .longest
  else (Span.ofFloatSeconds? (base.seconds.divPositive p.speed)).getD .longest

/-- Goes on after a line of a playback. -/
def afterLine (p : Player) (id : Nat) (play : Play) (by_ : LineEnd) : Player × Progress :=
  let p := { p with lineLock := p.lineLock.release }
  match by_ with
  | .finished f => p.finish f
  | .next =>
    if p.lineDelay = .zero then p.autosave id play
    else (p, .goes (.delaying play (p.timer p.lineDelay)))

/-- Follows the progress of a line of a playback. -/
def followPlay (id : Nat) (play : Play) : Player × LineProgress → Player × Progress
  | (p, .blocked) => (p, .blocked)
  | (p, .goes phase) => (p, .goes (.playing play phase))
  | (p, .ends by_) => p.afterLine id play by_

/-- Executes a line of a playback, unless something else has happened meanwhile or a breakpoint
pauses it. -/
def playLine (p : Player) (id : Nat) (play : Play) : Player × Progress :=
  if p.deferred.isSome || p.state ≠ .playing then
    { p with lineLock := p.lineLock.release }.continuePlay id play
  else
    let (hit, context) := p.context.takeBreakpoint
    let p := { p with context }
    match hit with
    | some index =>
      let p := p.publish p.run (.breakpointHit index)
      let p := (p.moveFrom p.run .playing .paused).2
      { p with lineLock := p.lineLock.release }.continuePlay id play
    | none => followPlay id play (p.beginLine play.token)

/-! ### The start of a playback -/

/-- Starts the lines of a script whose resources are there. -/
def startLines (p : Player) (id : Nat) (token : Token) (run : Run) (script : String) :
    Player × Progress :=
  if p.isCancelled token then p.finish .cancelled
  else
    let p := (p.publish run (.scriptStarted script)).setCheckpoint
    let (started, p) := p.moveFrom run .loading .playing
    if started then p.continuePlay id { token, savedAt := p.stopwatch } else p.finish .cancelled

/-- Puts the context where a playback starts. -/
def startAt (c : Context) : Start → Context
  | .beginning => c
  | .line index => c.moveTo index
  | .snapshot s => c.restore s

/-- Forgets the last playback and gets ready for another one, in a new run. -/
def prepare (p : Player) (script : Script) (bound : Bool) : Token × Player :=
  let token : Token := ⟨p.serial, bound⟩
  let run := Run.numbered p.serial
  let p := ({ p with token := some token, run, serial := p.serial + 1 }.clearLeftovers).resetState
    run
  let p := (p.moveFrom run .idle .loading).2
  (token, { p with context := p.context.resetFor script p.stopwatch, attempts := {} })

/-- Starts a playback, having the gate. -/
def beginPlay (p : Player) (id : Nat) (script : Script) (start : Start) (bound : Bool) :
    Player × Progress :=
  if p.isShutDown then
    ({ p with gate := p.gate.release }, .ends (.refused .shutDown))
  else
    let (token, p) := p.prepare script bound
    let survey := script.survey
    match if p.tolerance.refuseDefects then survey.fault? script.name else none with
    | some fault =>
      (p.moveFrom p.run .loading .failed).2.finish (.failed fault (fault.lineIndex.getD 0))
    | none =>
      let p := { p with context := startAt { p.context with labels := survey.labels } start }
      match p.host.preloader with
      | some preloader =>
        if p.prompt && p.isCancelled token then p.finish .cancelled
        else
          ({ p with trace := p.trace.push (.preloaded script.name p.now) },
            .goes (.preloading token p.run script.name (p.timer preloader.span)))
      | none => p.startLines id token p.run script.name

/-- Why a playback cannot start where it is asked to. -/
def startRefusal? (script : Script) : Start → Option Refusal
  | .beginning => none
  | .line index => if script.size ≤ index then some (.lineOutOfRange index script.size) else none
  | .snapshot s =>
    if s.scriptName ≠ script.name then some (.snapshotMismatch script.name s.scriptName)
    else if script.size < s.cursor then some (.lineOutOfRange s.cursor script.size)
    else none

/-- Stops the playback in progress and asks for the gate. -/
def requestPlay (p : Player) (id : Nat) (script : Script) (start : Start) (bound : Bool) :
    Player × Progress :=
  match startRefusal? script start with
  | some r => (p, .ends (.refused r))
  | none =>
    if p.isShutDown then (p, .ends (.refused .shutDown))
    else
      let p := p.stop
      ({ p with gate := p.gate.request id }, .goes (.playGate script start bound))

/-! ### Stepping and seeking -/

/-- Why a step cannot be made. -/
def stepRefusal? (p : Player) (operation : String) : Option Refusal :=
  match p.state with
  | .playing | .paused => none
  | state => some (.wrongState operation state)

/-- Ends a request that holds the line lock. -/
def unlock (p : Player) (answer : Answer) : Player × Progress :=
  ({ p with lineLock := p.lineLock.release }, .ends answer)

/-- Asks for the line lock. -/
def requestLine (p : Player) (id : Nat) (phase : Phase) : Player × Progress :=
  ({ p with lineLock := p.lineLock.request id }, .goes phase)

/-- Follows the progress of a line that is executed on its own. -/
def followStep : Player × LineProgress → Player × Progress
  | (p, .blocked) => (p, .blocked)
  | (p, .goes phase) => (p, .goes (.stepping phase))
  | (p, .ends by_) =>
    let p := { p with context := { p.context with stepMode := false } }
    match by_ with
    | .next => p.unlock .done
    | .finished f => (p.defer f).unlock .done

/-- Executes one line on its own, having the line lock. -/
def beginStep (p : Player) : Player × Progress :=
  match p.stepRefusal? "step forward", p.token with
  | some r, _ => p.unlock (.refused r)
  | none, none => p.unlock (.refused .noScript)
  | none, some token =>
    followStep ({ p with context := { p.context with stepMode := true } }.beginLine token)

/-- Moves the cursor back by one line. -/
def stepBack (p : Player) : Player × Progress :=
  let p := { p with context := p.context.moveTo (p.context.cursor - 1) }
  p.publishProgress.unlock (.cursor p.context.cursor)

/-- Moves the cursor to a line. -/
def skip (p : Player) (index : Nat) : Player × Progress :=
  if p.context.script.isNone then p.unlock (.refused .noScript)
  else if p.context.lineCount ≤ index then
    p.unlock (.refused (.lineOutOfRange index p.context.lineCount))
  else { p with context := p.context.moveTo index }.publishProgress.unlock .done

/-- Asks to move the cursor to a label. -/
def requestLabel (p : Player) (id : Nat) (label : String) : Player × Progress :=
  if p.context.script.isNone then (p, .ends (.refused .noScript))
  else match p.context.labels.get? label with
    | none => (p, .ends (.refused (.labelNotFound label)))
    | some index => p.requestLine id (.skipLock index)

/-! ### Saved snapshots -/

/-- Takes a snapshot to be saved under a new key. -/
def requestSave (p : Player) : Player × Progress :=
  match p.store, p.context.snapshot? (Instant.ofMillis p.now) with
  | none, _ => (p, .ends (.refused .noStore))
  | some _, none => (p, .ends (.refused .noScript))
  | some _, some s =>
    ({ p with serial := p.serial + 1 }, .goes (.storing ("save." ++ Run.serial p.serial) s))

/-- Writes a snapshot to the store. -/
def write (p : Player) (key : String) (s : Snapshot) : Except StoreError Unit × Player :=
  match p.store with
  | none => (.ok (), p)
  | some store =>
    let (result, store) := store.save key s.toJson.normalize
    (result, { p with store := some store })

/-- Saves a snapshot, which becomes the checkpoint. -/
def storeSnapshot (p : Player) (key : String) (s : Snapshot) : Player × Progress :=
  match p.write key s with
  | (.error e, p) => (p, .ends (.refused (.storing e)))
  | (.ok (), p) => ({ p with recovery := p.recovery.setCheckpoint s }, .ends (.key key))

/-- Reads a saved snapshot. -/
def readSnapshot (p : Player) (key : String) : Except Refusal Snapshot :=
  match p.store with
  | none => .error .noStore
  | some store =>
    match store.load key with
    | .error e => .error (.storing e)
    | .ok none => .error (.snapshotNotFound key)
    | .ok (some j) => match Snapshot.ofJson? j with
      | none => .error (.storing .malformed)
      | some s => .ok s

/-- Goes on with a saved snapshot. -/
def fetchSnapshot (p : Player) (id : Nat) (key : String) (restoring : Bool) :
    Player × Progress :=
  match p.readSnapshot key with
  | .error r => (p, .ends (.refused r))
  | .ok s => if restoring then p.requestLine id (.restoreLock s) else (p, .ends (.snapshot s))

/-- Asks for a saved snapshot. -/
def requestSnapshot (p : Player) (key : String) (restoring : Bool) : Player × Progress :=
  if p.store.isNone then (p, .ends (.refused .noStore)) else (p, .goes (.fetching key restoring))

/-- Restores a snapshot of the loaded script, which becomes the checkpoint. -/
def restoreSnapshot (p : Player) (s : Snapshot) : Player × Progress :=
  match p.context.scriptName? with
  | none => p.unlock (.refused .noScript)
  | some name =>
    if name ≠ s.scriptName then p.unlock (.refused (.snapshotMismatch name s.scriptName))
    else if p.context.lineCount < s.cursor then
      p.unlock (.refused (.lineOutOfRange s.cursor p.context.lineCount))
    else
      { p with
        context := p.context.restore s
        recovery := p.recovery.setCheckpoint s
        spent := {} }.publishProgress.unlock .done

/-! ### Phases -/

/-- Takes up a request. -/
def accept (p : Player) (id : Nat) : Request → Player × Progress
  | .play script start bound => p.requestPlay id script start bound
  | .playNamed name =>
    if p.host.loader.isNone then (p, .ends (.refused .noLoader)) else (p, .goes (.loading name))
  | .reset =>
    let p := p.stop
    ({ p with gate := p.gate.request id }, .goes .resetGate)
  | .shutDown =>
    let p := { p with isShutDown := true }.stop
    ({ p with gate := p.gate.request id }, .goes .closeGate)
  | .stepForward =>
    match p.stepRefusal? "step forward" with
    | some r => (p, .ends (.refused r))
    | none => p.requestLine id .stepLock
  | .stepBackward =>
    match p.stepRefusal? "step backward" with
    | some r => (p, .ends (.refused r))
    | none => p.requestLine id .backLock
  | .skipToLine index => p.requestLine id (.skipLock index)
  | .skipToLabel label => p.requestLabel id label
  | .save => p.requestSave
  | .loadSnapshot key => p.requestSnapshot key false
  | .loadState key =>
    if p.state ≠ .paused then
      (p, .ends (.refused (.wrongState "load execution state" p.state)))
    else p.requestSnapshot key true

/-- Loads a script and asks to play it. -/
def loadAndPlay (p : Player) (id : Nat) (name : String) : Player × Progress :=
  match p.host.loader with
  | none => (p, .ends (.refused .noLoader))
  | some load =>
    match load name with
    | .error e => (p, .ends (.refused (.loading e)))
    | .ok script => p.requestPlay id script .beginning false

/-- Goes back to the beginning, having the gate. -/
def resetAll (p : Player) : Player × Progress :=
  let p := p.resetState p.run
  let p := { p with context := {}, recovery := p.recovery.clearCheckpoint, attempts := {} }
  let p := p.clearLeftovers
  ({ p with gate := p.gate.release }, .ends .done)

/-- Closes the bus, having the gate. -/
def close (p : Player) : Player × Progress :=
  ({ p with bus := p.bus.close, gate := p.gate.release }, .ends .done)

/-- Takes a request with the given number on from a phase, if it can go on. -/
def step (p : Player) (id : Nat) : Phase → Player × Progress
  | .entering r => p.accept id r
  | .loading name => p.loadAndPlay id name
  | .playGate script start bound =>
    if p.gate.isHeldBy id then p.beginPlay id script start bound else (p, .blocked)
  | .preloading token run script until_ =>
    if p.isCancelled token || until_ ≤ p.now then p.startLines id token run script
    else (p, .blocked)
  | .paused play =>
    if p.isCancelled play.token && (p.prompt || p.state = .paused) then p.finish .cancelled
    else if p.state = .paused then (p, .blocked)
    else p.playOn id play
  | .playLock play => if p.lineLock.isHeldBy id then p.playLine id play else (p, .blocked)
  | .playing play line => followPlay id play (p.stepLine line)
  | .delaying play until_ =>
    if p.isCancelled play.token && (p.prompt || p.now < until_) then p.finish .cancelled
    else if until_ ≤ p.now then p.autosave id play
    else (p, .blocked)
  | .autosaving play s =>
    let p :=
      if p.prompt && p.isCancelled play.token then p
      else (p.write p.host.config.pacing.autosaveKey s).2
    p.measureMemory.continuePlay id play
  | .resetGate => if p.gate.isHeldBy id then p.resetAll else (p, .blocked)
  | .closeGate => if p.gate.isHeldBy id then p.close else (p, .blocked)
  | .stepLock => if p.lineLock.isHeldBy id then p.beginStep else (p, .blocked)
  | .stepping line => followStep (p.stepLine line)
  | .backLock => if p.lineLock.isHeldBy id then p.stepBack else (p, .blocked)
  | .skipLock index => if p.lineLock.isHeldBy id then p.skip index else (p, .blocked)
  | .storing key s => p.storeSnapshot key s
  | .fetching key restoring => p.fetchSnapshot id key restoring
  | .restoreLock s => if p.lineLock.isHeldBy id then p.restoreSnapshot s else (p, .blocked)

end Player

/-- The instants at which a phase may end by itself. -/
def Phase.timers : Phase → List Nat
  | .preloading _ _ _ until_ => [until_]
  | .playing _ line => line.timers
  | .delaying _ until_ => [until_]
  | .stepping line => line.timers
  | _ => []

end Recital
