import Recital.Player.Basic
import Recital.Script.Survey

/-!
# Executing a line

A line is executed in phases, with the player free to do other things between them: a command is in
flight, a failed one is to be attempted again after a while, a text is being shown, or another
script is being loaded.  `Player.beginLine` starts the line under the cursor and `Player.stepLine`
takes it from phase to phase until it has ended.
-/

namespace Recital

/-- A line that is being executed: what `execute_line` knows of it. -/
structure Work where
  /-- The index of the line. -/
  index : Nat
  /-- Its text. -/
  source : String
  /-- The script of the line. -/
  script : String
  /-- The run that its events are published for. -/
  run : Run
  /-- What cancels it. -/
  token : Token

/-- A command that is being executed: what `dispatch_with_retries` knows of it. -/
structure Job where
  /-- The line of the command. -/
  work : Work
  /-- The command. -/
  command : Command
  /-- The state was changed to `waiting` for it. -/
  entered : Bool
  /-- The number of the attempt, from one, in a 32-bit word (`attempt`). -/
  attempt : Nat

/-- An attempt in flight. -/
structure Flight where
  /-- When it began, by the stopwatch. -/
  since : Nat
  /-- When it ends by itself. -/
  doneAt : Option Nat
  /-- When its time is up. -/
  limit : Nat
  /-- What it reports. -/
  verdict : Except Failure CommandResult

/-- What the execution of a line waits for. -/
inductive LinePhase
  /-- The end of an attempt. -/
  | flying (job : Job) (flight : Flight)
  /-- The time of the next attempt. -/
  | resting (job : Job) (until_ : Nat)
  /-- The end of a presentation. -/
  | presenting (work : Work) (until_ : Nat) (verdict : Except Failure Unit)
  /-- The script to continue in; the call may have been a remedy. -/
  | switching (work : Work) (caller : Run) (script : String) (recovered : Bool)

/-- How far a line has got. -/
inductive LineProgress
  /-- Nothing can be done yet. -/
  | blocked
  | goes (phase : LinePhase)
  | ends (by_ : LineEnd)

namespace Player

/-! ### The end of a line -/

/-- A pause that was asked for during the line takes effect. -/
def applyPause (p : Player) (run : Run) : Player :=
  if p.pauseRequested then ({ p with pauseRequested := false }.moveFrom run .playing .paused).2
  else p

/-- Ends a line: progress is published, then a pause takes effect. -/
def closeLine (p : Player) (w : Work) (by_ : LineEnd) : Player × LineProgress :=
  (p.publishProgress.applyPause w.run, .ends by_)

/-- Nothing can be done about a fault: the playback ends, or the line is passed over. -/
def passOver (p : Player) (w : Work) (fault : Fault) : Player × LineEnd :=
  let p := { p with spent := p.spent.forget w.index }
  if p.tolerance.continueOnError then
    let p := p.publish w.run (.lineFailed w.index fault)
    ({ p with context := (p.context.lineFinished w.index).moveTo (w.index + 1) }, .next)
  else (p, .finished (.failed fault w.index))

/-- Ends a line about whose fault nothing can be done. -/
def closeFailed (p : Player) (w : Work) (fault : Fault) : Player × LineProgress :=
  let (p, by_) := p.passOver w fault
  p.closeLine w by_

/-- Ends a line whose flow action was carried out. -/
def closeDone (p : Player) (w : Work) (recovered : Bool) (by_ : LineEnd) :
    Player × LineProgress :=
  let p := if recovered then { p with recovery := p.recovery.recordSuccess } else p
  p.closeLine w by_

/-! ### Flow actions -/

/-- The fault of a call without a loader. -/
def noLoaderFault (script : String) : Fault :=
  { Fault.configuration ("cannot call script " ++ script ++ ": no script loader configured") with
    suggestion := "configure a script loader on the engine" }

/-- The fault of a call whose script cannot be loaded. -/
def loadFault (e : LoadError) : Fault :=
  { message := e.message
    severity := .critical
    category := match e with
      | .malformed .. => .validation
      | _ => .resourceLoading
    suggestion := "check that the called script exists and parses" }

/-- Carries out the flow action of a line that was executed. -/
def applyFlow (p : Player) (w : Work) (flow : Flow) (recovered : Bool) : Player × LineProgress :=
  match p.context.resolve flow with
  | .error fault => p.closeFailed w (fault.located w.index w.script)
  | .ok (resolution, context) =>
    let moved := { p with context }
    match resolution with
    | .advance => { p with context := context.advance }.closeDone w recovered .next
    | .jumped _ => moved.closeDone w recovered .next
    | .returned _ => moved.closeDone w recovered .next
    | .stop reason => moved.closeDone w recovered (.finished (.stopped reason))
    | .completed => moved.closeDone w recovered (.finished .completed)
    | .call script =>
      match p.host.loader with
      | none => moved.closeFailed w ((noLoaderFault script).located w.index w.script)
      | some _ => (moved, .goes (.switching w p.run script recovered))

/-- Counts a line that was executed and carries out its flow action. -/
def finishLine (p : Player) (w : Work) (flow : Flow) (recovered : Bool) :
    Player × LineProgress :=
  let p := { p with
    context := p.context.recordLine.lineFinished w.index
    spent := p.spent.forget w.index }
  (p.publish w.run (.lineExecuted w.index w.source)).applyFlow w flow recovered

/-- The script that a call leads to, with its labels. -/
def fetch (p : Player) (w : Work) (script : String) : Except Fault (Script × Table Nat) :=
  match p.host.loader with
  | none => .error ((noLoaderFault script).located w.index w.script)
  | some load =>
    match load script with
    | .error e => .error ((loadFault e).located w.index w.script)
    | .ok s =>
      let survey := s.survey
      match if p.tolerance.refuseDefects then survey.fault? script else none with
      | some fault => .error fault
      | none => .ok (s, survey.labels)

/-- Continues in a script, in a run that is a child of the caller's. -/
def enter (p : Player) (caller : Run) (name : String) (script : Script) (labels : Table Nat) :
    Player :=
  let p := { p with context := p.context.switchTo script labels, attempts := {} }.setCheckpoint
  let run := caller.child p.serial
  { p with spent := {}, run, serial := p.serial + 1 }.publish run (.scriptStarted name)

/-- Loads the script of a call and continues in it. -/
def switchScript (p : Player) (w : Work) (caller : Run) (script : String) (recovered : Bool) :
    Player × LineProgress :=
  match p.fetch w script with
  | .error fault => p.closeFailed w fault
  | .ok (s, labels) => (p.enter caller script s labels).closeDone w recovered .next

/-! ### Failures -/

/-- Plans and carries out the recovery of a line, whose fault may not be remedied. -/
def handleFault (p : Player) (w : Work) (fault : Fault) (policy : Policy) :
    Player × LineProgress :=
  if !p.tolerance.recoveryEnabled then p.closeFailed w fault
  else
    let (plan, recovery) :=
      p.recovery.plan fault policy (p.spent.count w.index) p.tolerance.maxRecoveries
    let p := { p with recovery }
    match plan with
    | .proceed flow => p.finishLine w flow true
    | .again =>
      { p with
        spent := p.spent.bump w.index
        recovery := p.recovery.recordSuccess }.closeLine w .next
    | .rollback snapshot =>
      { p with
        spent := p.spent.bump w.index
        context := p.context.restore snapshot
        recovery := p.recovery.recordSuccess }.closeLine w .next
    | .halt =>
      { p with
        spent := p.spent.forget w.index
        recovery := p.recovery.recordSuccess }.closeLine w (.finished (.halted fault w.index))
    | .giveUp => p.closeFailed w fault

/-! ### Commands -/

/-- Makes one of the changes of a command. -/
def applyEffect (p : Player) (w : Work) : Effect → Player
  | .assign name value => p.setVariable w.run name value
  | .observe name look =>
    p.setVariable w.run name (look (p.context.view w.index w.script))
  | .clear => p.clearVariables w.run
  | .push line => { p with context := p.context.pushFrame ⟨line⟩ }
  | .note message => { p with notes := p.notes.push ⟨w.script, w.index, message⟩ }

/-- Counts an attempt of a command of the host. -/
def countAttempt (p : Player) (j : Job) : Player :=
  if j.command.isCustom then
    { p with
      attempts := p.attempts.bump j.work.index
      trace := p.trace.push
        (.attempted j.command.type j.work.index (p.attempts.count j.work.index) p.now) }
  else p

/-- The attempt that a cancelled playback makes, which ends before it has begun. -/
def stillborn (p : Player) : Flight :=
  { since := p.stopwatch, doneAt := none, limit := p.now, verdict := .error .cancelled }

/-- Starts an attempt of a command. -/
def launch (p : Player) (j : Job) : Player × LineProgress :=
  let p := p.publish j.work.run (.commandExecuting j.work.index j.command.type)
  if p.isCancelled j.work.token then (p, .goes (.flying j p.stillborn))
  else
    let attempt := j.command.attempt (p.attempts.count j.work.index)
      (p.context.view j.work.index j.work.script)
    let flight : Flight :=
      { since := p.stopwatch
        doneAt := match attempt.pace with
          | .lasts span => some (p.timer span)
          | .endless => none
        limit := p.timer (p.host.policy j.command.type).timeout
        verdict := attempt.verdict }
    (attempt.effects.foldl (fun p e => p.applyEffect j.work e) (p.countAttempt j),
      .goes (.flying j flight))

/-- How an attempt has ended, if it has.  Cancellation comes before the end of the attempt, and that
before the limit. -/
def landing (p : Player) (j : Job) (f : Flight) : Option (Except Failure CommandResult) :=
  if p.isCancelled j.work.token then some (.error .cancelled)
  else if f.doneAt.any (· ≤ p.now) then some f.verdict
  else if f.limit ≤ p.now then
    some (.error (.timedOut (Span.ofMillis (p.stopwatch - f.since))))
  else none

/-- The state goes back from `waiting` once the command has ended. -/
def leaveWaiting (p : Player) (j : Job) : Player :=
  if j.entered then (p.moveFrom j.work.run .waiting .playing).2 else p

/-- Records how an attempt has ended. -/
def recordAttempt (p : Player) (j : Job) (f : Flight) (result : Except Failure Flow) : Player :=
  let p := { p with
    ledger := p.ledger.record j.command.type (Span.ofMillis (p.stopwatch - f.since)) result }
  let p := p.publish j.work.run
    (.commandExecuted j.work.index j.command.type result.toOption.isSome)
  if p.host.measures then
    { p with
      samples := p.samples.push
        (.execution j.work.script j.work.index j.command.type result.toOption.isSome j.attempt) }
  else p

/-- The delay before the next attempt, for which a random number may be drawn. -/
def backoff (p : Player) (policy : Policy) (attempt : Nat) : Nat × Player :=
  if policy.backoff.isJittered then
    (policy.backoff.delay attempt (p.host.draw p.draws), { p with draws := p.draws + 1 })
  else (policy.backoff.delay attempt 0, p)

/-- What follows an attempt that failed: another one, or recovery. -/
def attemptFailed (p : Player) (j : Job) (failure : Failure) : Player × LineProgress :=
  let policy := p.host.policy j.command.type
  let fault :=
    { (failure.classify j.command.type policy).located j.work.index j.work.script with
      attempts := j.attempt }
  if fault.retryable && j.attempt ≤ policy.maxRetries then
    let (delay, p) := p.backoff policy j.attempt
    (p.publish j.work.run (.commandRetrying j.work.index j.command.type j.attempt delay),
      .goes (.resting j (p.timer (Span.ofMillis delay))))
  else (p.leaveWaiting j).handleFault j.work fault policy

/-- What follows an attempt that has ended. -/
def land (p : Player) (j : Job) (f : Flight) (verdict : Except Failure CommandResult) :
    Player × LineProgress :=
  let result := j.command.conclude verdict
  let p := p.recordAttempt j f result
  match result with
  | .ok flow =>
    ({ p with context := p.context.recordCommand }.leaveWaiting j).finishLine j.work flow false
  | .error failure =>
    if p.isCancelled j.work.token then (p.leaveWaiting j, .ends (.finished .cancelled))
    else { p with context := p.context.recordCommand }.attemptFailed j failure

/-- Starts the command of a line. -/
def beginCommand (p : Player) (w : Work) (command : Option Command) : Player × LineProgress :=
  match command with
  | none =>
    let fault :=
      { (Fault.configuration ("no command registered for '" ++ w.source ++ "'")).located
          w.index w.script with
        suggestion := "register the command keyword with the script parser" }
    p.handleFault w fault (p.host.policy "unresolved")
  | some command =>
    let (entered, p) := p.moveFrom w.run .playing .waiting
    p.launch { work := w, command, entered, attempt := 1 }

/-! ### Text -/

/-- Starts a text line.  Narrative is shown; other lines are done at once. -/
def beginText (p : Player) (w : Work) (text : String) : Player × LineProgress :=
  match TextKind.ofText text, p.host.presenter with
  | .narrative text, some presenter =>
    if p.prompt && p.isCancelled w.token then (p, .ends (.finished .cancelled))
    else
      ({ p with trace := p.trace.push (.presented text p.now) },
        .goes (.presenting w (p.timer presenter.span) (presenter.respond text)))
  | _, _ => p.finishLine w .next false

/-- What follows a presentation that has ended. -/
def presented (p : Player) (w : Work) (verdict : Except Failure Unit) : Player × LineProgress :=
  match verdict with
  | .ok () => p.finishLine w .next false
  | .error failure =>
    if p.isCancelled w.token then (p, .ends (.finished .cancelled))
    else
      let policy := p.host.policy "text"
      p.handleFault w ((failure.classify "text" policy).located w.index w.script) policy

/-! ### Phases -/

/-- Starts the line under the cursor, or the one that is returned to at the end of the script. -/
def beginLine (p : Player) (token : Token) : Player × LineProgress :=
  let p := { p with context := p.context.settleCursor }
  match p.context.currentLine with
  | none => (p, .ends (.finished .completed))
  | some line =>
    let w : Work :=
      { index := p.context.cursor, source := line.source, script := p.context.scriptName,
        run := p.run, token }
    let p := p.publish w.run (.lineExecuting w.index w.source)
    match line with
    | .command _ command => p.beginCommand w command
    | .text text => p.beginText w text

/-- Takes a line on from a phase, if it can go on. -/
def stepLine (p : Player) : LinePhase → Player × LineProgress
  | .flying j f =>
    match p.landing j f with
    | some verdict => p.land j f verdict
    | none => (p, .blocked)
  | .resting j until_ =>
    if p.isCancelled j.work.token then (p.leaveWaiting j, .ends (.finished .cancelled))
    else if until_ ≤ p.now then p.launch { j with attempt := Word.next 32 j.attempt }
    else (p, .blocked)
  | .presenting w until_ verdict =>
    if p.isCancelled w.token && (p.prompt || p.now < until_) then
      (p, .ends (.finished .cancelled))
    else if until_ ≤ p.now then p.presented w verdict
    else (p, .blocked)
  | .switching w caller script recovered => p.switchScript w caller script recovered

end Player

/-- The instants at which a phase may end by itself. -/
def LinePhase.timers : LinePhase → List Nat
  | .flying _ f => f.doneAt.toList ++ [f.limit]
  | .resting _ until_ => [until_]
  | .presenting _ until_ _ => [until_]
  | .switching .. => []

end Recital
