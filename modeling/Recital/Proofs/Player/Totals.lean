import Recital.Proofs.Command.Ledger
import Recital.Proofs.Player.Lapse

/-!
# What a player counts

A player counts the recoveries that it plans, those that it carries out, and the executions of
commands (`Player.totals`).  A recovery is planned in one place and counted as carried out in
several others, and an attempt of a command is counted where it ends, before anything is known of
what follows.  Here it is shown that the count is right on every way through a line.

What a step of a request is going to count can be told before the step is made: the execution that
it ends (`Player.ended?`), and the fault that it hands over to recovery (`Player.setback?`) with the
remedy that is tried and whether that comes to nothing (`Player.foils`).  The main result,
`totals_step`, is that the totals after the step are those before it with these counted once, and
with nothing else.
-/

namespace Recital

/-! ### Totals -/

/-- What is counted. -/
structure Totals where
  /-- How many recoveries were planned. -/
  attempts : Nat
  /-- How many of them were carried out. -/
  successes : Nat
  /-- The statistics of the executions. -/
  ledger : Ledger

namespace Totals

/-- An execution has ended, if there was one. -/
def enter (g : Totals) (e : Option Execution) : Totals :=
  match e with
  | none => g
  | some e => { g with ledger := g.ledger.enter (.execution e) }

/-- A recovery was planned, if there was one, and it was carried out or came to nothing. -/
def charge (g : Totals) (done : Option Bool) : Totals :=
  match done with
  | none => g
  | some done =>
    { g with
      attempts := g.attempts + 1
      successes := g.successes + if done then 1 else 0 }

variable {g : Totals} {e : Option Execution} {done : Option Bool}

@[simp] lemma attempts_enter : (g.enter e).attempts = g.attempts := by
  cases e <;> rfl

@[simp] lemma successes_enter : (g.enter e).successes = g.successes := by
  cases e <;> rfl

@[simp] lemma ledger_charge : (g.charge done).ledger = g.ledger := by
  cases done <;> rfl

lemma attempts_charge : (g.charge done).attempts = g.attempts + if done.isSome then 1 else 0 := by
  cases done <;> rfl

/-- A recovery that is planned is either carried out or it comes to nothing. -/
lemma successes_charge : (g.charge done).successes + (if done = some false then 1 else 0) =
    g.successes + if done.isSome then 1 else 0 := by
  match done with
  | none | some true | some false => rfl

end Totals

/-- A fault that is handed over to recovery, with its line and the policy that goes for it. -/
structure Setback where
  /-- The index of the line. -/
  index : Nat
  fault : Fault
  policy : Policy

/-- The script that a line waits for is called to remedy a fault. -/
def LinePhase.isRemedy : LinePhase → Bool
  | .switching _ _ _ recovered => recovered
  | _ => false

namespace Player

variable {p q r : Player} {id index : Nat} {phase : Phase} {w : Work} {j : Job} {f : Flight}
  {run : Run} {line : LinePhase} {o : Option Setback} {e : Option Execution}
  {x : Player × Progress} {y : Player × LineProgress}

/-- What a player counts. -/
def totals (p : Player) : Totals := ⟨p.recovery.attempts, p.recovery.successes, p.ledger⟩

/-! ### What is going to be counted -/

/-- The remedy that is tried for a fault. -/
def remedy? (p : Player) (s : Setback) : Option Remedy :=
  if p.tolerance.recoveryEnabled then Recovery.remedyFor s.fault s.policy else none

/-- A remedy comes to nothing: the budget of the line is used up, there is no checkpoint, or the
target of a jump does not exist. -/
def foils (p : Player) (index : Nat) : Remedy → Bool
  | .skip | .stop => false
  | .retry => decide (p.tolerance.maxRecoveries ≤ p.spent.count index)
  | .rollback =>
    decide (p.tolerance.maxRecoveries ≤ p.spent.count index) || p.recovery.checkpoint.isNone
  | .jump (.line n) => decide (p.context.lineCount ≤ n)
  | .jump (.label name) => (p.context.labels.get? name).isNone

/-- Whether a recovery is carried out, if one is planned. -/
def mends? (p : Player) (s : Setback) : Option Bool :=
  (p.remedy? s).map fun remedy => !p.foils s.index remedy

/-- The fault of an attempt that has ended, if recovery has to deal with it. -/
def landingSetback? (p : Player) (j : Job) (verdict : Except Failure CommandResult) :
    Option Setback :=
  match j.command.conclude verdict with
  | .ok _ => none
  | .error failure =>
    if p.isCancelled j.work.token then none
    else (p.upset? j failure).map fun x => ⟨j.work.index, x.1, x.2⟩

/-- The fault of a presentation that has ended. -/
def presentedSetback? (p : Player) (w : Work) : Except Failure Unit → Option Setback
  | .ok () => none
  | .error failure =>
    if p.isCancelled w.token then none
    else some ⟨w.index, (p.unshown w failure).1, (p.unshown w failure).2⟩

/-- The fault of a line whose command is not known. -/
def openingSetback? (p : Player) (w : Work) : Option Command → Option Setback
  | none => some ⟨w.index, (p.strange w).1, (p.strange w).2⟩
  | some _ => none

/-- The fault that a line hands over to recovery as soon as it is begun. -/
def setbackAtOnce? (p : Player) (token : Token) : Option Setback :=
  let p := { p with context := p.context.settleCursor }
  match p.context.currentLine with
  | some (.command source command) =>
    p.openingSetback? (p.nextWork token (.command source command)) command
  | _ => none

/-- The fault that a line hands over to recovery in its next step. -/
def lineSetback? (p : Player) : LinePhase → Option Setback
  | .flying j f => (p.landing j f).bind fun verdict => p.landingSetback? j verdict
  | .presenting w until_ verdict => if until_ ≤ p.now then p.presentedSetback? w verdict else none
  | _ => none

/-- The fault that a request hands over to recovery in its next step. -/
def setback? (p : Player) (id : Nat) : Phase → Option Setback
  | .playing _ line | .stepping line => p.lineSetback? line
  | .playLock play =>
    if (p.execution? id (.playLock play)).isSome then
      { p with context := p.context.takeBreakpoint.2 }.setbackAtOnce? play.token
    else none
  | .stepLock =>
    if (p.execution? id .stepLock).isSome then
      p.token.bind fun token =>
        { p with context := { p.context with stepMode := true } }.setbackAtOnce? token
    else none
  | _ => none

/-- The execution that a line ends in its next step. -/
def lineEnded? (p : Player) : LinePhase → Option Execution
  | .flying j f =>
    (p.landing j f).map fun verdict =>
      ⟨j.command.type, Span.ofMillis (p.stopwatch - f.since), j.command.conclude verdict⟩
  | _ => none

/-- The execution that a request ends in its next step. -/
def ended? (p : Player) (phase : Phase) : Option Execution := phase.line?.bind p.lineEnded?

/-- What decides whether a recovery is carried out. -/
structure Means where
  host : Host
  spent : Tally
  checkpoint : Option Snapshot
  script : Option Script
  labels : Table Nat

/-- What a player has to recover by. -/
def means (p : Player) : Means :=
  { host := p.host
    spent := p.spent
    checkpoint := p.recovery.checkpoint
    script := p.context.script
    labels := p.context.labels }

lemma means_of_core (h : q.core = p.core) : q.means = p.means :=
  (congrArg means h : q.core.means = p.core.means)

lemma means_of_ground (hhost : q.host = p.host) (hspent : q.spent = p.spent)
    (hground : q.ground = p.ground) : q.means = p.means := by
  have hmeans : ∀ r : Player, r.means =
      ⟨r.host, r.spent, r.ground.checkpoint, r.ground.script, r.ground.labels⟩ := fun _ => rfl
  rw [hmeans, hmeans, hhost, hspent, hground]

lemma mends?_congr {s : Setback} (h : q.means = p.means) : q.mends? s = p.mends? s := by
  have hhost : q.host = p.host := congrArg Means.host h
  have hspent : q.spent = p.spent := congrArg Means.spent h
  have hcheckpoint : q.recovery.checkpoint = p.recovery.checkpoint := congrArg Means.checkpoint h
  have hlabels : q.context.labels = p.context.labels := congrArg Means.labels h
  have hcount : q.context.lineCount = p.context.lineCount :=
    congrArg (fun m : Means => (m.script.map Script.size).getD 0) h
  have htolerance : q.tolerance = p.tolerance := congrArg (fun h : Host => h.config.tolerance) hhost
  have hfoils : q.foils s.index = p.foils s.index := by
    funext remedy
    cases remedy with
    | skip | stop => rfl
    | retry => simp only [foils, htolerance, hspent]
    | rollback => simp only [foils, htolerance, hspent, hcheckpoint]
    | jump target => cases target <;> simp only [foils, hcount, hlabels]
  unfold mends? remedy?
  rw [htolerance, hfoils]

/-! ### What counts nothing -/

@[simp] lemma totals_publish {payload : Event.Payload} :
    (p.publish run payload).totals = p.totals :=
  rfl

@[simp] lemma totals_moveFrom {a b : State} : (p.moveFrom run a b).2.totals = p.totals := by
  unfold moveFrom
  split <;> rfl

@[simp] lemma totals_moveIfAllowed {b : State} : (p.moveIfAllowed run b).totals = p.totals := by
  unfold moveIfAllowed
  split <;> rfl

@[simp] lemma totals_resetState : (p.resetState run).totals = p.totals := by
  unfold resetState
  split <;> rfl

@[simp] lemma totals_clearVariables : (p.clearVariables run).totals = p.totals := by
  have hfold : ∀ (names : List String) (q : Player),
      (names.foldl (fun p name => p.publish run (.variableChanged name none)) q).totals =
        q.totals := by
    intro names
    induction names with
    | nil => intro q; rfl
    | cons name names ih => intro q; exact ih _
  exact hfold _ _

@[simp] lemma totals_stop : p.stop.totals = p.totals := by
  obtain ⟨cell, bus, stopRequested, cancelled, hstop⟩ := p.exists_stop_eq
  rw [hstop]
  rfl

@[simp] lemma totals_defer {finish : Finish} : (p.defer finish).totals = p.totals :=
  totals_moveFrom

@[simp] lemma totals_setCheckpoint : p.setCheckpoint.totals = p.totals := by
  unfold setCheckpoint
  split <;> rfl

@[simp] lemma totals_measureMemory : p.measureMemory.totals = p.totals := by
  unfold measureMemory
  dsimp only
  split
  · split <;> rfl
  · rfl

@[simp] lemma totals_write {key : String} {s : Snapshot} : (p.write key s).2.totals = p.totals := by
  unfold write
  split <;> rfl

@[simp] lemma totals_backoff {policy : Policy} {attempt : Nat} :
    (p.backoff policy attempt).2.totals = p.totals := by
  unfold backoff
  split <;> rfl

@[simp] lemma totals_countAttempt : (p.countAttempt j).totals = p.totals := by
  unfold countAttempt
  split <;> rfl

@[simp] lemma totals_applyEffects {effects : List Effect} :
    (effects.foldl (fun p e => p.applyEffect w e) p).totals = p.totals := by
  induction effects generalizing p with
  | nil => rfl
  | cons e effects ih =>
    rw [List.foldl_cons, ih]
    cases e with
    | clear => exact totals_clearVariables
    | assign | observe | push | note => rfl

@[simp] lemma totals_leaveWaiting : (p.leaveWaiting j).totals = p.totals := by
  unfold leaveWaiting
  split
  · exact totals_moveFrom
  · rfl

@[simp] lemma totals_closeLine {by_ : LineEnd} : (p.closeLine w by_).1.totals = p.totals := by
  have hpause : ∀ q : Player, (q.applyPause w.run).totals = q.totals := by
    intro q
    unfold applyPause
    split
    · exact totals_moveFrom
    · rfl
  exact hpause _

@[simp] lemma totals_closeFailed {fault : Fault} :
    (p.closeFailed w fault).1.totals = p.totals := by
  unfold closeFailed passOver
  dsimp only
  split <;> exact totals_closeLine

/-! ### The end of a line -/

/-- What becomes of a line: the totals tell of an execution and of a fault, and the line does not go
on to remedy it. -/
structure CountsOnce (e : Option Execution) (o : Option Setback) (p : Player)
    (y : Player × LineProgress) :
    Prop where
  totals : y.1.totals = (p.totals.enter e).charge (o.bind p.mends?)
  settled : ∀ line, y.2 = .goes line → line.isRemedy = false

namespace CountsOnce

/-- A line that has ended goes on to nothing. -/
lemma of_ends (hends : ∃ by_, y.2 = .ends by_)
    (htotals : y.1.totals = (p.totals.enter e).charge (o.bind p.mends?)) : CountsOnce e o p y := by
  refine ⟨htotals, ?_⟩
  intro line hgoes
  obtain ⟨by_, hby⟩ := hends
  cases hby.symm.trans hgoes

/-- A line goes on that is not to remedy anything. -/
lemma of_goes (hgoes : y.2 = .goes line) (hline : line.isRemedy = false)
    (htotals : y.1.totals = (p.totals.enter e).charge (o.bind p.mends?)) : CountsOnce e o p y := by
  refine ⟨htotals, ?_⟩
  intro next hnext
  cases hgoes.symm.trans hnext
  exact hline

/-- A line has ended after a fault, and what was done about the fault is counted. -/
lemma of_mends {s : Setback} {done : Option Bool} (hmends : p.mends? s = done)
    (hends : ∃ by_, y.2 = .ends by_) (htotals : y.1.totals = p.totals.charge done) :
    CountsOnce none (some s) p y := by
  refine .of_ends hends ?_
  rw [htotals, Option.bind_some, hmends]
  rfl

/-- An execution may have ended before. -/
lemma after (h : CountsOnce none o q y) (htotals : q.totals = p.totals.enter e)
    (hmeans : o ≠ none → q.means = p.means) : CountsOnce e o p y := by
  refine ⟨?_, h.settled⟩
  cases o with
  | none => exact h.totals.trans htotals
  | some s =>
    have hmends : q.mends? s = p.mends? s := mends?_congr (hmeans nofun)
    rw [h.totals, htotals, Option.bind_some, Option.bind_some, hmends]
    rfl

end CountsOnce

lemma countsOnce_closeFailed {fault : Fault} : CountsOnce none none p (p.closeFailed w fault) :=
  .of_ends ⟨_, rfl⟩ totals_closeFailed

/-- The flow action of a line that was executed is no recovery, nor does it become one. -/
lemma countsOnce_applyFlow {flow : Flow} : CountsOnce none none p (p.applyFlow w flow false) := by
  unfold applyFlow
  split
  · exact countsOnce_closeFailed
  · dsimp only
    split
    iterate 5 exact .of_ends ⟨_, rfl⟩ totals_closeLine
    split
    · exact .of_ends ⟨_, rfl⟩ totals_closeFailed
    · exact .of_goes rfl rfl rfl

lemma countsOnce_finishLine {flow : Flow} : CountsOnce none none p (p.finishLine w flow false) :=
  countsOnce_applyFlow.after rfl fun h => absurd rfl h

lemma countsOnce_switchScript {caller : Run} {script : String} :
    CountsOnce none none p (p.switchScript w caller script false) := by
  have henter : ∀ (s : Script) (labels : Table Nat),
      (p.enter caller script s labels).totals = p.totals := by
    intro s labels
    exact totals_setCheckpoint
  unfold switchScript
  split
  · exact countsOnce_closeFailed
  · refine .of_ends ⟨_, rfl⟩ ?_
    exact totals_closeLine.trans (henter _ _)

/-! ### Recovery -/

/-- A flow action that is a recovery is counted if it leads anywhere.  It calls no script. -/
lemma recovered_finishLine (p : Player) (w : Work) {flow : Flow}
    (hflow : ∀ script, flow ≠ .call script) :
    (∃ by_, (p.finishLine w flow true).2 = .ends by_) ∧
      (p.finishLine w flow true).1.totals =
        { p.totals with
          successes := p.totals.successes + if (p.context.stray? flow).isNone then 1 else 0 } := by
  have htrunk : (p.context.recordLine.lineFinished w.index).trunk = p.context.trunk :=
    Context.trunk_lineFinished (c := p.context.recordLine)
  rw [← Context.stray?_congr htrunk]
  unfold finishLine applyFlow Context.stray?
  dsimp only [publish]
  cases hresolve : (p.context.recordLine.lineFinished w.index).resolve flow with
  | error fault => exact ⟨⟨_, rfl⟩, totals_closeFailed⟩
  | ok resolved =>
    obtain ⟨resolution, context⟩ := resolved
    cases resolution with
    | call script =>
      cases flow with
      | call script => exact absurd rfl (hflow script)
      | next | stop => cases hresolve
      | toLine | toLabel | back =>
        unfold Context.resolve at hresolve
        dsimp only at hresolve
        split at hresolve <;> cases hresolve
    | _ => exact ⟨⟨_, rfl⟩, totals_closeLine⟩

/-- A plan leads anywhere. -/
def works (p : Player) : Plan → Bool
  | .proceed flow => (p.context.stray? flow).isNone
  | .again | .rollback _ | .halt => true
  | .giveUp => false

/-- The plan for a remedy leads anywhere unless the remedy comes to nothing. -/
lemma works_planFor {remedy : Remedy} :
    p.works (p.recovery.planFor remedy (p.spent.count index) p.tolerance.maxRecoveries) =
      !p.foils index remedy := by
  cases remedy with
  | skip | stop => rfl
  | retry =>
    by_cases hspent : p.spent.count index < p.tolerance.maxRecoveries
    · simp [Recovery.planFor, foils, works, hspent]
    · simp [Recovery.planFor, foils, works, hspent, Nat.le_of_not_lt hspent]
  | rollback =>
    by_cases hspent : p.spent.count index < p.tolerance.maxRecoveries
    · cases hcheckpoint : p.recovery.checkpoint <;>
        simp [Recovery.planFor, foils, works, hcheckpoint, hspent]
    · cases hcheckpoint : p.recovery.checkpoint <;>
        simp [Recovery.planFor, foils, works, hcheckpoint, hspent, Nat.le_of_not_lt hspent]
  | jump target =>
    cases target with
    | line n =>
      by_cases hrange : n < p.context.lineCount
      · simp [Recovery.planFor, foils, works, Flow.ofTarget, Context.stray?, Context.resolve,
          hrange]
      · simp [Recovery.planFor, foils, works, Flow.ofTarget, Context.stray?, Context.resolve,
          hrange, Nat.le_of_not_lt hrange]
    | label name =>
      cases hlabel : p.context.labels.get? name <;>
        simp [Recovery.planFor, foils, works, Flow.ofTarget, Context.stray?, Context.resolve,
          hlabel]

/-- No remedy calls a script. -/
lemma planFor_ne_call {r : Recovery} {remedy : Remedy} {spent limit : Nat} {script : String} :
    r.planFor remedy spent limit ≠ .proceed (.call script) := by
  intro hplan
  cases remedy with
  | skip | stop => cases hplan
  | jump target => cases target <;> cases hplan
  | retry | rollback =>
    unfold Recovery.planFor at hplan
    dsimp only at hplan
    repeat' split at hplan
    all_goals cases hplan

/-- A fault that is handed over to recovery is counted once, and whether something was done about
it. -/
lemma countsOnce_handleFault {fault : Fault} {policy : Policy} :
    CountsOnce none (some ⟨w.index, fault, policy⟩) p (p.handleFault w fault policy) := by
  unfold handleFault
  cases henabled : p.tolerance.recoveryEnabled with
  | false =>
    have hnone : p.mends? ⟨w.index, fault, policy⟩ = none := by
      simp [mends?, remedy?, henabled]
    exact .of_mends hnone ⟨_, rfl⟩ totals_closeFailed
  | true =>
    unfold Recovery.plan
    cases hremedy : Recovery.remedyFor fault policy with
    | none =>
      have hnone : p.mends? ⟨w.index, fault, policy⟩ = none := by
        simp [mends?, remedy?, henabled, hremedy]
      exact .of_mends hnone ⟨_, rfl⟩ totals_closeFailed
    | some remedy =>
      -- Whether the remedy comes to nothing is seen from the plan, whatever the plan is.
      have hmends : p.mends? ⟨w.index, fault, policy⟩ = some (p.works (p.recovery.planFor remedy
          (p.spent.count w.index) p.tolerance.maxRecoveries)) := by
        rw [works_planFor]
        simp [mends?, remedy?, henabled, hremedy]
      have hcall : ∀ script, p.recovery.planFor remedy (p.spent.count w.index)
          p.tolerance.maxRecoveries ≠ .proceed (.call script) := fun _ => planFor_ne_call
      dsimp only [Bool.not_true, Bool.false_eq_true, if_false]
      generalize p.recovery.planFor remedy (p.spent.count w.index) p.tolerance.maxRecoveries = plan
        at hmends hcall
      cases plan with
      | proceed flow =>
        obtain ⟨hends, htotals⟩ := recovered_finishLine
          { p with recovery := { p.recovery with attempts := p.recovery.attempts + 1 } } w
          fun script hflow => hcall script (congrArg Plan.proceed hflow)
        exact .of_mends hmends hends htotals
      | again | rollback | halt => exact .of_mends hmends ⟨_, rfl⟩ totals_closeLine
      | giveUp => exact .of_mends hmends ⟨_, rfl⟩ totals_closeFailed

/-! ### Commands and texts -/

lemma countsOnce_launch : CountsOnce none none p (p.launch j) := by
  unfold launch
  dsimp only
  split
  · exact .of_goes rfl rfl rfl
  · exact .of_goes rfl rfl (totals_applyEffects.trans totals_countAttempt)

lemma countsOnce_attemptFailed {failure : Failure} :
    CountsOnce none ((p.upset? j failure).map fun x => ⟨j.work.index, x.1, x.2⟩) p
      (p.attemptFailed j failure) := by
  rw [attemptFailed_eq]
  cases p.upset? j failure with
  | none => exact .of_goes rfl rfl totals_backoff
  | some x =>
    obtain ⟨fault, policy⟩ := x
    exact countsOnce_handleFault.after totals_leaveWaiting fun _ => means_of_core core_leaveWaiting

/-- An attempt that has ended is counted once, whatever follows. -/
lemma totals_recordAttempt {result : Except Failure Flow} :
    (p.recordAttempt j f result).totals =
      p.totals.enter (some ⟨j.command.type, Span.ofMillis (p.stopwatch - f.since), result⟩) := by
  unfold recordAttempt
  dsimp only
  split <;> rfl

lemma countsOnce_land {verdict : Except Failure CommandResult} :
    CountsOnce (some ⟨j.command.type, Span.ofMillis (p.stopwatch - f.since),
      j.command.conclude verdict⟩)
      (p.landingSetback? j verdict) p (p.land j f verdict) := by
  unfold land landingSetback?
  dsimp only
  generalize j.command.conclude verdict = result
  obtain ⟨q, hq⟩ : ∃ q, q = p.recordAttempt j f result := ⟨_, rfl⟩
  obtain ⟨r, hr⟩ : ∃ r, r = { q with context := q.context.recordCommand } := ⟨_, rfl⟩
  have hcore : q.core = p.core := by
    rw [hq]
    exact congrArg Gist.core (gist_recordAttempt p j f)
  have hrecorded := (congrArg totals hq).trans totals_recordAttempt
  have hcounted : r.totals = q.totals := hr ▸ rfl
  have hmeans : r.means = p.means := hr ▸ (means_of_core hcore : q.means = p.means)
  have hcancelled : q.isCancelled j.work.token = p.isCancelled j.work.token :=
    congrArg (·.isCancelled j.work.token) hcore
  rw [← hq, ← hr]
  cases result with
  | ok flow =>
    have hleft : (r.leaveWaiting j).totals = r.totals := totals_leaveWaiting
    exact countsOnce_finishLine.after (hleft.trans (hcounted.trans hrecorded)) fun h => absurd rfl h
  | error failure =>
    dsimp only
    rw [hcancelled]
    split
    · exact .of_ends ⟨_, rfl⟩ (totals_leaveWaiting.trans hrecorded)
    · rw [← upset?_congr (congrArg Means.host hmeans : r.host = p.host)]
      exact countsOnce_attemptFailed.after (hcounted.trans hrecorded) fun _ => hmeans

lemma countsOnce_beginCommand {command : Option Command} :
    CountsOnce none (p.openingSetback? w command) p (p.beginCommand w command) := by
  cases command with
  | none => exact countsOnce_handleFault
  | some command => exact countsOnce_launch.after totals_moveFrom fun h => absurd rfl h

lemma countsOnce_beginText {text : String} : CountsOnce none none p (p.beginText w text) := by
  unfold beginText
  split
  · split
    · exact .of_ends ⟨_, rfl⟩ rfl
    · exact .of_goes rfl rfl rfl
  · exact countsOnce_finishLine

lemma countsOnce_presented {verdict : Except Failure Unit} :
    CountsOnce none (p.presentedSetback? w verdict) p (p.presented w verdict) := by
  unfold presented presentedSetback?
  cases verdict with
  | ok => exact countsOnce_finishLine
  | error failure =>
    dsimp only
    split
    · exact .of_ends ⟨_, rfl⟩ rfl
    · exact countsOnce_handleFault

/-! ### Phases -/

/-- A line that is begun. -/
lemma countsOnce_beginLine {token : Token} :
    CountsOnce none (p.setbackAtOnce? token) p (p.beginLine token) := by
  obtain ⟨q, hq⟩ : ∃ q, q = { p with context := p.context.settleCursor } := ⟨_, rfl⟩
  have htotals : q.totals = p.totals := hq ▸ rfl
  have hmeans : q.means = p.means := hq ▸ means_of_ground rfl rfl ground_settleCursor
  cases hline : p.context.settleCursor.currentLine with
  | none =>
    have hbegin : p.beginLine token = (q, .ends (.finished .completed)) := by
      simp only [beginLine, ← hq, hline]
    have hsetback : p.setbackAtOnce? token = none := by
      simp only [setbackAtOnce?, hline]
    rw [hbegin, hsetback]
    exact .of_ends ⟨_, rfl⟩ htotals
  | some line =>
    obtain ⟨w, hw⟩ : ∃ w, w = q.nextWork token line := ⟨_, rfl⟩
    obtain ⟨r, hr⟩ : ∃ r, r = q.publish w.run (.lineExecuting w.index w.source) := ⟨_, rfl⟩
    have hbegun : r.totals = p.totals := hr ▸ htotals
    rw [beginLine_eq hq hw hr hline]
    cases line with
    | command source command =>
      have hsetback : p.setbackAtOnce? token = r.openingSetback? w command := by
        rw [hr, hw]
        simp only [setbackAtOnce?, ← hq, hline]
        rfl
      rw [hsetback]
      exact countsOnce_beginCommand.after hbegun fun _ => hr ▸ hmeans
    | text text =>
      have hsetback : p.setbackAtOnce? token = none := by
        simp only [setbackAtOnce?, hline]
      rw [hsetback]
      exact countsOnce_beginText.after hbegun fun h => absurd rfl h

/-- A line goes on from a phase.  No line waits for a script to remedy a fault. -/
lemma countsOnce_stepLine {line : LinePhase} (hline : line.isRemedy = false) :
    CountsOnce (p.lineEnded? line) (p.lineSetback? line) p (p.stepLine line) := by
  have hblocked : CountsOnce none none p (p, .blocked) := ⟨rfl, fun _ h => by cases h⟩
  cases line with
  | flying j f =>
    simp only [stepLine, lineEnded?, lineSetback?]
    cases p.landing j f with
    | none => exact hblocked
    | some verdict => exact countsOnce_land
  | resting j until_ =>
    simp only [stepLine, lineEnded?, lineSetback?]
    split
    · exact .of_ends ⟨_, rfl⟩ totals_leaveWaiting
    · split
      · exact countsOnce_launch
      · exact hblocked
  | presenting w until_ verdict =>
    simp only [stepLine, lineEnded?, lineSetback?]
    by_cases hcut : (p.isCancelled w.token && (p.prompt || decide (p.now < until_))) = true
    · have hcancelled : p.isCancelled w.token = true := (Bool.and_eq_true_iff.mp hcut).1
      have hnone : p.presentedSetback? w verdict = none := by
        cases verdict with
        | ok => rfl
        | error failure => simp [presentedSetback?, hcancelled]
      rw [if_pos hcut, hnone, ite_self]
      exact .of_ends ⟨_, rfl⟩ rfl
    · rw [if_neg hcut]
      split
      · exact countsOnce_presented
      · exact hblocked
  | switching w caller script recovered =>
    obtain rfl : recovered = false := hline
    exact countsOnce_switchScript

/-! ### Between two lines -/

@[simp] lemma totals_finish {f : Finish} : (p.finish f).1.totals = p.totals := by
  have hconclude : (p.conclude f).1.totals = p.totals := by
    cases f with
    | completed => exact totals_moveIfAllowed.trans totals_moveFrom
    | stopped | failed | halted | cancelled => exact totals_moveIfAllowed
  have hend : ∀ (q : Player) (r : Report), (q.publishEnd r).totals = q.totals := by
    intro q r
    unfold publishEnd
    split <;> rfl
  have hmeasured : (p.finish f).1.totals = ((p.conclude f).1.publishEnd _).measureMemory.totals :=
    rfl
  rw [hmeasured, totals_measureMemory, hend, hconclude]

@[simp] lemma totals_playOn {play : Play} : (p.playOn id play).1.totals = p.totals := by
  unfold playOn
  split
  · exact totals_finish
  · split
    · exact totals_finish
    · split <;> first | exact totals_finish | rfl

@[simp] lemma totals_continuePlay {play : Play} :
    (p.continuePlay id play).1.totals = p.totals := by
  unfold continuePlay
  split
  · rfl
  · exact totals_playOn

@[simp] lemma totals_autosave {play : Play} : (p.autosave id play).1.totals = p.totals := by
  unfold autosave
  split
  · rfl
  · exact totals_continuePlay

/-- A playback that has the line lock counts nothing unless it executes its line. -/
lemma totals_playLine {play : Play} (hexec : p.execution? id (.playLock play) = none)
    (hheld : p.lineLock.isHeldBy id = true) : (p.playLine id play).1.totals = p.totals := by
  have hengages := p.engages_playLine id play
  generalize p.playLine id play = x at hengages ⊢
  cases hengages with
  | yields => exact totals_continuePlay
  | @pauses q r index context _ _ _ hq hr =>
    have hhit : q.totals = p.totals := hq ▸ rfl
    have hpaused : r.totals = q.totals := hr ▸ totals_moveFrom
    exact totals_continuePlay.trans (hpaused.trans hhit)
  | begins hdeferred hstate htaken =>
    cases hexec.symm.trans (execution?_playLock hheld hdeferred hstate htaken)

lemma totals_followPlay {play : Play} : (followPlay id play y).1.totals = y.1.totals := by
  obtain ⟨q, progress⟩ := y
  cases progress with
  | blocked | goes => rfl
  | ends by_ =>
    cases by_ with
    | finished f => exact totals_finish
    | next =>
      simp only [followPlay, afterLine]
      split
      · exact totals_autosave
      · rfl

lemma totals_followStep : (followStep y).1.totals = y.1.totals := by
  obtain ⟨q, progress⟩ := y
  cases progress with
  | blocked | goes => rfl
  | ends by_ =>
    cases by_ with
    | next => rfl
    | finished f => exact totals_defer

/-! ### Requests -/

lemma totals_startLines {token : Token} {name : String} :
    (p.startLines id token run name).1.totals = p.totals := by
  unfold startLines
  split
  · exact totals_finish
  · dsimp only
    split <;> simp

lemma totals_beginPlay {script : Script} {start : Start} {bound : Bool} :
    (p.beginPlay id script start bound).1.totals = p.totals := by
  have hprepare : (p.prepare script bound).2.totals = p.totals :=
    totals_moveFrom.trans totals_resetState
  unfold beginPlay
  split
  · rfl
  · dsimp only
    split
    · rw [totals_finish, totals_moveFrom, hprepare]
    · split
      · split
        · exact totals_finish.trans hprepare
        · exact hprepare
      · exact totals_startLines.trans hprepare

lemma totals_requestPlay {script : Script} {start : Start} {bound : Bool} :
    (p.requestPlay id script start bound).1.totals = p.totals := by
  unfold requestPlay
  split
  · rfl
  · split
    · rfl
    · exact totals_stop

lemma totals_accept {r : Request} : (p.accept id r).1.totals = p.totals := by
  cases r with
  | play => exact totals_requestPlay
  | reset => exact totals_stop
  | shutDown => exact totals_stop (p := { p with isShutDown := true })
  | skipToLine => rfl
  | skipToLabel label =>
    simp only [accept, requestLabel]
    split
    · rfl
    · split <;> rfl
  | save =>
    simp only [accept, requestSave]
    split <;> rfl
  | loadSnapshot =>
    simp only [accept, requestSnapshot]
    split <;> rfl
  | loadState =>
    simp only [accept, requestSnapshot]
    split
    · rfl
    · split <;> rfl
  | playNamed | stepForward | stepBackward =>
    simp only [accept]
    split <;> rfl

/-- Resetting forgets the checkpoint, but not what was counted. -/
lemma totals_resetAll : p.resetAll.1.totals = p.totals := by
  change (p.resetState p.run).totals = p.totals
  exact totals_resetState

lemma totals_storeSnapshot {key : String} {s : Snapshot} :
    (p.storeSnapshot key s).1.totals = p.totals := by
  unfold storeSnapshot
  have hwritten : (p.write key s).2.totals = p.totals := totals_write
  generalize p.write key s = written at hwritten
  obtain ⟨result, q⟩ := written
  cases result with
  | ok | error => exact hwritten

lemma totals_restoreSnapshot {s : Snapshot} : (p.restoreSnapshot s).1.totals = p.totals := by
  unfold restoreSnapshot
  split
  · rfl
  · split
    · rfl
    · split <;> rfl

/-- A call counts nothing. -/
lemma totals_perform {c : Call} : (p.perform c).totals = p.totals := by
  cases c with
  | pause =>
    simp only [perform, pause]
    split
    · rfl
    · exact totals_moveFrom
    · rfl
    · rfl
  | resume =>
    simp only [perform, resume]
    split
    · exact totals_moveFrom
    · rfl
    · rfl
    · rfl
  | stop => exact totals_stop
  | setSpeed speed =>
    simp only [perform, setSpeed]
    split <;> rfl
  | unassignAll => exact totals_clearVariables
  | cancel | addBreakpoint | removeBreakpoint | clearBreakpoints | assign => rfl

/-- A step that executes no line counts nothing. -/
lemma totals_step_of_execution (hexec : p.execution? id phase = none) :
    (p.step id phase).1.totals = p.totals := by
  cases phase with
  | entering r => exact totals_accept
  | loading name =>
    simp only [step, loadAndPlay]
    split
    · rfl
    · split
      · rfl
      · exact totals_requestPlay
  | playGate =>
    simp only [step]
    split
    · exact totals_beginPlay
    · rfl
  | preloading =>
    simp only [step]
    split
    · exact totals_startLines
    · rfl
  | paused play =>
    simp only [step]
    split
    · exact totals_finish
    · split
      · rfl
      · exact totals_playOn
  | playLock play =>
    simp only [step]
    split
    · next hheld => exact totals_playLine hexec hheld
    · rfl
  | playing | stepping => cases hexec
  | delaying =>
    simp only [step]
    split
    · exact totals_finish
    · split
      · exact totals_autosave
      · rfl
  | autosaving play s =>
    simp only [step]
    rw [totals_continuePlay, totals_measureMemory]
    split
    · rfl
    · exact totals_write
  | resetGate =>
    simp only [step]
    split
    · exact totals_resetAll
    · rfl
  | closeGate | backLock =>
    simp only [step]
    split <;> rfl
  | stepLock =>
    simp only [step]
    split
    · next hheld =>
      unfold beginStep
      split
      · rfl
      · rfl
      · next token hrefusal htoken =>
        simp [execution?, hheld, hrefusal, htoken] at hexec
    · rfl
  | skipLock index =>
    simp only [step, skip]
    split
    · split
      · rfl
      · split <;> rfl
    · rfl
  | storing => exact totals_storeSnapshot
  | fetching =>
    simp only [step, fetchSnapshot]
    split
    · rfl
    · split <;> rfl
  | restoreLock s =>
    simp only [step]
    split
    · exact totals_restoreSnapshot
    · rfl

/-- A line that is executed is booked. -/
lemma countsOnce_execution (hexec : p.execution? id phase = some y)
    (hphase : ∀ line, phase.line? = some line → line.isRemedy = false) :
    CountsOnce (p.ended? phase) (p.setback? id phase) p y := by
  have hsome : (p.execution? id phase).isSome = true := by rw [hexec]; rfl
  cases phase with
  | playing play line | stepping line =>
    cases hexec
    exact countsOnce_stepLine (hphase line rfl)
  | playLock play =>
    have hsetback : p.setback? id (.playLock play) =
        { p with context := p.context.takeBreakpoint.2 }.setbackAtOnce? play.token := if_pos hsome
    have hmeans : { p with context := p.context.takeBreakpoint.2 }.means = p.means :=
      means_of_ground rfl rfl ground_takeBreakpoint
    simp only [execution?] at hexec
    split at hexec
    · cases hexec
      rw [hsetback]
      exact countsOnce_beginLine.after rfl fun _ => hmeans
    · cases hexec
  | stepLock =>
    simp only [execution?] at hexec
    split at hexec
    · obtain ⟨token, htoken, rfl⟩ := Option.map_eq_some_iff.mp hexec
      have hsetback : p.setback? id .stepLock =
          { p with context := { p.context with stepMode := true } }.setbackAtOnce? token := by
        have hbound : p.setback? id .stepLock = _ := if_pos hsome
        rw [hbound, htoken]
        rfl
      rw [hsetback]
      exact countsOnce_beginLine.after rfl fun _ => rfl
    · cases hexec
  | _ => cases hexec

/-- A step counts the execution that it ends and the fault that it hands over to recovery, each
once, and nothing else. -/
theorem totals_step (id : Nat)
    (hphase : ∀ line, phase.line? = some line → line.isRemedy = false) :
    (p.step id phase).1.totals =
      (p.totals.enter (p.ended? phase)).charge ((p.setback? id phase).bind p.mends?) := by
  cases hexec : p.execution? id phase with
  | none =>
    have hnone : p.ended? phase = none ∧ p.setback? id phase = none := by
      cases phase with
      | playing | stepping => cases hexec
      | playLock | stepLock => simp [ended?, Phase.line?, setback?, hexec]
      | _ => exact ⟨rfl, rfl⟩
    rw [totals_step_of_execution hexec, hnone.1, hnone.2]
    rfl
  | some y =>
    have hcounts := (countsOnce_execution hexec hphase).totals
    rcases step_of_execution hexec with ⟨-, hstep⟩ | ⟨-, play, -, hstep⟩
    · rw [hstep, totals_followStep, hcounts]
    · rw [hstep, totals_followPlay, hcounts]

end Player

end Recital
