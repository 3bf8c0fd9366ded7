import Recital.Proofs.Player.LineFrame
import Recital.Proofs.Session.Ownership

/-!
# Players with a past

A player that has played before carries records of it along: the events that were published, what
the host was asked to do, measurements, the log, the statistics of commands, how recovery went and
which playbacks were cancelled.  All of these grow at one end, so a player with a past is a player
without one that the past was put before (`Player.after`).

What a player does with a past is what it would do without one, and the past comes before.  This is
so for each operation by itself, and so there is one equation for each of them.  Three things in a
past could make a difference.  A token could be one that was cancelled, and the checkpoint could be
an old one; both are ruled out where they matter.  And how an attempt has ended goes into the
statistics, which are therefore those of another past afterwards.
-/

namespace Recital

/-- What a player has behind it. -/
structure Past where
  /-- The events that were published. -/
  log : Array Event
  /-- What the host was asked to do. -/
  trace : Array Trace
  /-- The measurements. -/
  samples : Array Sample
  /-- The log that scripts have written. -/
  notes : Array Note
  /-- The playbacks that were cancelled. -/
  cancelled : List Nat
  /-- How commands went. -/
  ledger : Ledger
  /-- How recovery went, and the checkpoint that counts until there is another. -/
  recovery : Recovery

namespace Recovery

variable {r past : Recovery}

/-- How recovery goes after a past. -/
def after (r past : Recovery) : Recovery where
  checkpoint := r.checkpoint.or past.checkpoint
  attempts := past.attempts + r.attempts
  successes := past.successes + r.successes

/-- Without an old checkpoint, plans do not depend on the past. -/
lemma plan_after (hpast : past.checkpoint = none) (fault : Fault) (policy : Policy)
    (spent limit : Nat) : (r.after past).plan fault policy spent limit =
      ((r.plan fault policy spent limit).1, (r.plan fault policy spent limit).2.after past) := by
  have hcheckpoint : (r.after past).checkpoint = r.checkpoint := by
    simp [after, hpast]
  have hplan : ∀ remedy,
      (r.after past).planFor remedy spent limit = r.planFor remedy spent limit := by
    intro remedy
    unfold planFor
    rw [hcheckpoint]
  unfold plan
  split
  · rfl
  · rw [hplan]
    rfl

end Recovery

namespace Player

/-- A player with something behind it. -/
def after (p : Player) (h : Past) : Player :=
  { p with
    bus := { p.bus with log := h.log ++ p.bus.log }
    recovery := p.recovery.after h.recovery
    ledger := h.ledger
    cancelled := p.cancelled ++ h.cancelled
    trace := h.trace ++ p.trace
    samples := h.samples ++ p.samples
    notes := h.notes ++ p.notes }

end Player

/-- The past without its checkpoint. -/
def Past.unmarked (h : Past) : Past := { h with recovery := { h.recovery with checkpoint := none } }

/-- What of the past no playback changes. -/
def Past.records (h : Past) : Past := { h with ledger := {}, recovery := {} }

/-- A player with something behind it that has come to the same. -/
def Past.before {α : Type} (h : Past) (x : Player × α) : Player × α := (x.1.after h, x.2)

lemma Past.before_ite {α : Type} (h : Past) (c : Prop) [Decidable c] (x y : Player × α) :
    h.before (if c then x else y) = if c then h.before x else h.before y :=
  apply_ite h.before c x y

namespace Player

variable {h : Past} {p : Player} {run : Run} {w : Work} {j : Job} {f : Flight} {t : Token}

/-! ### Events and the state -/

lemma publish_after (p : Player) (run : Run) (e : Event.Payload) :
    (p.after h).publish run e = (p.publish run e).after h := by
  unfold publish Bus.publish
  split
  · next hclosed =>
    have hopen : p.bus.closed = true := hclosed
    rw [if_pos hopen]
  · next hclosed =>
    have hopen : ¬ p.bus.closed = true := hclosed
    rw [if_neg hopen]
    simp only [after, Array.push_append]

lemma commit_after (p : Player) (run : Run) (change : Cell × State.Change) :
    (p.after h).commit run change = (p.commit run change).after h :=
  publish_after { p with cell := change.1 } _ _

lemma moveFrom_after (p : Player) (run : Run) (a b : State) :
    (p.after h).moveFrom run a b = ((p.moveFrom run a b).1, (p.moveFrom run a b).2.after h) := by
  have hcell : (p.after h).cell = p.cell := rfl
  unfold moveFrom
  rw [hcell]
  cases p.cell.moveFrom a b with
  | none => rfl
  | some change => exact congrArg (Prod.mk true) (commit_after p run change)

lemma moveIfAllowed_after (p : Player) (run : Run) (b : State) :
    (p.after h).moveIfAllowed run b = (p.moveIfAllowed run b).after h := by
  have hcell : (p.after h).cell = p.cell := rfl
  unfold moveIfAllowed
  rw [hcell]
  cases p.cell.moveIfAllowed b with
  | none => rfl
  | some change => exact commit_after p run change

/-- Whether a playback is cancelled that has not been cancelled in the past. -/
lemma isCancelled_after (ht : t.id ∉ h.cancelled) :
    (p.after h).isCancelled t = p.isCancelled t := by
  simp [isCancelled, after, ht]

/-! ### The end of a line -/

lemma applyPause_after (p : Player) (run : Run) :
    (p.after h).applyPause run = (p.applyPause run).after h := by
  have hmoved := moveFrom_after (h := h) { p with pauseRequested := false } run .playing .paused
  unfold applyPause
  split
  · next hasked =>
    have hsame : p.pauseRequested = true := hasked
    rw [if_pos hsame]
    exact congrArg Prod.snd hmoved
  · next hasked =>
    have hsame : ¬ p.pauseRequested = true := hasked
    rw [if_neg hsame]

lemma closeLine_after (p : Player) (w : Work) (by_ : LineEnd) :
    (p.after h).closeLine w by_ = h.before (p.closeLine w by_) := by
  have hprogress : (p.after h).publishProgress = p.publishProgress.after h := publish_after p _ _
  unfold closeLine
  rw [hprogress, applyPause_after]
  rfl

lemma closeFailed_after (p : Player) (w : Work) (fault : Fault) :
    (p.after h).closeFailed w fault = h.before (p.closeFailed w fault) := by
  have hpassed : (p.after h).passOver w fault = h.before (p.passOver w fault) := by
    unfold passOver
    rw [Past.before_ite]
    refine if_congr Iff.rfl ?_ rfl
    exact congrArg (fun q : Player => ({ q with
      context := (q.context.lineFinished w.index).moveTo (w.index + 1) }, LineEnd.next))
      (publish_after { p with spent := p.spent.forget w.index } _ _)
  unfold closeFailed
  rw [hpassed]
  exact closeLine_after _ _ _

lemma closeDone_after (p : Player) (w : Work) (recovered : Bool) (by_ : LineEnd) :
    (p.after h).closeDone w recovered by_ = h.before (p.closeDone w recovered by_) := by
  cases recovered with
  | true => exact closeLine_after { p with recovery := p.recovery.recordSuccess } w by_
  | false => exact closeLine_after p w by_

/-! ### Flow actions -/

lemma applyFlow_after (p : Player) (w : Work) (flow : Flow) (recovered : Bool) :
    (p.after h).applyFlow w flow recovered = h.before (p.applyFlow w flow recovered) := by
  have hcontext : (p.after h).context = p.context := rfl
  have hhost : (p.after h).host = p.host := rfl
  unfold applyFlow
  rw [hcontext, hhost]
  cases p.context.resolve flow with
  | error fault => exact closeFailed_after p w _
  | ok x =>
    obtain ⟨resolution, context⟩ := x
    cases resolution with
    | advance => exact closeDone_after { p with context := context.advance } w recovered _
    | jumped | returned | stop | completed => exact closeDone_after { p with context } w recovered _
    | call script =>
      dsimp only
      cases p.host.loader with
      | none => exact closeFailed_after { p with context } w _
      | some load => rfl

lemma finishLine_after (p : Player) (w : Work) (flow : Flow) (recovered : Bool) :
    (p.after h).finishLine w flow recovered = h.before (p.finishLine w flow recovered) := by
  obtain ⟨q, hq⟩ : ∃ q, q = { p with
    context := p.context.recordLine.lineFinished w.index
    spent := p.spent.forget w.index } := ⟨_, rfl⟩
  have hfinish : (p.after h).finishLine w flow recovered =
      ((q.after h).publish w.run (.lineExecuted w.index w.source)).applyFlow w flow recovered := by
    rw [hq]
    rfl
  rw [hfinish, publish_after, applyFlow_after, hq]
  rfl

/-! ### Calls of scripts -/

lemma setCheckpoint_after (p : Player) : (p.after h).setCheckpoint = p.setCheckpoint.after h := by
  have hcontext : (p.after h).context = p.context := rfl
  have hnow : (p.after h).now = p.now := rfl
  unfold setCheckpoint
  rw [hcontext, hnow]
  cases p.context.snapshot? (Instant.ofMillis p.now) <;> rfl

lemma enter_after (p : Player) (caller : Run) (name : String) (script : Script)
    (labels : Table Nat) :
    (p.after h).enter caller name script labels = (p.enter caller name script labels).after h := by
  have hset := setCheckpoint_after (h := h)
    { p with context := p.context.switchTo script labels, attempts := {} }
  obtain ⟨q, hq⟩ : ∃ q, q =
    setCheckpoint { p with context := p.context.switchTo script labels, attempts := {} } := ⟨_, rfl⟩
  rw [← hq] at hset
  have henter : (p.after h).enter caller name script labels =
      Player.publish { q.after h with
        spent := {}, run := caller.child q.serial, serial := q.serial + 1 }
        (caller.child q.serial) (.scriptStarted name) :=
    congrArg (fun r : Player => Player.publish { r with
      spent := {}, run := caller.child r.serial, serial := r.serial + 1 }
      (caller.child r.serial) (.scriptStarted name)) hset
  have hpublished := publish_after (h := h) { q with
    spent := {}, run := caller.child q.serial, serial := q.serial + 1 }
    (caller.child q.serial) (.scriptStarted name)
  rw [henter]
  refine hpublished.trans ?_
  rw [hq]
  rfl

lemma switchScript_after (p : Player) (w : Work) (caller : Run) (script : String)
    (recovered : Bool) :
    (p.after h).switchScript w caller script recovered =
      h.before (p.switchScript w caller script recovered) := by
  have hfetch : (p.after h).fetch w script = p.fetch w script := rfl
  unfold switchScript
  rw [hfetch]
  cases p.fetch w script with
  | error fault => exact closeFailed_after p w fault
  | ok x =>
    dsimp only
    rw [enter_after, closeDone_after]

/-! ### Failures -/

lemma handleFault_after (hold : h.recovery.checkpoint = none) (p : Player) (w : Work)
    (fault : Fault) (policy : Policy) :
    (p.after h).handleFault w fault policy = h.before (p.handleFault w fault policy) := by
  have hplan := Recovery.plan_after (r := p.recovery) hold fault policy (p.spent.count w.index)
    p.tolerance.maxRecoveries
  have hplan' : (p.after h).recovery.plan fault policy ((p.after h).spent.count w.index)
      (p.after h).tolerance.maxRecoveries = _ := hplan
  unfold handleFault
  rw [Past.before_ite, hplan']
  refine if_congr Iff.rfl (closeFailed_after p w fault) ?_
  generalize p.recovery.plan fault policy (p.spent.count w.index) p.tolerance.maxRecoveries =
    planned
  obtain ⟨plan, recovery⟩ := planned
  cases plan with
  | proceed flow => exact finishLine_after { p with recovery } w flow true
  | again =>
    exact closeLine_after
      { p with spent := p.spent.bump w.index, recovery := recovery.recordSuccess } w _
  | rollback snapshot =>
    exact closeLine_after
      { p with
        spent := p.spent.bump w.index
        context := p.context.restore snapshot
        recovery := recovery.recordSuccess } w _
  | halt =>
    exact closeLine_after
      { p with spent := p.spent.forget w.index, recovery := recovery.recordSuccess } w _
  | giveUp => exact closeFailed_after { p with recovery } w fault

/-! ### Commands -/

lemma setVariable_after (p : Player) (run : Run) (name : String) (value : Json) :
    (p.after h).setVariable run name value = (p.setVariable run name value).after h :=
  publish_after { p with context := p.context.assign name value } run _

lemma clearVariables_after (p : Player) (run : Run) :
    (p.after h).clearVariables run = (p.clearVariables run).after h := by
  have hpublish : ∀ (names : List String) (q : Player),
      names.foldl (fun q name => q.publish run (.variableChanged name none)) (q.after h) =
        (names.foldl (fun q name => q.publish run (.variableChanged name none)) q).after h := by
    intro names
    induction names with
    | nil => exact fun _ => rfl
    | cons name names ih =>
      intro q
      rw [List.foldl_cons, List.foldl_cons, publish_after]
      exact ih _
  exact hpublish p.context.vars.keys { p with context := p.context.clearVariables }

lemma applyEffect_after (p : Player) (w : Work) (e : Effect) :
    (p.after h).applyEffect w e = (p.applyEffect w e).after h := by
  cases e with
  | assign name value => exact setVariable_after p w.run name value
  | observe name look => exact setVariable_after p w.run name _
  | clear => exact clearVariables_after p w.run
  | push line => rfl
  | note message =>
    simp only [applyEffect, after, Array.push_append]

lemma applyEffects_after (p : Player) (w : Work) (effects : List Effect) :
    effects.foldl (fun p e => p.applyEffect w e) (p.after h) =
      (effects.foldl (fun p e => p.applyEffect w e) p).after h := by
  induction effects generalizing p with
  | nil => rfl
  | cons e effects ih =>
    rw [List.foldl_cons, List.foldl_cons, applyEffect_after]
    exact ih _

lemma countAttempt_after (p : Player) (j : Job) :
    (p.after h).countAttempt j = (p.countAttempt j).after h := by
  unfold countAttempt
  split
  · simp only [after, Array.push_append]
  · rfl

lemma launch_after (ht : j.work.token.id ∉ h.cancelled) :
    (p.after h).launch j = h.before (p.launch j) := by
  unfold launch
  dsimp only
  rw [publish_after]
  obtain ⟨q, hq⟩ : ∃ q, q =
    p.publish j.work.run (.commandExecuting j.work.index j.command.type) := ⟨_, rfl⟩
  rw [← hq, isCancelled_after ht, Past.before_ite, countAttempt_after]
  refine if_congr Iff.rfl rfl ?_
  exact Prod.ext (applyEffects_after _ _ _) rfl

lemma landing_after (ht : j.work.token.id ∉ h.cancelled) :
    (p.after h).landing j f = p.landing j f := by
  unfold landing
  rw [isCancelled_after ht]
  rfl

lemma leaveWaiting_after (p : Player) (j : Job) :
    (p.after h).leaveWaiting j = (p.leaveWaiting j).after h := by
  unfold leaveWaiting
  split
  · exact congrArg Prod.snd (moveFrom_after p _ _ _)
  · rfl

/-- How an attempt has ended goes into the statistics. -/
lemma recordAttempt_after (p : Player) (j : Job) (f : Flight) (result : Except Failure Flow) :
    ∃ ledger, (p.after h).recordAttempt j f result =
      (p.recordAttempt j f result).after { h with ledger } := by
  obtain ⟨ledger, hledger⟩ : ∃ l, l =
    h.ledger.record j.command.type (Span.ofMillis (p.stopwatch - f.since)) result := ⟨_, rfl⟩
  obtain ⟨q, hq⟩ : ∃ q, q = { p with
    ledger := p.ledger.record j.command.type (Span.ofMillis (p.stopwatch - f.since)) result } :=
      ⟨_, rfl⟩
  have hpublished := publish_after (h := { h with ledger }) q j.work.run
    (.commandExecuted j.work.index j.command.type result.toOption.isSome)
  have hrecorded : { p.after h with
      ledger := (p.after h).ledger.record j.command.type
        (Span.ofMillis ((p.after h).stopwatch - f.since)) result } = q.after { h with ledger } := by
    rw [hq, hledger]
    rfl
  refine ⟨ledger, ?_⟩
  unfold recordAttempt
  dsimp only
  rw [hrecorded, ← hq, hpublished]
  generalize q.publish j.work.run
    (.commandExecuted j.work.index j.command.type result.toOption.isSome) = r
  rw [apply_ite (after · { h with ledger })]
  refine if_congr Iff.rfl ?_ rfl
  simp only [after, Array.push_append]

lemma backoff_after (p : Player) (policy : Policy) (attempt : Nat) :
    (p.after h).backoff policy attempt =
      ((p.backoff policy attempt).1, (p.backoff policy attempt).2.after h) := by
  unfold backoff
  split <;> rfl

lemma attemptFailed_after (hold : h.recovery.checkpoint = none) (p : Player) (j : Job)
    (failure : Failure) :
    (p.after h).attemptFailed j failure = h.before (p.attemptFailed j failure) := by
  unfold attemptFailed
  dsimp only
  rw [Past.before_ite, leaveWaiting_after, handleFault_after hold]
  refine if_congr Iff.rfl ?_ rfl
  have hpolicy : (p.after h).host.policy j.command.type = p.host.policy j.command.type := rfl
  rw [hpolicy, backoff_after, publish_after]
  rfl

lemma land_after (hold : h.recovery.checkpoint = none) (ht : j.work.token.id ∉ h.cancelled)
    (verdict : Except Failure CommandResult) :
    ∃ ledger, (p.after h).land j f verdict =
      Past.before { h with ledger } (p.land j f verdict) := by
  obtain ⟨ledger, hrecorded⟩ :=
    recordAttempt_after (h := h) p j f (j.command.conclude verdict)
  refine ⟨ledger, ?_⟩
  obtain ⟨g, hg⟩ : ∃ g : Past, g = { h with ledger } := ⟨_, rfl⟩
  have hgold : g.recovery.checkpoint = none := by rw [hg]; exact hold
  have hgt : j.work.token.id ∉ g.cancelled := by rw [hg]; exact ht
  unfold land
  dsimp only
  rw [hrecorded, ← hg]
  generalize p.recordAttempt j f (j.command.conclude verdict) = q
  cases j.command.conclude verdict with
  | ok flow =>
    have hleft := leaveWaiting_after (h := g)
      { q with context := q.context.recordCommand } j
    have hfinish := finishLine_after (h := g)
      (Player.leaveWaiting { q with context := q.context.recordCommand } j) j.work flow false
    rw [← hleft] at hfinish
    exact hfinish
  | error failure =>
    dsimp only
    rw [isCancelled_after hgt, Past.before_ite, leaveWaiting_after]
    refine if_congr Iff.rfl rfl ?_
    exact attemptFailed_after hgold { q with context := q.context.recordCommand } j failure

lemma beginCommand_after (hold : h.recovery.checkpoint = none) (ht : w.token.id ∉ h.cancelled)
    (p : Player) (command : Option Command) :
    (p.after h).beginCommand w command = h.before (p.beginCommand w command) := by
  cases command with
  | none => exact handleFault_after hold p w _ _
  | some command =>
    unfold beginCommand
    dsimp only
    rw [moveFrom_after]
    exact launch_after ht

/-! ### Text -/

lemma beginText_after (ht : w.token.id ∉ h.cancelled) (p : Player) (text : String) :
    (p.after h).beginText w text = h.before (p.beginText w text) := by
  have hhost : (p.after h).host = p.host := rfl
  unfold beginText
  rw [hhost, isCancelled_after ht]
  split
  · rw [Past.before_ite]
    refine if_congr Iff.rfl rfl ?_
    simp only [Past.before, after, Array.push_append]
    rfl
  · exact finishLine_after p w _ _

lemma presented_after (hold : h.recovery.checkpoint = none) (ht : w.token.id ∉ h.cancelled)
    (p : Player) (verdict : Except Failure Unit) :
    (p.after h).presented w verdict = h.before (p.presented w verdict) := by
  cases verdict with
  | ok => exact finishLine_after p w .next false
  | error failure =>
    unfold presented
    dsimp only
    rw [isCancelled_after ht, Past.before_ite]
    exact if_congr Iff.rfl rfl (handleFault_after hold p w _ _)

/-! ### Phases of a line -/

/-- A line is begun as it would be without a past. -/
lemma beginLine_after (hold : h.recovery.checkpoint = none) (ht : t.id ∉ h.cancelled) (p : Player) :
    (p.after h).beginLine t = h.before (p.beginLine t) := by
  obtain ⟨q, hq⟩ : ∃ q, q = { p with context := p.context.settleCursor } := ⟨_, rfl⟩
  have hsettled : { p.after h with context := (p.after h).context.settleCursor } = q.after h := by
    rw [hq]
    rfl
  have hcontext : (p.after h).context = p.context := rfl
  have hrun : (p.after h).run = p.run := rfl
  unfold beginLine
  dsimp only
  rw [hsettled, ← hq, hcontext, hrun]
  cases p.context.settleCursor.currentLine with
  | none => rfl
  | some line =>
    dsimp only
    rw [publish_after]
    cases line with
    | command source command => exact beginCommand_after hold ht _ command
    | text text => exact beginText_after ht _ text

/-- A line is taken on as it would be without a past. -/
lemma stepLine_after (hold : h.recovery.checkpoint = none) (p : Player) {line : LinePhase}
    (ht : line.work.token.id ∉ h.cancelled) :
    ∃ ledger, (p.after h).stepLine line = Past.before { h with ledger } (p.stepLine line) := by
  have hnow : (p.after h).now = p.now := rfl
  have hprompt : (p.after h).prompt = p.prompt := rfl
  cases line with
  | flying j f =>
    simp only [stepLine]
    rw [landing_after ht]
    cases p.landing j f with
    | some verdict => exact land_after hold ht verdict
    | none => exact ⟨h.ledger, rfl⟩
  | resting j until_ =>
    have htoken : j.work.token.id ∉ h.cancelled := ht
    refine ⟨h.ledger, ?_⟩
    simp only [stepLine]
    rw [isCancelled_after htoken, hnow, Past.before_ite, Past.before_ite, leaveWaiting_after]
    exact if_congr Iff.rfl rfl
      (if_congr Iff.rfl (launch_after (j := { j with attempt := Word.next 32 j.attempt }) ht) rfl)
  | presenting w until_ verdict =>
    have htoken : w.token.id ∉ h.cancelled := ht
    refine ⟨h.ledger, ?_⟩
    simp only [stepLine]
    rw [isCancelled_after htoken, hnow, hprompt, Past.before_ite, Past.before_ite]
    exact if_congr Iff.rfl rfl (if_congr Iff.rfl (presented_after hold ht p verdict) rfl)
  | switching w caller script recovered =>
    exact ⟨h.ledger, switchScript_after p w caller script recovered⟩

/-! ### The end of a playback -/

lemma conclude_after (p : Player) (f : Finish) :
    (p.after h).conclude f = h.before (p.conclude f) := by
  have hrun : (p.after h).run = p.run := rfl
  cases f with
  | completed =>
    simp only [conclude]
    rw [hrun, moveFrom_after, moveIfAllowed_after]
    rfl
  | stopped | failed | halted | cancelled =>
    simp only [conclude]
    rw [hrun, moveIfAllowed_after]
    rfl

lemma measureMemory_after (p : Player) : (p.after h).measureMemory = p.measureMemory.after h := by
  have hhost : (p.after h).host = p.host := rfl
  have hreadings : (p.after h).readings = p.readings := rfl
  unfold measureMemory
  rw [hhost, hreadings]
  cases p.host.measures with
  | false => rfl
  | true =>
    cases p.host.memory with
    | none => rfl
    | some memory =>
      dsimp only
      cases memory p.readings with
      | none => rfl
      | some bytes => simp only [after, Array.push_append]

lemma finish_after (p : Player) (f : Finish) : (p.after h).finish f = h.before (p.finish f) := by
  have hend : ∀ (q : Player) (r : Report),
      ((q.after h).publishEnd r).measureMemory = (q.publishEnd r).measureMemory.after h := by
    intro q r
    have hpublished : (q.after h).publishEnd r = (q.publishEnd r).after h := by
      unfold publishEnd
      split <;> exact publish_after q _ _
    rw [hpublished, measureMemory_after]
  unfold finish
  rw [conclude_after]
  obtain ⟨q, outcome, fault⟩ := p.conclude f
  dsimp only [Past.before]
  have hreport : (q.after h).report outcome fault = q.report outcome fault := rfl
  rw [hreport, hend]
  rfl

/-! ### The loop of a playback -/

variable {id : Nat} {play : Play}

lemma playOn_after (ht : play.token.id ∉ h.cancelled) (p : Player) :
    (p.after h).playOn id play = h.before (p.playOn id play) := by
  have hdeferred : (p.after h).deferred = p.deferred := rfl
  have hstate : (p.after h).state = p.state := rfl
  unfold playOn
  rw [hdeferred, hstate, isCancelled_after ht]
  cases p.deferred with
  | some f => exact finish_after { p with deferred := none } f
  | none =>
    dsimp only
    rw [Past.before_ite]
    refine if_congr Iff.rfl (finish_after p _) ?_
    cases p.state with
    | playing | waiting | paused => rfl
    | idle | loading | stopped | failed | completed => exact finish_after p _

lemma continuePlay_after (ht : play.token.id ∉ h.cancelled) (p : Player) :
    (p.after h).continuePlay id play = h.before (p.continuePlay id play) := by
  unfold continuePlay
  rw [Past.before_ite]
  exact if_congr Iff.rfl rfl (playOn_after ht p)

lemma autosave_after (ht : play.token.id ∉ h.cancelled) (p : Player) :
    (p.after h).autosave id play = h.before (p.autosave id play) := by
  have hdue : (p.after h).autosaveDue play = p.autosaveDue play := rfl
  unfold autosave
  rw [hdue]
  cases p.autosaveDue play with
  | none => exact continuePlay_after ht p
  | some s => rfl

lemma afterLine_after (ht : play.token.id ∉ h.cancelled) (p : Player) (by_ : LineEnd) :
    (p.after h).afterLine id play by_ = h.before (p.afterLine id play by_) := by
  unfold afterLine
  cases by_ with
  | finished f => exact finish_after { p with lineLock := p.lineLock.release } f
  | next =>
    dsimp only
    rw [Past.before_ite]
    exact if_congr Iff.rfl (autosave_after ht { p with lineLock := p.lineLock.release }) rfl

lemma followPlay_after (ht : play.token.id ∉ h.cancelled) (y : Player × LineProgress) :
    followPlay id play (h.before y) = h.before (followPlay id play y) := by
  obtain ⟨q, progress⟩ := y
  cases progress with
  | blocked | goes => rfl
  | ends by_ => exact afterLine_after ht q by_

lemma playLine_after (hold : h.recovery.checkpoint = none) (ht : play.token.id ∉ h.cancelled)
    (p : Player) : (p.after h).playLine id play = h.before (p.playLine id play) := by
  have hcontext : (p.after h).context = p.context := rfl
  have hrun : (p.after h).run = p.run := rfl
  unfold playLine
  have hreleased : ∀ q : Player,
      Player.continuePlay { q.after h with lineLock := (q.after h).lineLock.release } id play =
        h.before (Player.continuePlay { q with lineLock := q.lineLock.release } id play) :=
    fun q => continuePlay_after ht { q with lineLock := q.lineLock.release }
  rw [Past.before_ite, hcontext, hrun]
  refine if_congr Iff.rfl (hreleased p) ?_
  obtain ⟨hit, context⟩ := p.context.takeBreakpoint
  cases hit with
  | some index =>
    have hpublished : { p.after h with context }.publish p.run (.breakpointHit index) =
        ({ p with context }.publish p.run (.breakpointHit index)).after h :=
      publish_after { p with context } _ _
    have hpaused : (({ p.after h with context }.publish p.run (.breakpointHit index)).moveFrom
        p.run .playing .paused).2 =
          (({ p with context }.publish p.run (.breakpointHit index)).moveFrom
            p.run .playing .paused).2.after h := by
      rw [hpublished, moveFrom_after]
    exact (congrArg (fun q : Player =>
      Player.continuePlay { q with lineLock := q.lineLock.release } id play) hpaused).trans
        (hreleased _)
  | none =>
    have hbegun : { p.after h with context }.beginLine play.token =
        h.before ({ p with context }.beginLine play.token) :=
      beginLine_after hold ht { p with context }
    exact (congrArg (followPlay id play) hbegun).trans (followPlay_after ht _)

/-! ### Calls -/

lemma stop_after (p : Player) : (p.after h).stop = p.stop.after h := by
  unfold stop
  rw [apply_ite (after · h)]
  refine if_congr Iff.rfl ?_ rfl
  have hmoved := moveIfAllowed_after (h := h) { p with stopRequested := true } p.run .stopped
  refine (congrArg cancelRun hmoved).trans ?_
  generalize moveIfAllowed { p with stopRequested := true } p.run .stopped = q
  have htoken : (q.after h).token = q.token := rfl
  unfold cancelRun
  rw [htoken]
  cases q.token <;> rfl

/-- A call does what it would do without a past. -/
lemma perform_after (p : Player) (c : Call) : (p.after h).perform c = (p.perform c).after h := by
  have hstate : (p.after h).state = p.state := rfl
  cases c with
  | pause =>
    simp only [perform, pause]
    rw [hstate]
    cases p.state with
    | playing =>
      exact congrArg (fun q : Player => { q with pauseRequested := false })
        (congrArg Prod.snd (moveFrom_after p p.run .playing .paused))
    | idle | loading | paused | waiting | stopped | completed | failed => rfl
  | resume =>
    have hresume : ∀ r : Player, r.perform .resume =
        if r.state = .paused then
          (Player.moveFrom { r with pauseRequested := false } r.run .paused .playing).2
        else { r with pauseRequested := false } := by
      intro r
      simp only [perform, resume]
      split
      · next hpaused => exact (if_pos hpaused).symm
      · next hother => exact (if_neg fun h => State.noConfusion (hother.symm.trans h)).symm
      · next hother => exact (if_neg fun h => State.noConfusion (hother.symm.trans h)).symm
      · next hother _ _ => exact (if_neg hother).symm
    rw [hresume, hresume, apply_ite (after · h)]
    exact if_congr Iff.rfl
      (congrArg Prod.snd (moveFrom_after { p with pauseRequested := false } _ _ _)) rfl
  | stop => exact stop_after p
  | cancel => rfl
  | setSpeed speed =>
    simp only [perform, setSpeed]
    split <;> rfl
  | addBreakpoint | removeBreakpoint | clearBreakpoints => rfl
  | assign name value => exact setVariable_after p _ _ _
  | unassignAll => exact clearVariables_after p _

/-! ### The start of a playback -/

/-- A checkpoint takes the place of an old one. -/
lemma after_unmarked (hp : p.recovery.checkpoint.isSome = true) :
    p.after h = p.after h.unmarked := by
  have hcheckpoint : p.recovery.checkpoint.or h.recovery.checkpoint =
      p.recovery.checkpoint.or none := by
    obtain ⟨s, hs⟩ := Option.isSome_iff_exists.mp hp
    rw [hs]
    rfl
  simp only [after, Recovery.after, hcheckpoint]
  rfl

/-- A playback comes to its lines as it would without a past, and sets the checkpoint. -/
lemma startLines_after (ht : t.id ∉ h.cancelled) (hloaded : p.context.script.isSome = true)
    (id : Nat) (run : Run) (script : String) :
    (p.after h).startLines id t run script = h.unmarked.before (p.startLines id t run script) ∨
      (∃ answer, (p.startLines id t run script).2 = .ends answer) ∧
        (p.after h).startLines id t run script = h.before (p.startLines id t run script) := by
  unfold startLines
  rw [isCancelled_after ht]
  by_cases hcancelled : p.isCancelled t = true
  · refine .inr ?_
    rw [if_pos hcancelled, if_pos hcancelled]
    obtain ⟨r, hends, -⟩ := finish_spec p .cancelled
    exact ⟨⟨_, hends⟩, finish_after p _⟩
  · refine .inl ?_
    rw [if_neg hcancelled, if_neg hcancelled]
    obtain ⟨q, hq⟩ : ∃ q, q = (p.publish run (.scriptStarted script)).setCheckpoint := ⟨_, rfl⟩
    obtain ⟨s, hs, -⟩ :=
      checkpoint_setCheckpoint (p := p.publish run (.scriptStarted script)) hloaded
    have hset : ((p.after h).publish run (.scriptStarted script)).setCheckpoint =
        q.after h.unmarked := by
      rw [publish_after, setCheckpoint_after, ← hq]
      refine after_unmarked ?_
      rw [hq, hs]
      rfl
    have hcontinues : ∀ r : Player,
        (r.after h.unmarked).continuePlay id ⟨t, (r.after h.unmarked).stopwatch⟩ =
          h.unmarked.before (r.continuePlay id ⟨t, r.stopwatch⟩) :=
      fun r => continuePlay_after (h := h.unmarked) ht r
    dsimp only
    rw [hset, ← hq, moveFrom_after, Past.before_ite]
    exact if_congr Iff.rfl (hcontinues _) (finish_after _ _)

/-! ### Steps of a playback -/

lemma write_after (p : Player) (key : String) (s : Snapshot) :
    ((p.after h).write key s).2 = (p.write key s).2.after h := by
  have hstore : (p.after h).store = p.store := rfl
  unfold write
  rw [hstore]
  cases p.store <;> rfl

/-- A playback that has come to its lines makes a step as it would without a past. -/
lemma step_after_of_late (id : Nat) {phase : Phase} (hphase : phase.token? = some t)
    (hlate : phase.isEarly = false) (hline : ∀ line, phase.line? = some line → line.work.token = t)
    (ht : t.id ∉ h.cancelled) (hold : h.recovery.checkpoint = none) (p : Player) :
    ∃ ledger, (p.after h).step id phase = Past.before { h with ledger } (p.step id phase) := by
  have hstate : (p.after h).state = p.state := rfl
  have hnow : (p.after h).now = p.now := rfl
  have hprompt : (p.after h).prompt = p.prompt := rfl
  cases phase with
  | paused play =>
    cases hphase
    refine ⟨h.ledger, ?_⟩
    simp only [step]
    rw [isCancelled_after ht, hstate, hprompt, Past.before_ite, Past.before_ite]
    exact if_congr Iff.rfl (finish_after p _) (if_congr Iff.rfl rfl (playOn_after ht p))
  | playLock play =>
    cases hphase
    refine ⟨h.ledger, ?_⟩
    simp only [step]
    rw [Past.before_ite]
    exact if_congr Iff.rfl (playLine_after hold ht p) rfl
  | playing play line =>
    cases hphase
    have hwork : line.work.token.id ∉ h.cancelled := by
      rw [hline line rfl]
      exact ht
    obtain ⟨ledger, hstep⟩ := stepLine_after hold p hwork
    refine ⟨ledger, ?_⟩
    simp only [step]
    rw [hstep]
    exact followPlay_after (h := { h with ledger }) ht _
  | delaying play until_ =>
    cases hphase
    refine ⟨h.ledger, ?_⟩
    simp only [step]
    rw [isCancelled_after ht, hnow, hprompt, Past.before_ite, Past.before_ite]
    exact if_congr Iff.rfl (finish_after p _) (if_congr Iff.rfl (autosave_after ht p) rfl)
  | autosaving play s =>
    cases hphase
    refine ⟨h.ledger, ?_⟩
    obtain ⟨q, hq⟩ : ∃ q, q = if p.prompt && p.isCancelled play.token then p
      else (p.write p.host.config.pacing.autosaveKey s).2 := ⟨_, rfl⟩
    have hsaved : (if (p.after h).prompt && (p.after h).isCancelled play.token then p.after h
        else ((p.after h).write (p.after h).host.config.pacing.autosaveKey s).2) = q.after h := by
      rw [hq, isCancelled_after ht, hprompt, write_after, apply_ite (after · h)]
      rfl
    simp only [step]
    rw [hsaved, ← hq, measureMemory_after]
    exact continuePlay_after ht _
  | preloading => cases hlate
  | _ => cases hphase

/-- A playback makes a step as it would without a past.  Of the past at most the statistics change,
and the checkpoint, which does not count any more in the lines of the playback. -/
lemma step_after (id : Nat) {phase : Phase} (hphase : phase.token? = some t)
    (hline : ∀ line, phase.line? = some line → line.work.token = t) (ht : t.id ∉ h.cancelled)
    (hloaded : phase.isEarly = true → p.context.script.isSome = true)
    (hold : phase.isEarly = false → h.recovery.checkpoint = none) :
    ∃ g : Past, g.records = h.records ∧ (p.after h).step id phase = g.before (p.step id phase) ∧
      ∀ next, (p.step id phase).2 = .goes next → g.recovery.checkpoint = none := by
  cases hearly : phase.isEarly with
  | false =>
    obtain ⟨ledger, hstep⟩ := step_after_of_late id hphase hearly hline ht (hold hearly) p
    exact ⟨{ h with ledger }, rfl, hstep, fun _ _ => hold hearly⟩
  | true =>
    cases phase with
    | preloading _ run script until_ =>
      cases hphase
      have hnow : (p.after h).now = p.now := rfl
      simp only [step]
      rw [isCancelled_after ht, hnow]
      split
      · rcases startLines_after ht (hloaded rfl) id run script with
          hstarts | ⟨⟨answer, hends⟩, hstarts⟩
        · exact ⟨h.unmarked, rfl, hstarts, fun _ _ => rfl⟩
        · refine ⟨h, rfl, hstarts, fun next hnext => ?_⟩
          rw [hends] at hnext
          cases hnext
      · exact ⟨h, rfl, rfl, fun _ hnext => Progress.noConfusion hnext⟩
    | entering | loading | playGate => cases hphase
    | _ => cases hearly

end Player

end Recital
