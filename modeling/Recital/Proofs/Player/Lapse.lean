import Recital.Proofs.Player.RequestStep

/-!
# Faults that are passed over

A fault about which nothing can be done is a lapse: recovery is disabled or gives up, or a flow
action leads to a target that does not exist, be it the one of the line or that of a recovery.
Whether the next step of a line is a lapse can be said before the step is made
(`Player.lineLapse?`).

If the playback is to go on after faults, a lapse is told by one event, leaves what the playback has
to stand on as it was, and puts the cursor on the next line (`Player.PassesOver`).  Every other step
of a line tells of no lapse, and no line ends the playback with a fault (`Player.Outlasts`).
-/

namespace Recital

/-- The event tells that a line has failed. -/
def Event.Payload.isFailure : Event.Payload → Bool
  | lineFailed .. => true
  | _ => false

lemma Event.Payload.not_isFailure_of_isPlain {e : Event.Payload} (h : e.isPlain = true) :
    e.isFailure = false := by
  cases e <;> first | rfl | cases h

namespace Context

variable {c d : Context} {index : Nat} {flow : Flow}

/-- What a playback has to stand on: the script with its labels, the return addresses, the variables
and the breakpoints. -/
def trunk (c : Context) : Context :=
  { script := c.script, labels := c.labels, frames := c.frames, vars := c.vars
    breakpoints := c.breakpoints }

lemma trunk_unrelease : (c.unrelease index).trunk = c.trunk := by
  unfold unrelease
  split <;> rfl

lemma trunk_lineFinished : (c.lineFinished index).trunk = c.trunk := trunk_unrelease

/-- The fault of a flow action whose target does not exist. -/
def stray? (c : Context) (flow : Flow) : Option Fault :=
  match c.resolve flow with
  | .error fault => some fault
  | .ok _ => none

/-- Targets are looked up in the script. -/
lemma stray?_congr (h : d.trunk = c.trunk) : d.stray? flow = c.stray? flow := by
  have hcount : d.lineCount = c.lineCount :=
    (congrArg lineCount h : d.trunk.lineCount = c.trunk.lineCount)
  have hlabels : d.labels = c.labels :=
    (congrArg Context.labels h : d.trunk.labels = c.trunk.labels)
  have hframes : d.frames = c.frames :=
    (congrArg Context.frames h : d.trunk.frames = c.trunk.frames)
  unfold stray?
  cases flow with
  | toLine index => by_cases h : index < c.lineCount <;> simp [resolve, hcount, h]
  | toLabel label => cases h : c.labels.get? label <;> simp [resolve, hlabels, h]
  | back => cases h : c.frames.getLast? <;> simp [resolve, popFrame, hframes, h]
  | next | stop | call => rfl

end Context

namespace Player

variable {p q r : Player} {w : Work} {j : Job} {f : Flight} {run : Run} {fault : Fault}
  {policy : Policy} {flow : Flow} {c : Context} {o : Option Fault} {x : Player × LineProgress}

/-! ### Lapses -/

/-- The fault of a flow action that cannot be carried out: its target does not exist, or it calls a
script and there is no loader. -/
def flowLapse? (p : Player) (w : Work) (flow : Flow) : Option Fault :=
  match p.context.stray? flow with
  | some fault => some (fault.located w.index w.script)
  | none =>
    match flow with
    | .call script =>
      if p.host.loader.isNone then some ((noLoaderFault script).located w.index w.script) else none
    | _ => none

/-- What is left of a fault that a line has met: nothing can be done about it, or its recovery leads
astray. -/
def unmended? (p : Player) (w : Work) (fault : Fault) (policy : Policy) : Option Fault :=
  if !p.tolerance.recoveryEnabled then some fault
  else
    match (p.recovery.plan fault policy (p.spent.count w.index) p.tolerance.maxRecoveries).1 with
    | .proceed flow => p.flowLapse? w flow
    | .giveUp => some fault
    | _ => none

/-- The lapse of an attempt that has ended. -/
def landingLapse? (p : Player) (j : Job) (verdict : Except Failure CommandResult) : Option Fault :=
  match j.command.conclude verdict with
  | .ok flow => p.flowLapse? j.work flow
  | .error failure =>
    if p.isCancelled j.work.token then none
    else (p.upset? j failure).bind fun x => p.unmended? j.work x.1 x.2

/-- The lapse of a presentation that has ended. -/
def presentedLapse? (p : Player) (w : Work) : Except Failure Unit → Option Fault
  | .ok () => none
  | .error failure =>
    if p.isCancelled w.token then none
    else p.unmended? w (p.unshown w failure).1 (p.unshown w failure).2

/-- The script that is called cannot be had. -/
def fetchLapse? (p : Player) (w : Work) (script : String) : Option Fault :=
  match p.fetch w script with
  | .error fault => some fault
  | .ok _ => none

/-- The lapse of a line in its next step from a phase. -/
def lineLapse? (p : Player) : LinePhase → Option Fault
  | .flying j f => (p.landing j f).bind fun verdict => p.landingLapse? j verdict
  | .resting .. => none
  | .presenting w until_ verdict =>
    if until_ ≤ p.now then p.presentedLapse? w verdict else none
  | .switching w _ script _ => p.fetchLapse? w script

/-- The lapse of a line whose command is not known. -/
def openingLapse? (p : Player) (w : Work) : Line → Option Fault
  | .command _ none => p.unmended? w (p.strange w).1 (p.strange w).2
  | _ => none

lemma flowLapse?_congr (hhost : q.host = p.host) (htrunk : q.context.trunk = p.context.trunk) :
    q.flowLapse? w flow = p.flowLapse? w flow := by
  unfold flowLapse?
  rw [Context.stray?_congr htrunk, hhost]

/-- What can be done about a fault goes by the host, the checkpoint, what was spent on the line, and
the script. -/
lemma unmended?_congr (hhost : q.host = p.host) (hrecovery : q.recovery = p.recovery)
    (hspent : q.spent = p.spent) (htrunk : q.context.trunk = p.context.trunk) :
    q.unmended? w fault policy = p.unmended? w fault policy := by
  unfold unmended? tolerance
  rw [hhost, hrecovery, hspent]
  congr 1
  split <;> first | exact flowLapse?_congr hhost htrunk | rfl

/-! ### What tells of no lapse -/

/-- No line was told to have failed, and the end that is left for the playback is the same. -/
structure TellsNoLapse (p q : Player) : Prop where
  news : ∃ news, (∀ e ∈ news, e.payload.isFailure = false) ∧ q.bus = p.bus.tell news
  host : q.host = p.host
  deferred : q.deferred = p.deferred

namespace TellsNoLapse

lemma of_eq (hbus : q.bus = p.bus) (hhost : q.host = p.host) (hdeferred : q.deferred = p.deferred) :
    TellsNoLapse p q :=
  ⟨⟨[], by simp, hbus⟩, hhost, hdeferred⟩

lemma refl (p : Player) : TellsNoLapse p p := .of_eq rfl rfl rfl

lemma trans (hpq : TellsNoLapse p q) (hqr : TellsNoLapse q r) : TellsNoLapse p r := by
  obtain ⟨news, hnews, hbus⟩ := hpq.news
  obtain ⟨more, hmore, hbus'⟩ := hqr.news
  refine ⟨⟨news ++ more, fun e he => ?_, ?_⟩, hqr.host.trans hpq.host,
    hqr.deferred.trans hpq.deferred⟩
  · exact (List.mem_append.mp he).elim (hnews e) (hmore e)
  · rw [hbus', hbus, Bus.tell_append]

/-- Plain events tell of no lapse. -/
lemma of_tellsPlain (h : TellsPlain run p q) (hcore : q.core = p.core) : TellsNoLapse p q := by
  obtain ⟨news, hnews, hbus⟩ := h.news
  exact ⟨⟨news, fun e he => Event.Payload.not_isFailure_of_isPlain (hnews e he).1, hbus⟩,
    (congrArg Player.host hcore).trans rfl, (congrArg Player.deferred hcore).trans rfl⟩

end TellsNoLapse

lemma tellsNoLapse_publish {e : Event.Payload} (h : e.isFailure = false) :
    TellsNoLapse p (p.publish run e) :=
  ⟨⟨[⟨e, Instant.ofMillis p.now, run⟩], by simpa using h, rfl⟩, rfl, rfl⟩

lemma tellsNoLapse_moveFrom {a b : State} (hab : b.isUnderway = true → a.isUnderway = true) :
    TellsNoLapse p (p.moveFrom run a b).2 := by
  have hplain : TellsPlain run p (p.moveFrom run a b).2 := tellsPlain_moveFrom hab
  exact .of_tellsPlain hplain (congrArg Gist.core (gist_moveFrom p run))

lemma trunk_of_core (h : q.core = p.core) : q.context.trunk = p.context.trunk :=
  (congrArg (fun c : Player => c.context.trunk) h : q.core.context.trunk = p.core.context.trunk)

/-- A change of state leaves the context alone. -/
lemma context_moveFrom {a b : State} : (p.moveFrom run a b).2.context = p.context :=
  congrArg (fun g : Gist => g.core.context) (gist_moveFrom p run)

lemma tellsNoLapse_applyPause :
    TellsNoLapse p (p.applyPause run) ∧ (p.applyPause run).context = p.context := by
  unfold applyPause
  split
  · have hforgotten : TellsNoLapse p { p with pauseRequested := false } := .of_eq rfl rfl rfl
    exact ⟨hforgotten.trans (tellsNoLapse_moveFrom fun _ => rfl),
      context_moveFrom (p := { p with pauseRequested := false })⟩
  · exact ⟨.refl p, rfl⟩

lemma tellsNoLapse_leaveWaiting : TellsNoLapse p (p.leaveWaiting j) := by
  unfold leaveWaiting
  split
  · exact tellsNoLapse_moveFrom fun _ => rfl
  · exact .refl p

lemma tellsNoLapse_recordAttempt {result : Except Failure Flow} :
    TellsNoLapse p (p.recordAttempt j f result) := by
  obtain ⟨-, -, hbus⟩ := p.recordAttempt_spec j f result
  have hcore : (p.recordAttempt j f result).core = p.core :=
    congrArg Gist.core (gist_recordAttempt p j f)
  exact ⟨⟨_, by simp [Event.Payload.isFailure], hbus⟩, (congrArg Player.host hcore).trans rfl,
    (congrArg Player.deferred hcore).trans rfl⟩

lemma tellsNoLapse_setVariable {name : String} {value : Json} :
    TellsNoLapse p (p.setVariable run name value) := by
  have hassigned : TellsNoLapse p { p with context := p.context.assign name value } :=
    .of_eq rfl rfl rfl
  exact hassigned.trans (tellsNoLapse_publish (e := .variableChanged name (some value)) rfl)

lemma tellsNoLapse_applyEffect {e : Effect} : TellsNoLapse p (p.applyEffect w e) := by
  cases e with
  | assign | observe => exact tellsNoLapse_setVariable
  | clear =>
    have hcore := congrArg Gist.core (gist_clearVariables p w.run)
    refine ⟨⟨_, fun e he => ?_, bus_foldl_publish _ _⟩, (congrArg Player.host hcore).trans rfl,
      (congrArg Player.deferred hcore).trans rfl⟩
    obtain ⟨name, -, rfl⟩ := List.mem_map.mp he
    rfl
  | push | note => exact .of_eq rfl rfl rfl

lemma tellsNoLapse_foldl_applyEffect {effects : List Effect} :
    TellsNoLapse p (effects.foldl (fun p e => p.applyEffect w e) p) := by
  induction effects generalizing p with
  | nil => exact .refl p
  | cons e effects ih => exact tellsNoLapse_applyEffect.trans ih

/-! ### What becomes of a lapse -/

/-- A line was told to have failed, once.  What the playback has to stand on is the same as in the
given context, and the cursor is on the next line. -/
structure PassesOver (w : Work) (c : Context) (fault : Fault) (p q : Player) : Prop where
  news : ∃ before after at_, (∀ e ∈ before ++ after, e.payload.isFailure = false) ∧
    q.bus = p.bus.tell (before ++ ⟨.lineFailed w.index fault, at_, w.run⟩ :: after)
  host : q.host = p.host
  deferred : q.deferred = p.deferred
  trunk : q.context.trunk = c.trunk
  cursor : q.context.cursor = w.index + 1

namespace PassesOver

/-- Something else may come first. -/
lemma after (h : PassesOver w c fault q r) (hpq : TellsNoLapse p q) : PassesOver w c fault p r := by
  obtain ⟨news, hnews, hbus⟩ := hpq.news
  obtain ⟨before, after, at_, hrest, hbus'⟩ := h.news
  refine ⟨⟨news ++ before, after, at_, fun e he => ?_, ?_⟩, h.host.trans hpq.host,
    h.deferred.trans hpq.deferred, h.trunk, h.cursor⟩
  · rw [List.append_assoc] at he
    exact (List.mem_append.mp he).elim (hnews e) (hrest e)
  · rw [hbus', hbus, ← Bus.tell_append, List.append_assoc]

/-- Something else may follow that leaves the context alone. -/
lemma before (h : PassesOver w c fault p q) (hnews : ∃ news,
      (∀ e ∈ news, e.payload.isFailure = false) ∧ r.bus = q.bus.tell news)
    (hhost : r.host = q.host) (hdeferred : r.deferred = q.deferred)
    (hcontext : r.context.trunk = q.context.trunk ∧ r.context.cursor = q.context.cursor) :
    PassesOver w c fault p r := by
  obtain ⟨news, hnews, hbus⟩ := hnews
  obtain ⟨before, after, at_, hrest, hbus'⟩ := h.news
  refine ⟨⟨before, after ++ news, at_, fun e he => ?_, ?_⟩, hhost.trans h.host,
    hdeferred.trans h.deferred, hcontext.1.trans h.trunk, hcontext.2.trans h.cursor⟩
  · rw [← List.append_assoc] at he
    exact (List.mem_append.mp he).elim (hrest e) (hnews e)
  · rw [hbus, hbus', ← Bus.tell_append, List.append_assoc, List.cons_append]

end PassesOver

/-- What becomes of a line: it tells of no lapse, and it does not end the playback with a fault; or
it is passed over. -/
inductive Outlasts (w : Work) (c : Context) (p : Player) :
    Option Fault → Player × LineProgress → Prop
  | fares {x : Player × LineProgress} (hx : TellsNoLapse p x.1)
    (hends : ∀ fault index, x.2 ≠ .ends (.finished (.failed fault index))) :
    Outlasts w c p none x
  | lapses {q : Player} {fault : Fault} (hq : PassesOver w c fault p q) :
    Outlasts w c p (some fault) (q, .ends .next)

/-- Something else may come first. -/
lemma Outlasts.after (h : Outlasts w c q o x) (hpq : TellsNoLapse p q) : Outlasts w c p o x := by
  cases h with
  | fares hx hends => exact .fares (hpq.trans hx) hends
  | lapses hq => exact .lapses (hq.after hpq)

lemma outlasts_goes {line : LinePhase} (h : TellsNoLapse p q) :
    Outlasts w c p none (q, .goes line) :=
  .fares h fun _ _ hends => LineProgress.noConfusion hends

lemma outlasts_cancelled (h : TellsNoLapse p q) :
    Outlasts w c p none (q, .ends (.finished .cancelled)) :=
  .fares h fun _ _ hends => by cases hends

/-- The end of a line. -/
lemma tellsNoLapse_closeLine {by_ : LineEnd} :
    TellsNoLapse p (p.closeLine w by_).1 ∧ (p.closeLine w by_).1.context = p.context := by
  have hprogress : TellsNoLapse p p.publishProgress := tellsNoLapse_publish rfl
  obtain ⟨hpaused, hcontext⟩ :
      TellsNoLapse p.publishProgress (p.publishProgress.applyPause w.run) ∧
        (p.publishProgress.applyPause w.run).context = p.publishProgress.context :=
    tellsNoLapse_applyPause
  exact ⟨hprogress.trans hpaused, hcontext⟩

lemma outlasts_closeLine {by_ : LineEnd}
    (hends : ∀ fault index, by_ ≠ .finished (.failed fault index)) :
    Outlasts w c p none (p.closeLine w by_) :=
  .fares tellsNoLapse_closeLine.1 fun fault index h => hends fault index (LineProgress.ends.inj h)

/-- A fault about which nothing can be done is passed over. -/
lemma outlasts_closeFailed (hgoes : p.tolerance.continueOnError = true)
    (htrunk : p.context.trunk = c.trunk) : Outlasts w c p (some fault) (p.closeFailed w fault) := by
  obtain ⟨q, hq⟩ : ∃ q, q = { p with
      spent := p.spent.forget w.index
      bus := p.bus.publish ⟨.lineFailed w.index fault, Instant.ofMillis p.now, w.run⟩
      context := (p.context.lineFinished w.index).moveTo (w.index + 1) } := ⟨_, rfl⟩
  have hpassed : PassesOver w c fault p q := by
    rw [hq]
    refine ⟨⟨[], [], Instant.ofMillis p.now, by simp, rfl⟩, rfl, rfl, ?_, rfl⟩
    exact (Context.trunk_lineFinished (c := p.context)).trans htrunk
  have hpass : p.passOver w fault = (q, .next) := by
    rw [hq]
    exact if_pos hgoes
  have hclose : p.closeFailed w fault = q.closeLine w .next := by
    unfold closeFailed
    rw [hpass]
  obtain ⟨hclosed, hcontext⟩ :
      TellsNoLapse q (q.closeLine w .next).1 ∧ (q.closeLine w .next).1.context = q.context :=
    tellsNoLapse_closeLine
  rw [hclose]
  exact .lapses (hpassed.before hclosed.news hclosed.host hclosed.deferred
    ⟨congrArg Context.trunk hcontext, congrArg Context.cursor hcontext⟩)

lemma outlasts_closeDone {recovered : Bool} {by_ : LineEnd}
    (hends : ∀ fault index, by_ ≠ .finished (.failed fault index)) :
    Outlasts w c p none (p.closeDone w recovered by_) := by
  unfold closeDone
  refine (outlasts_closeLine hends).after ?_
  split
  · exact .of_eq rfl rfl rfl
  · exact .refl p

/-! ### Flow actions -/

lemma outlasts_applyFlow {recovered : Bool} (hgoes : p.tolerance.continueOnError = true)
    (htrunk : p.context.trunk = c.trunk) :
    Outlasts w c p (p.flowLapse? w flow) (p.applyFlow w flow recovered) := by
  unfold applyFlow flowLapse? Context.stray?
  cases hresolve : p.context.resolve flow with
  | error fault => exact outlasts_closeFailed hgoes htrunk
  | ok resolved =>
    obtain ⟨resolution, context⟩ := resolved
    have hmoved : ∀ context, TellsNoLapse p { p with context } := fun _ => .of_eq rfl rfl rfl
    have hcall : ∀ script, flow = .call script ↔ resolution = .call script := by
      intro script
      cases flow <;> simp only [Context.resolve] at hresolve <;> (try split at hresolve) <;>
        cases hresolve <;> simp
    have hnone : (∀ script, resolution ≠ .call script) → (match flow with
        | .call script => if p.host.loader.isNone then
          some ((noLoaderFault script).located w.index w.script) else none
        | _ => none) = none := by
      intro hnot
      split
      · next script => exact absurd ((hcall script).mp rfl) (hnot script)
      · rfl
    dsimp only
    cases resolution with
    | call script =>
      obtain rfl := (hcall script).mpr rfl
      cases hresolve
      dsimp only
      cases hload : p.host.loader with
      | none => exact outlasts_closeFailed hgoes htrunk
      | some load => exact outlasts_goes (.of_eq rfl rfl rfl)
    | advance | jumped | returned | stop | completed =>
      rw [hnone fun _ h => by cases h]
      exact (outlasts_closeDone fun _ _ h => by cases h).after (hmoved _)

/-- A line that was executed is told, whether its flow action can be carried out or not. -/
lemma outlasts_finishLine {recovered : Bool} (hgoes : p.tolerance.continueOnError = true)
    (htrunk : p.context.trunk = c.trunk) :
    Outlasts w c p (p.flowLapse? w flow) (p.finishLine w flow recovered) := by
  obtain ⟨q, hq⟩ : ∃ q, q = { p with
      context := p.context.recordLine.lineFinished w.index
      spent := p.spent.forget w.index }.publish w.run (.lineExecuted w.index w.source) := ⟨_, rfl⟩
  have hexecuted : TellsNoLapse p q := by
    have hcounted : TellsNoLapse p { p with
        context := p.context.recordLine.lineFinished w.index
        spent := p.spent.forget w.index } := .of_eq rfl rfl rfl
    rw [hq]
    exact hcounted.trans (tellsNoLapse_publish (e := .lineExecuted w.index w.source) rfl)
  have hkept : q.context.trunk = p.context.trunk := by
    rw [hq]
    exact Context.trunk_lineFinished (c := p.context.recordLine)
  have hfinish : p.finishLine w flow recovered = q.applyFlow w flow recovered := by
    rw [hq]
    rfl
  have hgoes' : q.tolerance.continueOnError = true := by
    unfold tolerance
    rw [hexecuted.host]
    exact hgoes
  rw [hfinish, ← flowLapse?_congr hexecuted.host hkept]
  exact (outlasts_applyFlow hgoes' (hkept.trans htrunk)).after hexecuted

/-- A line that goes on with the next one is no lapse. -/
lemma outlasts_finishNext (hgoes : p.tolerance.continueOnError = true)
    (htrunk : p.context.trunk = c.trunk) : Outlasts w c p none (p.finishLine w .next false) := by
  have hfinished : Outlasts w c p (p.flowLapse? w .next) (p.finishLine w .next false) :=
    outlasts_finishLine hgoes htrunk
  exact hfinished

/-- A call continues in a script, unless the script cannot be had. -/
lemma outlasts_switchScript {caller : Run} {script : String} {recovered : Bool}
    (hgoes : p.tolerance.continueOnError = true) (htrunk : p.context.trunk = c.trunk) :
    Outlasts w c p (p.fetchLapse? w script) (p.switchScript w caller script recovered) := by
  unfold switchScript fetchLapse?
  cases p.fetch w script with
  | error fault => exact outlasts_closeFailed hgoes htrunk
  | ok found =>
    obtain ⟨s, labels⟩ := found
    dsimp only
    refine (outlasts_closeDone fun _ _ h => by cases h).after ?_
    obtain ⟨q, hq⟩ : ∃ q, q = { p with
        context := p.context.switchTo s labels, attempts := {} }.setCheckpoint := ⟨_, rfl⟩
    have hset : TellsNoLapse p q := by
      rw [hq]
      unfold setCheckpoint
      split <;> exact .of_eq rfl rfl rfl
    obtain ⟨e, he⟩ : ∃ e, e = { q with
        spent := {}, run := caller.child q.serial, serial := q.serial + 1 } := ⟨_, rfl⟩
    have hentered : TellsNoLapse q e := he ▸ .of_eq rfl rfl rfl
    have htold : TellsNoLapse e (e.publish e.run (.scriptStarted script)) :=
      tellsNoLapse_publish (e := .scriptStarted script) rfl
    have heq : p.enter caller script s labels = e.publish e.run (.scriptStarted script) := by
      rw [he, hq]
      rfl
    rw [heq]
    exact (hset.trans hentered).trans htold

/-! ### Recovery -/

lemma outlasts_handleFault (hgoes : p.tolerance.continueOnError = true)
    (htrunk : p.context.trunk = c.trunk) :
    Outlasts w c p (p.unmended? w fault policy) (p.handleFault w fault policy) := by
  unfold handleFault unmended?
  cases hdisabled : !p.tolerance.recoveryEnabled with
  | true => exact outlasts_closeFailed hgoes htrunk
  | false =>
    rw [if_neg Bool.false_ne_true, if_neg Bool.false_ne_true]
    generalize p.recovery.plan fault policy (p.spent.count w.index) p.tolerance.maxRecoveries =
      planned
    obtain ⟨plan, recovery⟩ := planned
    have hplanned : ∀ (spent : Tally) (context : Context) (recovery : Recovery),
        TellsNoLapse p { p with spent, context, recovery } := fun _ _ _ => .of_eq rfl rfl rfl
    have hcontinues : { p with recovery }.tolerance.continueOnError = true := hgoes
    dsimp only
    cases plan with
    | proceed flow =>
      have hfinished : Outlasts w c { p with recovery } (p.flowLapse? w flow)
          ({ p with recovery }.finishLine w flow true) :=
        outlasts_finishLine (p := { p with recovery }) hcontinues htrunk
      exact hfinished.after (.of_eq rfl rfl rfl)
    | again | rollback | halt =>
      exact (outlasts_closeLine fun _ _ h => by cases h).after (hplanned _ _ _)
    | giveUp =>
      have hfailed : Outlasts w c { p with recovery } (some fault)
          ({ p with recovery }.closeFailed w fault) :=
        outlasts_closeFailed (p := { p with recovery }) hcontinues htrunk
      exact hfailed.after (.of_eq rfl rfl rfl)

/-! ### Commands -/

lemma outlasts_launch : Outlasts w c p none (p.launch j) := by
  have htold : TellsNoLapse p
      (p.publish j.work.run (.commandExecuting j.work.index j.command.type)) :=
        tellsNoLapse_publish rfl
  unfold launch
  dsimp only
  split
  · exact outlasts_goes htold
  · refine outlasts_goes (htold.trans (TellsNoLapse.trans ?_ tellsNoLapse_foldl_applyEffect))
    unfold countAttempt
    split
    · exact .of_eq rfl rfl rfl
    · exact .refl _

/-- A failed attempt is followed by another one, or its fault is handled. -/
lemma outlasts_attemptFailed {failure : Failure} (hgoes : p.tolerance.continueOnError = true)
    (htrunk : p.context.trunk = c.trunk) :
    Outlasts j.work c p ((p.upset? j failure).bind fun x => p.unmended? j.work x.1 x.2)
      (p.attemptFailed j failure) := by
  rw [attemptFailed_eq]
  cases p.upset? j failure with
  | none =>
    obtain ⟨q, hq⟩ : ∃ q, q = (p.backoff (p.host.policy j.command.type) j.attempt).2 := ⟨_, rfl⟩
    have hdrawn : TellsNoLapse p q := by
      rw [hq]
      unfold backoff
      split <;> exact .of_eq rfl rfl rfl
    dsimp only
    rw [← hq]
    exact outlasts_goes (hdrawn.trans (tellsNoLapse_publish rfl))
  | some x =>
    obtain ⟨fault, policy⟩ := x
    have hleft : TellsNoLapse p (p.leaveWaiting j) := tellsNoLapse_leaveWaiting
    have hcore := core_leaveWaiting (p := p) (j := j)
    have hcontext : (p.leaveWaiting j).context.trunk = p.context.trunk := trunk_of_core hcore
    have hsame : (p.leaveWaiting j).unmended? j.work fault policy =
        p.unmended? j.work fault policy :=
      unmended?_congr hleft.host ((congrArg Player.recovery hcore).trans rfl)
        ((congrArg Player.spent hcore).trans rfl) hcontext
    have hgoes' : (p.leaveWaiting j).tolerance.continueOnError = true := by
      unfold tolerance
      rw [hleft.host]
      exact hgoes
    rw [Option.bind_some, ← hsame]
    exact (outlasts_handleFault hgoes' (hcontext.trans htrunk)).after hleft

lemma outlasts_land {verdict : Except Failure CommandResult}
    (hgoes : p.tolerance.continueOnError = true) :
    Outlasts j.work p.context p (p.landingLapse? j verdict) (p.land j f verdict) := by
  obtain ⟨q, hq⟩ : ∃ q, q = p.recordAttempt j f (j.command.conclude verdict) := ⟨_, rfl⟩
  obtain ⟨r, hr⟩ : ∃ r, r = { q with context := q.context.recordCommand } := ⟨_, rfl⟩
  have hcore : q.core = p.core := by
    rw [hq]
    exact congrArg Gist.core (gist_recordAttempt p j f)
  have hrecorded : TellsNoLapse p q := hq ▸ tellsNoLapse_recordAttempt
  have hcounted : TellsNoLapse p r := hrecorded.trans (hr ▸ .of_eq rfl rfl rfl)
  have htrunk : r.context.trunk = p.context.trunk := by
    rw [hr]
    exact (trunk_of_core hcore : q.context.trunk = p.context.trunk)
  have hgoes' : r.tolerance.continueOnError = true := by
    unfold tolerance
    rw [hcounted.host]
    exact hgoes
  have hcancelled : q.isCancelled j.work.token = p.isCancelled j.work.token := by
    have hlist : q.cancelled = p.cancelled := (congrArg Player.cancelled hcore).trans rfl
    have hcaller : q.callerCancelled = p.callerCancelled :=
      (congrArg Player.callerCancelled hcore).trans rfl
    simp only [isCancelled, hlist, hcaller]
  unfold land landingLapse?
  dsimp only
  rw [← hq, ← hr]
  cases j.command.conclude verdict with
  | ok flow =>
    have hleft : TellsNoLapse r (r.leaveWaiting j) := tellsNoLapse_leaveWaiting
    have hsame : (r.leaveWaiting j).context.trunk = r.context.trunk :=
      trunk_of_core core_leaveWaiting
    have hcontinues : (r.leaveWaiting j).tolerance.continueOnError = true := by
      unfold tolerance
      rw [hleft.host]
      exact hgoes'
    dsimp only
    rw [← flowLapse?_congr (hleft.host.trans hcounted.host) (hsame.trans htrunk)]
    exact (outlasts_finishLine hcontinues (hsame.trans htrunk)).after (hcounted.trans hleft)
  | error failure =>
    dsimp only
    rw [hcancelled]
    split
    · exact outlasts_cancelled (hrecorded.trans tellsNoLapse_leaveWaiting)
    · have hupset : p.upset? j failure = r.upset? j failure := (upset?_congr hcounted.host).symm
      have hsame : ∀ fault policy, p.unmended? j.work fault policy =
          r.unmended? j.work fault policy := fun fault policy =>
        (unmended?_congr hcounted.host
          (by rw [hr]; exact (congrArg Player.recovery hcore).trans rfl)
          (by rw [hr]; exact (congrArg Player.spent hcore).trans rfl) htrunk).symm
      simp only [hupset, hsame]
      exact (outlasts_attemptFailed hgoes' htrunk).after hcounted

/-! ### The beginning of a line, and its phases -/

lemma outlasts_beginText {text : String} (hgoes : p.tolerance.continueOnError = true)
    (htrunk : p.context.trunk = c.trunk) : Outlasts w c p none (p.beginText w text) := by
  unfold beginText
  split
  · split
    · exact outlasts_cancelled (.refl p)
    · exact outlasts_goes (.of_eq rfl rfl rfl)
  · exact outlasts_finishNext hgoes htrunk

lemma outlasts_beginCommand {source : String} {command : Option Command}
    (hgoes : p.tolerance.continueOnError = true) (htrunk : p.context.trunk = c.trunk) :
    Outlasts w c p (p.openingLapse? w (.command source command)) (p.beginCommand w command) := by
  cases command with
  | none => exact outlasts_handleFault hgoes htrunk
  | some command =>
    have hentered : TellsNoLapse p (p.moveFrom w.run .playing .waiting).2 :=
      tellsNoLapse_moveFrom fun _ => rfl
    exact outlasts_launch.after hentered

lemma outlasts_presented {verdict : Except Failure Unit}
    (hgoes : p.tolerance.continueOnError = true) :
    Outlasts w p.context p (p.presentedLapse? w verdict) (p.presented w verdict) := by
  unfold presented presentedLapse?
  cases verdict with
  | ok => exact outlasts_finishNext hgoes rfl
  | error failure =>
    dsimp only
    split
    · exact outlasts_cancelled (.refl p)
    · exact outlasts_handleFault hgoes rfl

/-- The lapse of the line under the cursor when it is begun. -/
def lapseAtOnce? (p : Player) (token : Token) : Option Fault :=
  p.context.currentLine.bind fun line => p.openingLapse? (p.nextWork token line) line

/-- A line that is begun. -/
lemma outlasts_beginLine {token : Token} (hgoes : p.tolerance.continueOnError = true)
    (hsettled : p.context.settleCursor = c) :
    ∃ w : Work, w.index = c.cursor ∧
      Outlasts w c p ({ p with context := c }.lapseAtOnce? token) (p.beginLine token) := by
  obtain ⟨q, hq⟩ : ∃ q, q = { p with context := c } := ⟨_, rfl⟩
  have hput : TellsNoLapse p q := hq ▸ .of_eq rfl rfl rfl
  unfold lapseAtOnce?
  rw [← hq]
  cases hline : c.currentLine with
  | none =>
    have hbegin : p.beginLine token = (q, .ends (.finished .completed)) := by
      simp only [beginLine, hsettled, ← hq, hline]
    rw [hbegin, show q.context.currentLine = none from hq ▸ hline]
    exact ⟨p.nextWork token (.text "") |> fun w => { w with index := c.cursor }, rfl,
      .fares hput fun _ _ h => by cases h⟩
  | some line =>
    obtain ⟨w, hw⟩ : ∃ w, w = q.nextWork token line := ⟨_, rfl⟩
    obtain ⟨r, hr⟩ : ∃ r, r = q.publish w.run (.lineExecuting w.index w.source) := ⟨_, rfl⟩
    have hbegun : TellsNoLapse p r := hput.trans (hr ▸ tellsNoLapse_publish rfl)
    have hgoes' : r.tolerance.continueOnError = true := by
      unfold tolerance
      rw [hbegun.host]
      exact hgoes
    have htrunk : r.context.trunk = c.trunk := by rw [hr, hq]; rfl
    have hlapse : (q.context.currentLine.bind fun line =>
        q.openingLapse? (q.nextWork token line) line) = r.openingLapse? w line := by
      rw [show q.context.currentLine = some line from hq ▸ hline, Option.bind_some, ← hw]
      cases line with
      | text => rfl
      | command source command =>
        cases command with
        | some => rfl
        | none =>
          have hstrange : r.strange w = q.strange w := by rw [hr]; rfl
          have hsame : r.unmended? w (q.strange w).1 (q.strange w).2 =
              q.unmended? w (q.strange w).1 (q.strange w).2 :=
            unmended?_congr (hr ▸ rfl) (hr ▸ rfl) (hr ▸ rfl) (hr ▸ rfl)
          simp only [openingLapse?, hstrange, hsame]
    rw [hlapse]
    refine ⟨w, by rw [hw, hq]; rfl, ?_⟩
    rw [beginLine_eq (hsettled ▸ hq) hw hr (hsettled ▸ hline)]
    cases line with
    | command source command => exact (outlasts_beginCommand hgoes' htrunk).after hbegun
    | text text => exact (outlasts_beginText hgoes' htrunk).after hbegun

/-- A line goes on from a phase. -/
lemma outlasts_stepLine {line : LinePhase} (hgoes : p.tolerance.continueOnError = true)
    (hready : (p.stepLine line).2 ≠ .blocked) :
    Outlasts line.work p.context p (p.lineLapse? line) (p.stepLine line) := by
  cases line with
  | flying j f =>
    simp only [stepLine, lineLapse?] at hready ⊢
    cases hlanding : p.landing j f with
    | none =>
      rw [hlanding] at hready
      exact absurd rfl hready
    | some verdict => exact outlasts_land hgoes
  | resting j until_ =>
    simp only [stepLine, lineLapse?] at hready ⊢
    split
    · exact outlasts_cancelled tellsNoLapse_leaveWaiting
    · next hgoing =>
      rw [if_neg hgoing] at hready
      split
      · exact outlasts_launch
      · next hwaits =>
        rw [if_neg hwaits] at hready
        exact absurd rfl hready
  | presenting w until_ verdict =>
    simp only [stepLine, lineLapse?] at hready ⊢
    by_cases hcut : (p.isCancelled w.token && (p.prompt || decide (p.now < until_))) = true
    · have hcancelled : p.isCancelled w.token = true := (Bool.and_eq_true_iff.mp hcut).1
      have hnone : p.presentedLapse? w verdict = none := by
        cases verdict with
        | ok => rfl
        | error failure => simp [presentedLapse?, hcancelled]
      rw [if_pos hcut, hnone, ite_self]
      exact outlasts_cancelled (.refl p)
    · rw [if_neg hcut] at hready ⊢
      by_cases hover : until_ ≤ p.now
      · rw [if_pos hover, if_pos hover]
        exact outlasts_presented hgoes
      · rw [if_neg hover] at hready
        exact absurd rfl hready
  | switching w caller script recovered => exact outlasts_switchScript hgoes rfl

end Player

end Recital
