import Recital.Proofs.Player.Round

/-!
# The lines of an undisturbed playback

Each phase of a line is described by what it leads to: a property `Q` of the playback is inevitable
in a phase if it is inevitable in the phases that can follow.  A line begins at the head of the loop
and ends by coming round to it (`Returned`) or with a report (`Reported`); in between, an attempt
ends, another one is made, a text is shown or a script is loaded, each whenever its time has come.
-/

namespace Recital

/-- What an effect of a command on a line of a script does to the context. -/
def Context.affect (c : Context) (line : Nat) (script : String) : Effect → Context
  | .assign name value => c.assign name value
  | .observe name look => c.assign name (look (c.view line script))
  | .clear => c.clearVariables
  | .push line => c.pushFrame ⟨line⟩
  | .note _ => c

/-- Where a resolved flow action leaves the playback, if it goes on in the script. -/
def Context.Resolution.goesTo? (context : Context) : Context.Resolution → Option Context
  | .advance => some context.advance
  | .jumped _ => some context
  | .returned _ => some context
  | _ => none

/-- The end that a resolved flow action comes to. -/
def Context.Resolution.finish? : Context.Resolution → Option Finish
  | .stop reason => some (.stopped reason)
  | .completed => some .completed
  | _ => none

/-- The fault that a failed attempt of a command is. -/
def Job.fault (j : Job) (failure : Failure) (policy : Policy) : Fault :=
  { (failure.classify j.command.type policy).located j.work.index j.work.script with
    attempts := j.attempt }

namespace Player

variable {id : Nat} {play : Play} {p q : Player} {w : Work} {j : Job} {f : Flight} {token : Token}
  {Q : Player × Progress → Prop}

/-- However a line of the playback goes on, `Q` is inevitable within the round. -/
def Leads (id : Nat) (play : Play) (Q : Player × Progress → Prop) (x : Player × LineProgress) :
    Prop :=
  Inevitably (AdvancesWithin id) Q (followPlay id play x)

/-- Only the gist decides whether a playback has come round from a player. -/
lemma Returned.of_gist {c : Player × Progress} (h : Returned id token q c)
    (hgist : q.gist = p.gist) : Returned id token p c := by
  obtain ⟨r, play', recovery, hc, htoken, hr, hrecovery⟩ := h
  have hcore : q.core = p.core := congrArg Gist.core hgist
  have hcontext : q.context = p.context := (congrArg Player.context hcore).trans rfl
  have hprec : q.recovery = p.recovery := (congrArg Player.recovery hcore).trans rfl
  rw [hgist, hcore] at hr
  rw [hcontext, hprec] at hrecovery
  exact ⟨r, play', recovery, hc, htoken, hr, hrecovery⟩

/-- Only the gist decides what is reported of a player. -/
lemma Reported.of_gist {finish : Finish} {c : Player × Progress} {r : Report}
    (h : Reported q finish c r) (hgist : q.gist = p.gist) : Reported p finish c r := by
  have hcontext : q.context = p.context := congrArg (fun g : Gist => g.core.context) hgist
  have hcourse : q.bus.course = p.bus.course := congrArg Gist.course hgist
  exact
    { progress := h.progress
      context := h.context.trans hcontext
      course := h.course.trans hcourse
      outcome := h.outcome
      line := h.line
      scriptName := by rw [← hcontext]; exact h.scriptName
      lines := by rw [← hcontext]; exact h.lines
      commands := by rw [← hcontext]; exact h.commands }

/-! ### The end of a line -/

/-- A line that has ended and does not end the playback leads round. -/
lemma leads_closeLine (hp : Undisturbed id play.token p) (hstate : p.state = .playing)
    (h : ∀ c, Returned id play.token p c → Q c) : Leads id play Q (p.closeLine w .next) := by
  obtain ⟨q, hq⟩ : ∃ q, q = (p.closeLine w .next).1 := ⟨_, rfl⟩
  have hgist : q.gist = p.gist := by rw [hq, gist_closeLine _ _ hp.pause]
  have hcore : q.core = p.core := congrArg Gist.core hgist
  have hqp : Undisturbed id play.token q := hp.of_core hcore
  have hqstate : q.state = .playing := (congrArg Gist.state hgist).trans hstate
  have hclose : p.closeLine w .next = (q, .ends .next) := by rw [hq]; rfl
  rw [hclose]
  exact (inevitably_afterLine hqp hqstate).mono fun c hc => h c (hc.of_gist hgist)

/-- A line that ends the playback leads to the report. -/
lemma leads_ends {finish : Finish} (hfinish : finish ≠ .cancelled)
    (h : ∀ c r, Reported p finish c r → Q c) :
    Leads id play Q (p, .ends (.finished finish)) := by
  obtain ⟨r, hr⟩ := exists_reported_afterLine (p := p) id play hfinish
  exact .here (h _ r hr)

/-- A line that has ended and ends the playback leads to the report. -/
lemma leads_closeLine_finished {finish : Finish} (hfinish : finish ≠ .cancelled)
    (hpause : p.pauseRequested = false) (h : ∀ c r, Reported p finish c r → Q c) :
    Leads id play Q (p.closeLine w (.finished finish)) := by
  obtain ⟨q, hq⟩ : ∃ q, q = (p.closeLine w (.finished finish)).1 := ⟨_, rfl⟩
  have hgist : q.gist = p.gist := by rw [hq, gist_closeLine _ _ hpause]
  have hclose : p.closeLine w (.finished finish) = (q, .ends (.finished finish)) := by rw [hq]; rfl
  rw [hclose]
  exact leads_ends hfinish fun c r hr => h c r (hr.of_gist hgist)

/-- A line that is given up ends the playback, unless faults are passed over. -/
lemma leads_closeFailed {fault : Fault} (hp : Undisturbed id play.token p)
    (hstate : p.state = .playing)
    (hpass : p.tolerance.continueOnError = true → ∀ q c,
      q.gist = { p with
        spent := p.spent.forget w.index
        context := (p.context.lineFinished w.index).moveTo (w.index + 1) }.gist →
      Returned id play.token q c → Q c)
    (hfail : p.tolerance.continueOnError = false → ∀ c r,
      Reported p (.failed fault w.index) c r → Q c) :
    Leads id play Q (p.closeFailed w fault) := by
  obtain ⟨q, hq⟩ : ∃ q, q = { p with spent := p.spent.forget w.index } := ⟨_, rfl⟩
  have htolerance : q.tolerance = p.tolerance := by rw [hq]; rfl
  have hpublish := gist_publish q w.run (e := .lineFailed w.index fault) rfl
  obtain ⟨r, hr⟩ : ∃ r, r = q.publish w.run (.lineFailed w.index fault) := ⟨_, rfl⟩
  rw [← hr] at hpublish
  have hcore : r.core = q.core := congrArg Gist.core hpublish
  have hcontext : r.context = p.context := by
    refine (congrArg Player.context hcore).trans ?_
    rw [hq]
    rfl
  have hclose : p.closeFailed w fault =
      if p.tolerance.continueOnError then
        { r with context := (p.context.lineFinished w.index).moveTo (w.index + 1) }.closeLine w
          .next
      else q.closeLine w (.finished (.failed fault w.index)) := by
    simp only [closeFailed, passOver, ← hq, ← hr, htolerance, hcontext]
    split <;> rfl
  rw [hclose]
  split
  · next hpassed =>
    have hgist : { r with
          context := (p.context.lineFinished w.index).moveTo (w.index + 1) }.gist =
        { r.gist with core := { r.core with
          context := (p.context.lineFinished w.index).moveTo (w.index + 1) } } := rfl
    rw [hpublish, hcore, hq] at hgist
    have hstate' : r.state = .playing := by
      refine (congrArg Gist.state hpublish).trans ?_
      rw [hq]
      exact hstate
    refine leads_closeLine ?_ hstate' fun c hc => hpass hpassed _ c hgist hc
    exact hp.of_core (congrArg Gist.core hgist)
  · next hstop =>
    have hpause : q.pauseRequested = false := by rw [hq]; exact hp.pause
    refine leads_closeLine_finished Finish.noConfusion hpause fun c r hr => ?_
    refine hfail (Bool.eq_false_iff.mpr hstop) c r ?_
    rw [hq] at hr
    exact ⟨hr.progress, hr.context, hr.course, hr.outcome, hr.line, hr.scriptName, hr.lines,
      hr.commands⟩

/-- The remedy that a line was done by counts as carried out. -/
lemma leads_closeDone {recovered : Bool} (hp : Undisturbed id play.token p)
    (hstate : p.state = .playing)
    (h : ∀ c, Returned id play.token
      { p with recovery := if recovered then p.recovery.recordSuccess else p.recovery } c → Q c) :
    Leads id play Q (p.closeDone w recovered .next) := by
  cases recovered with
  | false => exact leads_closeLine hp hstate h
  | true =>
    have hrecorded : Undisturbed id play.token { p with recovery := p.recovery.recordSuccess } :=
      ⟨hp.lock, hp.deferred, hp.pause, hp.going⟩
    exact leads_closeLine hrecorded hstate h

/-- A line that was done and ends the playback leads to the report. -/
lemma leads_closeDone_finished {recovered : Bool} {finish : Finish} (hfinish : finish ≠ .cancelled)
    (hpause : p.pauseRequested = false) (h : ∀ c r, Reported p finish c r → Q c) :
    Leads id play Q (p.closeDone w recovered (.finished finish)) := by
  cases recovered with
  | false => exact leads_closeLine_finished hfinish hpause h
  | true =>
    obtain ⟨q, hq⟩ : ∃ q, q = { p with recovery := p.recovery.recordSuccess } := ⟨_, rfl⟩
    have hclose : p.closeDone w true (.finished finish) = q.closeLine w (.finished finish) := by
      rw [hq]
      rfl
    have hqpause : q.pauseRequested = false := by rw [hq]; exact hpause
    rw [hclose]
    refine leads_closeLine_finished hfinish hqpause fun c r hr => h c r ?_
    rw [hq] at hr
    exact ⟨hr.progress, hr.context, hr.course, hr.outcome, hr.line, hr.scriptName, hr.lines,
      hr.commands⟩

/-! ### Flow actions -/

/-- A line that was executed is counted, its budget is given back, and its flow action follows. -/
lemma exists_finishLine (flow : Flow) (recovered : Bool) :
    ∃ q : Player, q.gist = { p with
        context := p.context.recordLine.lineFinished w.index
        spent := p.spent.forget w.index }.gist ∧
      p.finishLine w flow recovered = q.applyFlow w flow recovered :=
  ⟨_, gist_publish _ _ rfl, rfl⟩

lemma leads_finishLine {flow : Flow} {recovered : Bool}
    (h : ∀ q : Player, q.gist = { p with
        context := p.context.recordLine.lineFinished w.index
        spent := p.spent.forget w.index }.gist →
      Leads id play Q (q.applyFlow w flow recovered)) :
    Leads id play Q (p.finishLine w flow recovered) := by
  apply h
  exact gist_publish _ _ rfl

/-- A flow action that goes on in the script ends the line. -/
lemma applyFlow_eq_of_goesTo {flow : Flow} {recovered : Bool} {resolution : Context.Resolution}
    {resolved context : Context} (hresolve : p.context.resolve flow = .ok (resolution, resolved))
    (hgoes : resolution.goesTo? resolved = some context) :
    p.applyFlow w flow recovered = { p with context }.closeDone w recovered .next := by
  unfold applyFlow
  rw [hresolve]
  cases resolution with
  | advance | jumped | returned =>
    cases hgoes
    rfl
  | stop | completed | call => cases hgoes

/-- A flow action that ends the playback ends the line. -/
lemma applyFlow_eq_of_finish {flow : Flow} {recovered : Bool} {resolution : Context.Resolution}
    {context : Context} {finish : Finish}
    (hresolve : p.context.resolve flow = .ok (resolution, context))
    (hfinish : resolution.finish? = some finish) :
    p.applyFlow w flow recovered = { p with context }.closeDone w recovered (.finished finish) := by
  unfold applyFlow
  rw [hresolve]
  cases resolution with
  | stop | completed =>
    cases hfinish
    rfl
  | advance | jumped | returned | call => cases hfinish

/-- A flow action that goes on in the script leads round. -/
lemma leads_applyFlow {flow : Flow} {recovered : Bool} {resolution : Context.Resolution}
    {resolved context : Context} (hp : Undisturbed id play.token p) (hstate : p.state = .playing)
    (hresolve : p.context.resolve flow = .ok (resolution, resolved))
    (hgoes : resolution.goesTo? resolved = some context)
    (h : ∀ c, Returned id play.token
      { p with
        context
        recovery := if recovered then p.recovery.recordSuccess else p.recovery } c → Q c) :
    Leads id play Q (p.applyFlow w flow recovered) := by
  have hmoved : Undisturbed id play.token { p with context } :=
    ⟨hp.lock, hp.deferred, hp.pause, hp.going⟩
  rw [applyFlow_eq_of_goesTo hresolve hgoes]
  exact leads_closeDone (p := { p with context }) hmoved hstate h

/-- A flow action that ends the playback leads to the report. -/
lemma leads_applyFlow_finished {flow : Flow} {recovered : Bool} {resolution : Context.Resolution}
    {context : Context} {finish : Finish} (hpause : p.pauseRequested = false)
    (hresolve : p.context.resolve flow = .ok (resolution, context))
    (hfinish : resolution.finish? = some finish)
    (h : ∀ c r, Reported { p with context } finish c r → Q c) :
    Leads id play Q (p.applyFlow w flow recovered) := by
  have hne : finish ≠ .cancelled := by
    cases resolution with
    | stop | completed =>
      cases hfinish
      exact Finish.noConfusion
    | advance | jumped | returned | call => cases hfinish
  rw [applyFlow_eq_of_finish hresolve hfinish]
  exact leads_closeDone_finished (p := { p with context }) hne hpause h

/-- A flow action that cannot be carried out is given up. -/
lemma leads_applyFlow_error {flow : Flow} {recovered : Bool} {fault : Fault}
    (hresolve : p.context.resolve flow = .error fault)
    (h : Leads id play Q (p.closeFailed w (fault.located w.index w.script))) :
    Leads id play Q (p.applyFlow w flow recovered) := by
  have happly : p.applyFlow w flow recovered =
      p.closeFailed w (fault.located w.index w.script) := by
    unfold applyFlow
    rw [hresolve]
  rw [happly]
  exact h

/-- Where scripts can be loaded, a call goes on to load its script. -/
lemma applyFlow_call {name : String} {recovered : Bool}
    {load : String → Except LoadError Script} (hload : p.host.loader = some load) :
    p.applyFlow w (.call name) recovered = (p, .goes (.switching w p.run name recovered)) := by
  simp only [applyFlow, Context.resolve, hload]

/-- A call waits for its script, whenever that is there. -/
lemma leads_applyFlow_call {name : String} {recovered : Bool}
    {load : String → Except LoadError Script} (hload : p.host.loader = some load)
    (hQ : ∀ d, Q d → d.2 ≠ .blocked)
    (h : ∀ now, Leads id play Q ((p.at_ now).switchScript w p.run name recovered)) :
    Leads id play Q (p.applyFlow w (.call name) recovered) := by
  rw [applyFlow_call hload]
  exact inevitably_of_ready rfl hQ fun now _ => h now

/-- The playback continues in the script of a call. -/
lemma gist_enter (caller : Run) (name : String) (script : Script) (labels : Table Nat)
    (hopen : p.bus.closed = false) : ∃ recovery run serial,
    (p.enter caller name script labels).gist =
      { p.gist with
        core := { p.core with
          context := p.context.switchTo script labels
          recovery
          spent := {}
          run
          serial }
        course := p.bus.course ++ [.script name] } := by
  obtain ⟨q, hq⟩ : ∃ q, q =
      { p with context := p.context.switchTo script labels, attempts := {} }.setCheckpoint :=
    ⟨_, rfl⟩
  have hset := gist_setCheckpoint
    { p with context := p.context.switchTo script labels, attempts := {} }
  rw [← hq] at hset
  have hcore : q.core =
      { p.core with context := p.context.switchTo script labels, recovery := q.recovery } :=
    congrArg Gist.core hset
  have hcourse : q.bus.course = p.bus.course := congrArg Gist.course hset
  have hstate : q.state = p.state := congrArg Gist.state hset
  have hqopen : q.bus.closed = false := (congrArg (·.bus.closed) hcore).trans hopen
  obtain ⟨r, hr⟩ : ∃ r, r =
      { q with spent := {}, run := caller.child q.serial, serial := q.serial + 1 } := ⟨_, rfl⟩
  have hropen : r.bus.closed = false := by rw [hr]; exact hqopen
  have henter : p.enter caller name script labels =
      r.publish (caller.child q.serial) (.scriptStarted name) := by
    rw [hr, hq]
    rfl
  have hrgist : r.gist = { q.gist with core := { q.core with
      spent := {}, run := caller.child q.serial, serial := q.serial + 1 } } := by
    rw [hr]
    rfl
  have hrcourse : r.bus.course = p.bus.course := (congrArg Gist.course hrgist).trans hcourse
  refine ⟨q.recovery, caller.child q.serial, q.serial + 1, ?_⟩
  rw [henter, gist_publish_milestone r _ rfl hropen, hrgist, hrcourse, hcore]
  exact congrArg (fun state => (⟨_, state, _⟩ : Gist)) hstate

/-- The script of a call is entered, and the playback comes round in it. -/
lemma leads_switchScript {caller : Run} {name : String} {recovered : Bool} {script : Script}
    {labels : Table Nat} (hp : Undisturbed id play.token p) (hstate : p.state = .playing)
    (hopen : p.bus.closed = false) (hfetch : p.fetch w name = .ok (script, labels))
    (h : ∀ (q : Player) (c : Player × Progress) (recovery : Recovery) (run : Run) (serial : Nat),
      q.gist =
        { p.gist with
          core := { p.core with
            context := p.context.switchTo script labels
            recovery
            spent := {}
            run
            serial }
          course := p.bus.course ++ [.script name] } →
      Returned id play.token q c → Q c) :
    Leads id play Q (p.switchScript w caller name recovered) := by
  obtain ⟨recovery, run, serial, hgist⟩ := gist_enter caller name script labels hopen
  obtain ⟨q, hq⟩ : ∃ q, q = p.enter caller name script labels := ⟨_, rfl⟩
  rw [← hq] at hgist
  have hswitch : p.switchScript w caller name recovered = q.closeDone w recovered .next := by
    simp only [switchScript, hfetch, hq]
  have hqp : Undisturbed id play.token q := hp.of_core (congrArg Gist.core hgist)
  have hqstate : q.state = .playing := (congrArg Gist.state hgist).trans hstate
  rw [hswitch]
  refine leads_closeDone hqp hqstate fun c hc => ?_
  obtain ⟨recovery', hrecovery'⟩ : ∃ r, r =
      if recovered then q.recovery.recordSuccess else q.recovery := ⟨_, rfl⟩
  rw [← hrecovery'] at hc
  have hrecorded : { q with recovery := recovery' }.gist =
      { q.gist with core := { q.core with recovery := recovery' } } := rfl
  have hcore := congrArg Gist.core hgist
  have hcore' : q.core = { p.core with
      context := p.context.switchTo script labels, recovery, spent := {}, run, serial } := hcore
  rw [hcore', hgist] at hrecorded
  exact h _ c recovery' run serial hrecorded hc

/-! ### Attempts -/

/-- A playback can go on when its line can. -/
lemma followPlay_of_ite {line : LinePhase} {P : Prop} [Decidable P] {x : Player × LineProgress}
    (h : p.stepLine line = if P then x else (p, .blocked)) :
    p.step id (.playing play line) = if P then followPlay id play x else (p, .blocked) := by
  rw [step, h]
  split <;> rfl

/-- The effects of an attempt change the context only. -/
lemma gist_applyEffect (e : Effect) :
    (p.applyEffect w e).gist =
      { p with context := p.context.affect w.index w.script e }.gist := by
  cases e with
  | assign name value => exact gist_setVariable _ _
  | observe name look => exact gist_setVariable _ _
  | clear => exact gist_clearVariables _ _
  | push line => rfl
  | note message => rfl

/-- All effects of an attempt, one after the other. -/
lemma gist_foldl_applyEffect (effects : List Effect) :
    (effects.foldl (fun p e => p.applyEffect w e) p).gist =
      { p with context := effects.foldl (·.affect w.index w.script) p.context }.gist := by
  induction effects generalizing p with
  | nil => rfl
  | cons e effects ih =>
    obtain ⟨q, hq⟩ : ∃ q, q = p.applyEffect w e := ⟨_, rfl⟩
    have hgist : q.gist = { p with context := p.context.affect w.index w.script e }.gist := by
      rw [hq, gist_applyEffect]
    have hcore : q.core = { p with context := p.context.affect w.index w.script e }.core :=
      congrArg Gist.core hgist
    have hcontext : q.context = p.context.affect w.index w.script e :=
      (congrArg Player.context hcore).trans rfl
    rw [List.foldl_cons, ← hq, ih, hcontext, List.foldl_cons]
    have hset : ∀ context, { q with context }.gist =
        { q.gist with core := { q.core with context } } := fun _ => rfl
    rw [hset, hgist, hcore]
    rfl

/-- The effects of an attempt take no time. -/
lemma now_foldl_applyEffect (effects : List Effect) :
    (effects.foldl (fun p e => p.applyEffect w e) p).now = p.now := by
  have hclear : ∀ (names : List String) (q : Player),
      (names.foldl (fun q name => q.publish w.run (.variableChanged name none)) q).now = q.now := by
    intro names
    induction names with
    | nil => exact fun _ => rfl
    | cons name names ih => exact fun q => ih _
  induction effects generalizing p with
  | nil => rfl
  | cons e effects ih =>
    rw [List.foldl_cons, ih]
    cases e with
    | assign | observe | push | note => rfl
    | clear => exact hclear _ _

/-- How an attempt of a playback that is not cancelled has ended. -/
lemma landing_cases {verdict : Except Failure CommandResult}
    (hgoing : p.isCancelled j.work.token = false) (h : p.landing j f = some verdict) :
    verdict = f.verdict ∨
      (∃ elapsed, verdict = .error (.timedOut elapsed)) ∧ f.limit ≤ p.now ∧
        ∀ done, f.doneAt = some done → p.now < done := by
  unfold landing at h
  rw [hgoing] at h
  simp only [Bool.false_eq_true, if_false] at h
  split at h
  · cases h
    exact .inl rfl
  · next hflying =>
    split at h
    · next hlimit =>
      cases h
      refine .inr ⟨⟨_, rfl⟩, hlimit, fun done hdone => ?_⟩
      simpa [hdone] using hflying
    · cases h

/-- An attempt that has ended by itself is found to have done so. -/
lemma landing_done {done : Nat} (hgoing : p.isCancelled j.work.token = false)
    (hdone : f.doneAt = some done) (hle : done ≤ p.now) : p.landing j f = some f.verdict := by
  simp [landing, hgoing, hdone, hle]

/-- An attempt that has not ended by itself at its limit has taken too long. -/
lemma landing_late (hgoing : p.isCancelled j.work.token = false) (hlimit : f.limit ≤ p.now)
    (hflying : ∀ done, f.doneAt = some done → p.now < done) :
    ∃ elapsed, p.landing j f = some (.error (.timedOut elapsed)) := by
  have hany : f.doneAt.any (· ≤ p.now) = false := by
    cases hdone : f.doneAt with
    | none => rfl
    | some done => simpa using hflying done hdone
  refine ⟨Span.ofMillis (p.stopwatch - f.since), ?_⟩
  unfold landing
  rw [hgoing, hany, if_pos hlimit]
  rfl

/-- An attempt has ended at its limit. -/
lemma exists_landing (hgoing : p.isCancelled j.work.token = false) (hlimit : f.limit ≤ p.now) :
    ∃ verdict, p.landing j f = some verdict := by
  refine Option.isSome_iff_exists.mp ?_
  unfold landing
  rw [hgoing, if_pos hlimit]
  simp only [Bool.false_eq_true, if_false]
  split <;> rfl

/-- An attempt in flight leads on once it has ended. -/
lemma leads_flying (hgoing : p.isCancelled j.work.token = false) (hQ : ∀ d, Q d → d.2 ≠ .blocked)
    (h : ∀ now verdict, p.now ≤ now → (p.at_ now).landing j f = some verdict →
      Leads id play Q ((p.at_ now).land j f verdict)) :
    Leads id play Q (p, .goes (.flying j f)) := by
  have hland : ∀ now verdict, (p.at_ now).landing j f = some verdict →
      (p.at_ now).step id (.playing play (.flying j f)) =
        followPlay id play ((p.at_ now).land j f verdict) := by
    intro now verdict hverdict
    simp only [step, stepLine, hverdict]
  have hblocked : ∀ now, (p.at_ now).landing j f = none →
      (p.at_ now).step id (.playing play (.flying j f)) = (p.at_ now, .blocked) := by
    intro now hverdict
    simp only [step, stepLine, hverdict, followPlay]
  refine inevitably_of_step rfl ⟨p.now + f.limit, Nat.le_add_right _ _, ?_⟩ ?_
  · -- At the latest the attempt ends with its time.
    obtain ⟨verdict, hverdict⟩ :=
      exists_landing (p := p.at_ (p.now + f.limit)) hgoing (Nat.le_add_left _ _)
    rw [hland _ _ hverdict]
    exact ne_blocked_of_inevitably (h _ _ (Nat.le_add_right _ _) hverdict) hQ
  · intro now hnow hb
    cases hverdict : (p.at_ now).landing j f with
    | none =>
      rw [hblocked now hverdict] at hb
      exact absurd rfl hb
    | some verdict =>
      rw [hland now verdict hverdict]
      exact h now verdict hnow hverdict

/-- An attempt that is made: its effects show at once, and it ends by itself or with its time. -/
lemma launch_spec (hgoing : p.isCancelled j.work.token = false) :
    ∃ (n : Nat) (q : Player) (f : Flight) (attempt : Attempt),
      p.launch j = (q, .goes (.flying j f)) ∧
      attempt = j.command.attempt n (p.context.view j.work.index j.work.script) ∧
      q.gist =
        { p with
          context := attempt.effects.foldl (·.affect j.work.index j.work.script)
            p.context }.gist ∧
      f.verdict = attempt.verdict ∧
      (∀ span, attempt.pace = .lasts span → f.doneAt = some (p.timer span)) ∧
      f.limit = p.timer (p.host.policy j.command.type).timeout ∧ q.now = p.now := by
  obtain ⟨r, hr⟩ : ∃ r, r = p.publish j.work.run (.commandExecuting j.work.index j.command.type) :=
    ⟨_, rfl⟩
  have hrgist : r.gist = p.gist := by rw [hr, gist_publish _ _ rfl]
  have hrgoing : r.isCancelled j.work.token = false := by
    rw [hr]
    exact hgoing
  have hrtimer : ∀ span, r.timer span = p.timer span := by
    intro span
    rw [hr]
    rfl
  have hrhost : r.host = p.host := by rw [hr]; rfl
  have hrcontext : r.context = p.context := by rw [hr]; rfl
  obtain ⟨attempt, hattempt⟩ : ∃ a, a = j.command.attempt (r.attempts.count j.work.index)
      (p.context.view j.work.index j.work.script) := ⟨_, rfl⟩
  obtain ⟨q, hq⟩ : ∃ q, q =
      attempt.effects.foldl (fun p e => p.applyEffect j.work e) (r.countAttempt j) := ⟨_, rfl⟩
  obtain ⟨f, hlaunch, hverdict, hdone, hlimit⟩ : ∃ f : Flight,
      p.launch j = (q, .goes (.flying j f)) ∧ f.verdict = attempt.verdict ∧
      (∀ span, attempt.pace = .lasts span → f.doneAt = some (r.timer span)) ∧
      f.limit = r.timer (r.host.policy j.command.type).timeout := by
    simp only [launch, ← hr, hrgoing, hrcontext, ← hattempt, hq]
    exact ⟨_, rfl, rfl, fun span hspan => by simp [hspan], rfl⟩
  have hset : ∀ (s t : Player) context, s.gist = t.gist →
      { s with context }.gist = { t with context }.gist := by
    intro s t context hst
    have hcore : s.core = t.core := congrArg Gist.core hst
    have hs : { s with context }.gist = { s.gist with core := { s.core with context } } := rfl
    rw [hs, hst, hcore]
    rfl
  have hcount : (r.countAttempt j).gist = p.gist := by rw [gist_countAttempt, hrgist]
  have hcontext : (r.countAttempt j).context = p.context :=
    congrArg (fun g : Gist => g.core.context) hcount
  have hrnow : (r.countAttempt j).now = p.now := by
    rw [hr]
    unfold countAttempt
    split <;> rfl
  refine ⟨_, q, f, attempt, hlaunch, hattempt, ?_, hverdict, ?_, ?_, ?_⟩
  · rw [hq, gist_foldl_applyEffect, hset _ _ _ hcount, hcontext]
  · intro span hspan
    rw [hdone span hspan, hrtimer]
  · rw [hlimit, hrtimer, hrhost]
  · rw [hq, now_foldl_applyEffect, hrnow]

/-- An attempt is made and leads on once it has ended.  Where it takes no longer than it may, it
ends by itself. -/
lemma leads_launch (hp : Undisturbed id play.token p) (htoken : j.work.token = play.token)
    (hQ : ∀ d, Q d → d.2 ≠ .blocked)
    (h : ∀ (n : Nat) (q : Player) (f : Flight) (attempt : Attempt)
      (verdict : Except Failure CommandResult),
      attempt = j.command.attempt n (p.context.view j.work.index j.work.script) →
      q.gist =
        { p with
          context := attempt.effects.foldl (·.affect j.work.index j.work.script)
            p.context }.gist →
      (verdict = attempt.verdict ∨
        (∃ elapsed, verdict = .error (.timedOut elapsed)) ∧
          ∀ span, attempt.pace = .lasts span →
            p.timer (p.host.policy j.command.type).timeout < p.timer span) →
      Leads id play Q (q.land j f verdict)) :
    Leads id play Q (p.launch j) := by
  have hgoing : p.isCancelled j.work.token = false := by rw [htoken]; exact hp.going
  obtain ⟨n, q, f, attempt, hlaunch, hattempt, hqgist, hverdict, hdone, hlimit, -⟩ :=
    launch_spec hgoing
  have hqp : Undisturbed id play.token q := hp.of_core (congrArg Gist.core hqgist)
  have hqgoing : q.isCancelled j.work.token = false := by rw [htoken]; exact hqp.going
  rw [hlaunch]
  refine leads_flying hqgoing hQ fun now verdict _ hlanding => ?_
  have hgist : (q.at_ now).gist = q.gist := rfl
  refine h n (q.at_ now) f attempt verdict hattempt (hgist.trans hqgist) ?_
  rcases landing_cases (p := q.at_ now) hqgoing hlanding with hends | ⟨htimeout, hle, hlate⟩
  · rw [hends, hverdict]
    exact .inl rfl
  · refine .inr ⟨htimeout, fun span hspan => ?_⟩
    rw [← hlimit]
    exact Nat.lt_of_le_of_lt hle (hlate _ (hdone span hspan))

/-- Once its command has ended, a line is no longer waited for. -/
lemma gist_leaveWaiting (hentered : j.entered = true) (hstate : p.state = .waiting) :
    (p.leaveWaiting j).gist = { p.gist with state := .playing } := by
  unfold leaveWaiting
  rw [if_pos hentered, moveFrom_eq p j.work.run hstate rfl]
  exact gist_commit _ _

/-- An attempt that has succeeded is counted, and its line is done. -/
lemma exists_land {verdict : Except Failure CommandResult} {flow : Flow}
    (hentered : j.entered = true) (hstate : p.state = .waiting)
    (hok : j.command.conclude verdict = .ok flow) :
    ∃ q : Player,
      q.gist = { p.gist with
        core := { p.core with context := p.context.recordCommand }
        state := .playing } ∧
      p.land j f verdict = q.finishLine j.work flow false := by
  obtain ⟨r, hr⟩ : ∃ r, r = p.recordAttempt j f (.ok flow) := ⟨_, rfl⟩
  have hrgist : r.gist = p.gist := by rw [hr, gist_recordAttempt]
  have hcore : r.core = p.core := congrArg Gist.core hrgist
  have hcontext : r.context = p.context := (congrArg Player.context hcore).trans rfl
  obtain ⟨q, hq⟩ : ∃ q, q = { r with context := p.context.recordCommand } := ⟨_, rfl⟩
  have hqgist : q.gist = { r.gist with core := { r.core with
      context := p.context.recordCommand } } := by
    rw [hq]
    rfl
  have hqstate : q.state = .waiting := by
    rw [hq]
    exact (congrArg Gist.state hrgist).trans hstate
  refine ⟨q.leaveWaiting j, ?_, ?_⟩
  · rw [gist_leaveWaiting hentered hqstate, hqgist, hrgist, hcore]
  · simp only [land, hok, ← hr, hcontext, hq]

lemma leads_land {verdict : Except Failure CommandResult} {flow : Flow}
    (hentered : j.entered = true) (hstate : p.state = .waiting)
    (hok : j.command.conclude verdict = .ok flow)
    (h : ∀ q : Player,
      q.gist = { p.gist with
        core := { p.core with context := p.context.recordCommand }
        state := .playing } →
      Leads id play Q (q.finishLine j.work flow false)) :
    Leads id play Q (p.land j f verdict) := by
  obtain ⟨q, hgist, hland⟩ := exists_land (f := f) hentered hstate hok
  rw [hland]
  exact h q hgist

/-- An attempt that has failed is counted, and another one or recovery follows. -/
lemma leads_land_error {verdict : Except Failure CommandResult} {failure : Failure}
    (hgoing : p.isCancelled j.work.token = false)
    (herror : j.command.conclude verdict = .error failure)
    (h : ∀ q : Player, q.gist = { p with context := p.context.recordCommand }.gist →
      Leads id play Q (q.attemptFailed j failure)) :
    Leads id play Q (p.land j f verdict) := by
  obtain ⟨r, hr⟩ : ∃ r, r = p.recordAttempt j f (.error failure) := ⟨_, rfl⟩
  have hrgist : r.gist = p.gist := by rw [hr, gist_recordAttempt]
  have hcore : r.core = p.core := congrArg Gist.core hrgist
  have hcontext : r.context = p.context := (congrArg Player.context hcore).trans rfl
  have hrgoing : r.isCancelled j.work.token = false :=
    (congrArg (·.isCancelled j.work.token) hcore).trans hgoing
  have hland : p.land j f verdict =
      { r with context := p.context.recordCommand }.attemptFailed j failure := by
    simp only [land, herror, ← hr, hrgoing, hcontext, Bool.false_eq_true, if_false]
  rw [hland]
  apply h
  have hset : { r with context := p.context.recordCommand }.gist =
      { r.gist with core := { r.core with context := p.context.recordCommand } } := rfl
  rw [hset, hrgist, hcore]
  rfl

/-- A failed attempt is followed by another one while there are any left, and then by recovery. -/
lemma leads_attemptFailed {failure : Failure} (hp : Undisturbed id play.token p)
    (hentered : j.entered = true) (htoken : j.work.token = play.token)
    (hstate : p.state = .waiting) (hQ : ∀ d, Q d → d.2 ≠ .blocked)
    (hagain : (j.fault failure (p.host.policy j.command.type)).retryable = true →
      j.attempt ≤ (p.host.policy j.command.type).maxRetries →
      ∀ q : Player, q.gist = p.gist →
        Leads id play Q (q.launch { j with attempt := Word.next 32 j.attempt }))
    (hlast : ∀ q : Player, q.gist = { p.gist with state := .playing } →
      Leads id play Q (q.handleFault j.work (j.fault failure (p.host.policy j.command.type))
        (p.host.policy j.command.type))) :
    Leads id play Q (p.attemptFailed j failure) := by
  obtain ⟨policy, hpolicy⟩ : ∃ policy, policy = p.host.policy j.command.type := ⟨_, rfl⟩
  obtain ⟨q, hq⟩ : ∃ q, q = (p.backoff policy j.attempt).2.publish j.work.run
      (.commandRetrying j.work.index j.command.type j.attempt
        (p.backoff policy j.attempt).1) := ⟨_, rfl⟩
  have hqgist : q.gist = p.gist := by
    rw [hq, gist_publish _ _ rfl, gist_backoff]
  obtain ⟨until_, huntil⟩ : ∃ t, t =
      (p.backoff policy j.attempt).2.timer (Span.ofMillis (p.backoff policy j.attempt).1) :=
    ⟨_, rfl⟩
  have hfailed : p.attemptFailed j failure =
      if (j.fault failure policy).retryable && decide (j.attempt ≤ policy.maxRetries) then
        (q, .goes (.resting j until_))
      else (p.leaveWaiting j).handleFault j.work (j.fault failure policy) policy := by
    rw [hq, huntil, hpolicy]
    rfl
  rw [← hpolicy] at hagain hlast
  rw [hfailed]
  split
  · next hretry =>
    obtain ⟨hretryable, hattempts⟩ := Bool.and_eq_true_iff.mp hretry
    have hqp : Undisturbed id play.token q := hp.of_core (congrArg Gist.core hqgist)
    have hgoing : q.isCancelled j.work.token = false := by rw [htoken]; exact hqp.going
    have hstep : ∀ now, (q.at_ now).step id (.playing play (.resting j until_)) =
        if until_ ≤ now then
          followPlay id play ((q.at_ now).launch { j with attempt := Word.next 32 j.attempt })
        else (q.at_ now, .blocked) := by
      intro now
      have hunfold : (q.at_ now).stepLine (.resting j until_) =
          if q.isCancelled j.work.token then
            ((q.at_ now).leaveWaiting j, .ends (.finished .cancelled))
          else if until_ ≤ now then (q.at_ now).launch { j with attempt := Word.next 32 j.attempt }
          else (q.at_ now, .blocked) := rfl
      rw [hgoing, if_neg Bool.false_ne_true] at hunfold
      exact followPlay_of_ite hunfold
    exact inevitably_of_timer
      (f := fun q => followPlay id play (q.launch { j with attempt := Word.next 32 j.attempt }))
      rfl hQ hstep
      fun now => hagain hretryable (of_decide_eq_true hattempts) (q.at_ now) hqgist
  · apply hlast
    exact gist_leaveWaiting hentered hstate

/-! ### Text -/

/-- A text line is done, unless it is shown and showing it fails. -/
lemma leads_beginText {source : String} (hp : Undisturbed id play.token p)
    (htoken : w.token = play.token) (hQ : ∀ d, Q d → d.2 ≠ .blocked)
    (hdone : ∀ q : Player, q.gist = p.gist → Leads id play Q (q.finishLine w .next false))
    (hfail : ∀ (q : Player) (presenter : Presenter) (text : String) (failure : Failure),
      q.gist = p.gist → p.host.presenter = some presenter →
      TextKind.ofText source = .narrative text → presenter.respond text = .error failure →
      Leads id play Q (q.handleFault w
        ((failure.classify "text" (p.host.policy "text")).located w.index w.script)
        (p.host.policy "text"))) :
    Leads id play Q (p.beginText w source) := by
  have hgoing : p.isCancelled w.token = false := by rw [htoken]; exact hp.going
  unfold beginText
  split
  · next _ _ text presenter hkind hpresenter =>
    rw [hgoing, Bool.and_false]
    obtain ⟨q, hq⟩ : ∃ q, q = { p with trace := p.trace.push (.presented text p.now) } := ⟨_, rfl⟩
    have hqgist : q.gist = p.gist := by rw [hq]; rfl
    have hqhost : q.host = p.host := by rw [hq]
    have hqgoing : q.isCancelled w.token = false := by rw [hq]; exact hgoing
    simp only [Bool.false_eq_true, if_false, ← hq]
    have hstep : ∀ now, (q.at_ now).step id
          (.playing play (.presenting w (p.timer presenter.span) (presenter.respond text))) =
        if p.timer presenter.span ≤ now then
          followPlay id play ((q.at_ now).presented w (presenter.respond text))
        else (q.at_ now, .blocked) := by
      intro now
      have hunfold : (q.at_ now).stepLine
            (.presenting w (p.timer presenter.span) (presenter.respond text)) =
          if q.isCancelled w.token && (q.prompt || decide (now < p.timer presenter.span)) then
            (q.at_ now, .ends (.finished .cancelled))
          else if p.timer presenter.span ≤ now then
            (q.at_ now).presented w (presenter.respond text)
          else (q.at_ now, .blocked) := rfl
      rw [hqgoing, Bool.false_and, if_neg Bool.false_ne_true] at hunfold
      exact followPlay_of_ite hunfold
    refine inevitably_of_timer
      (f := fun q => followPlay id play (q.presented w (presenter.respond text))) rfl hQ hstep
      fun now => ?_
    cases hrespond : presenter.respond text with
    | ok _ => exact hdone (q.at_ now) hqgist
    | error failure =>
      have hpresented : (q.at_ now).presented w (.error failure) =
          (q.at_ now).handleFault w
            ((failure.classify "text" (p.host.policy "text")).located w.index w.script)
            (p.host.policy "text") := by
        have hhost : (q.at_ now).host = p.host := hqhost
        simp only [presented, at_isCancelled, hqgoing, Bool.false_eq_true, if_false, hhost]
      rw [hpresented]
      exact hfail (q.at_ now) presenter text failure hqgist hpresenter hkind hrespond
  · exact hdone p rfl

/-! ### The beginning of a line -/

/-- A command line waits for its command. -/
lemma exists_beginCommand (command : Command) (hstate : p.state = .playing) :
    ∃ q : Player, q.gist = { p.gist with state := .waiting } ∧
      p.beginCommand w (some command) =
        q.launch { work := w, command, entered := true, attempt := 1 } := by
  refine ⟨p.commit w.run (p.cell.commit .waiting), gist_commit _ _, ?_⟩
  simp only [beginCommand, moveFrom_eq p w.run (b := .waiting) hstate rfl]

lemma leads_beginCommand {command : Command} (hstate : p.state = .playing)
    (h : ∀ q : Player, q.gist = { p.gist with state := .waiting } →
      Leads id play Q (q.launch { work := w, command, entered := true, attempt := 1 })) :
    Leads id play Q (p.beginCommand w (some command)) := by
  obtain ⟨q, hgist, hbegin⟩ := exists_beginCommand (w := w) command hstate
  rw [hbegin]
  exact h q hgist

/-- A round of the loop of an undisturbed playback without breakpoints executes a line. -/
lemma step_playLock (hp : Undisturbed id play.token p) (hstate : p.state = .playing)
    (hbreakpoints : p.context.breakpoints = []) :
    p.step id (.playLock play) = followPlay id play (p.beginLine play.token) := by
  have hheld : p.lineLock.isHeldBy id = true := by
    rw [hp.lock]
    simp [Lock.isHeldBy]
  have htake : p.context.takeBreakpoint = (none, p.context) := by
    simp [Context.takeBreakpoint, hbreakpoints]
  have hgo : (p.deferred.isSome || decide (p.state ≠ .playing)) = false := by
    simp [hp.deferred, hstate]
  have hunfold : p.step id (.playLock play) =
      if p.lineLock.isHeldBy id then p.playLine id play else (p, .blocked) := rfl
  rw [hunfold, if_pos hheld]
  unfold playLine
  rw [hgo, htake]
  rfl

/-- The line under the cursor is begun. -/
lemma exists_beginLine (token : Token) {context : Context} {line : Line}
    (hcontext : p.context.settleCursor = context) :
    context.currentLine = some line → ∃ (q : Player) (w : Work),
      w.index = context.cursor ∧ w.script = context.scriptName ∧
      w.token = token ∧ q.core = { p.core with context } ∧ q.state = p.state ∧
      (p.bus.closed = false → q.bus.course = p.bus.course ++ [.line context.cursor]) ∧
      p.beginLine token =
        match line with
        | .command _ command => q.beginCommand w command
        | .text text => q.beginText w text := by
  intro hline
  obtain ⟨r, hr⟩ : ∃ r, r = { p with context } := ⟨_, rfl⟩
  have hrcontext : r.context = context := by rw [hr]
  have hrcore : r.core = { p.core with context } := by rw [hr]; rfl
  have hrstate : r.state = p.state := by rw [hr]; rfl
  have hrbus : r.bus = p.bus := by rw [hr]
  obtain ⟨w, hw⟩ : ∃ w : Work, w =
      { index := context.cursor, source := line.source, script := context.scriptName,
        run := r.run, token } := ⟨_, rfl⟩
  have hcore := core_publish r w.run (.lineExecuting w.index w.source)
  refine ⟨r.publish w.run (.lineExecuting w.index w.source), w, by rw [hw], by rw [hw], by rw [hw],
    hcore.trans hrcore, hrstate, fun hopen => ?_, ?_⟩
  · have hropen : r.bus.closed = false := by rw [hrbus]; exact hopen
    have hmilestone := gist_publish_milestone r w.run
      (e := .lineExecuting w.index w.source) (m := .line context.cursor) (by rw [hw]; rfl) hropen
    refine (congrArg Gist.course hmilestone).trans ?_
    rw [hrbus]
  · unfold beginLine
    rw [hcontext, ← hr]
    dsimp only
    rw [hrcontext, hline]
    subst hw
    cases line <;> rfl

/-- A line is begun, or the end of the script is reported. -/
lemma leads_beginLine {context : Context} (hcontext : p.context.settleCursor = context)
    (hend : context.currentLine = none → ∀ c r, Reported { p with context } .completed c r → Q c)
    (hline : ∀ line (q : Player) (w : Work), context.currentLine = some line →
      w.index = context.cursor → w.script = context.scriptName → w.token = token →
      q.core = { p.core with context } → q.state = p.state →
      (p.bus.closed = false → q.bus.course = p.bus.course ++ [.line context.cursor]) →
      Leads id play Q
        (match line with
        | .command _ command => q.beginCommand w command
        | .text text => q.beginText w text)) :
    Leads id play Q (p.beginLine token) := by
  cases hcurrent : context.currentLine with
  | none =>
    have hbegin : p.beginLine token = ({ p with context }, .ends (.finished .completed)) := by
      unfold beginLine
      rw [hcontext]
      dsimp only
      rw [hcurrent]
    rw [hbegin]
    exact leads_ends Finish.noConfusion (hend hcurrent)
  | some line =>
    obtain ⟨q, w, hindex, hscript, htoken, hcore, hstate, hcourse, hbegin⟩ :=
      exists_beginLine token hcontext hcurrent
    rw [hbegin]
    exact hline line q w hcurrent hindex hscript htoken hcore hstate hcourse

end Player

end Recital
